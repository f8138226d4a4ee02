import LineChart.Description.Loading
import LineChart.Description.Presets

/-!
# Commands

A command asks for one of the stock figures, or for the figure that a file describes.

* `Command` : the commands with their settings.
* `Command.base` : the description that a command starts from.
* `Command.description` : the description with the command's settings, checked.
-/

namespace LineChart

/-- The settings that every command has. -/
structure CommonSettings where
  dpi : Option UInt32 := none
  title : Option String := none
  /-- Save the figure without opening a window. -/
  noShow : Bool := false
deriving DecidableEq

inductive Command where
  | bandwidth (input output : Path) (sets : List UInt32) (common : CommonSettings)
  /-- Weights, or a line for each queue, take the place of the label. -/
  | requestTime (input output : Path) (label : String) (byQueue : Bool) (weights : List UInt64)
      (common : CommonSettings)
  | render (description : Path) (input output : Option Path) (common : CommonSettings)
deriving DecidableEq

namespace Command

def common : Command → CommonSettings
  | bandwidth _ _ _ common => common
  | requestTime _ _ _ _ _ common => common
  | render _ _ _ common => common

/-- The description that a command starts from. -/
def base (files : Files) : Command → Except DescriptionLoadError FigureDescription
  | bandwidth _ _ sets _ => .ok (Presets.bandwidth sets)
  | requestTime _ _ label byQueue weights _ =>
    .ok (if byQueue ∨ weights ≠ [] then Presets.requestTimeByQueue weights
      else Presets.requestTime label)
  | render description _ _ _ => FigureDescription.load files description

/-- The paths that a command puts in the place of those of its description. -/
def paths : Command → Option Path × Option Path
  | bandwidth input output _ _ => (some input, some output)
  | requestTime input output _ _ _ _ => (some input, some output)
  | render _ input output _ => (input, output)

/-- A description with the settings of a command. -/
def adjust (c : Command) (d : FigureDescription) : FigureDescription :=
  { d with
    input := c.paths.1.getD d.input
    output := c.paths.2.getD d.output
    dpi := c.common.dpi.getD d.dpi
    title := c.common.title <|> d.title }

/-- The description that a command asks for. -/
def description (c : Command) (files : Files) :
    Except DescriptionLoadError FigureDescription :=
  match c.base files with
  | .error e => .error e
  | .ok base =>
    match (c.adjust base).check with
    | .error e => .error (.description e)
    | .ok () => .ok (c.adjust base)

end Command

end LineChart
