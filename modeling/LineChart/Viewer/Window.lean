import LineChart.Viewer.Basic

/-!
# The window of the viewer

The window has a bar at the top, a panel at the side with a row for each series, and the plot.

* `Window` : what the window shows.
* `Window.panel`, `Window.clicks` : the side panel from above, and the clicks that it takes.
* `Viewer.window` : the window of a viewer.
* `Viewer.click` : what a click on one of the window's switches does.
-/

namespace LineChart

/-- A row of the side panel: a box to tick beside the text. -/
structure SeriesRow where
  text : String
  colour : Colour
  ticked : Bool
deriving DecidableEq

/-- What stands in the place of the plot. -/
inductive PlotPanel where
  | nothingToPlot
  /-- The labels of the axes, and the legend, each label once. -/
  | plot (xLabel yLabel : String) (legend : List String)
deriving DecidableEq

structure Window where
  /-- The texts of the top bar from left to right. -/
  bar : List String
  rows : List SeriesRow
  plot : PlotPanel
deriving DecidableEq

/-- The switches that can be clicked. -/
inductive Click where
  | row (i : Nat)
  | all
  | none
deriving DecidableEq

/-- What stands in the side panel. -/
inductive PanelItem where
  | title (text : String)
  | button (text : String) (click : Click)
  | row (i : Nat) (r : SeriesRow)
deriving DecidableEq

/-- The click that an item takes. -/
def PanelItem.click? : PanelItem → Option Click
  | title _ => none
  | button _ click => some click
  | row i _ => some (.row i)

namespace PlotPanel

def nothingText : String := "Nothing to plot"

/-- The texts that are written in the panel; an empty label is not written. -/
def texts : PlotPanel → List String
  | nothingToPlot => [nothingText]
  | plot xLabel yLabel legend => [xLabel, yLabel].filter (· ≠ "") ++ legend

end PlotPanel

namespace Window

def panelTitle : String := "Series"
def allButton : String := "All"
def noneButton : String := "None"

/-- The side panel from above: the buttons stand in front of the rows. -/
def panel (w : Window) : List PanelItem :=
  [.title panelTitle, .button allButton .all, .button noneButton .none] ++ w.rows.mapIdx .row

/-- The clicks that the side panel takes. -/
def clicks (w : Window) : List Click := w.panel.filterMap PanelItem.click?

end Window

namespace Viewer

/-- The text about where the figure was saved. -/
def savedText (v : Viewer) : String :=
  match v.savedTo with
  | some path => "saved to " ++ path.text
  | none => "not saved"

/-- The text about what is in view: all series are counted, but only points of those that are on. -/
def countText (v : Viewer) : String :=
  let (series, points) := (v.figure.series.length, v.pointCount)
  s!"{series} series, {points} points visible"

/-- The row of series `i`. All of its points are counted, whether it is on or off. -/
def row (v : Viewer) (i : Nat) (s : Series) : SeriesRow :=
  let (label, points) := (s.label, s.pointCount)
  ⟨s!"{label}  ({points} pts)", s.colour, v.isVisible i⟩

/-- The labels of the lines in the plot. A series without runs has no line. -/
def lineLabels (v : Viewer) : List String :=
  v.shown.flatMap fun entry => entry.2.runs.map fun _ => entry.2.label

/-- The legend of the plot: each label once, if there is a legend at all. -/
def legend (v : Viewer) : List String := if v.figure.legend then v.lineLabels.eraseDups else []

def plot (v : Viewer) : PlotPanel :=
  if v.figure.series = [] then .nothingToPlot
  else .plot v.figure.xLabel v.figure.yLabel v.legend

def window (v : Viewer) : Window where
  bar := [v.title, v.countText, v.savedText] ++ v.status.toList
  rows := v.figure.series.mapIdx v.row
  plot := v.plot

/-- A click on a row ticks or unticks its box, if there is such a row. -/
def click (v : Viewer) : Click → Viewer
  | .row i => if i < v.window.rows.length then v.toggle i else v
  | .all => v.showAll
  | .none => v.hideAll

end Viewer

end LineChart
