import LineChart.Drawing.Dash
import LineChart.Drawing.Scene

/-!
# Drawing the data

The series of a figure are drawn one after the other on a canvas, each run by itself. On the way the
series are noted for the legend.

* `Sheet` : the measures of a drawing that do not depend on its series.
* `Canvas.drawRun`, `Canvas.drawSeries` : one more run, and one more series.
* `Figure.canvas` : the canvas with all series of a figure.
-/

namespace LineChart

/-! ### Measures -/

/-- The measures of a drawing: its size, and whether room is left for a title. -/
structure Sheet where
  width : Nat
  height : Nat
  titled : Bool
deriving DecidableEq

namespace Sheet

/-- The units of a length in inches, a half going away from zero. -/
def units (inches : Double) : Nat :=
  ((.ofNat 72 * inches : Double).clampTo 0 (UInt32.size - 1) Binary.roundAway).toNat

/-- The empty margin on each side. -/
def margin : Int := 18

/-- The room for the title, and that for the numbers and the label of the y axis and of the x
axis. -/
def titleRoom : Int := 22
def leftRoom : Int := 80
def bottomRoom : Int := 50

def ofFigure (f : Figure) : Sheet := ⟨units f.width, units f.height, f.title.isSome⟩

/-- The area of the data. -/
def plot (s : Sheet) : Area where
  left := margin + leftRoom
  top := if s.titled then margin + titleRoom else margin
  right := s.width - margin
  bottom := s.height - margin - bottomRoom

/-- The whole drawing. -/
def page (s : Sheet) : Area := ⟨0, 0, s.width, s.height⟩

/-- The title stands in the middle between the margins. -/
def titlePlace (s : Sheet) : Pixel := ⟨margin + ((s.width : Int) - 2 * margin).tdiv 2, 23⟩

def yLabelPlace (s : Sheet) : Pixel := ⟨margin, s.plot.top + s.plot.height.tdiv 2⟩

def xLabelPlace (s : Sheet) : Pixel := ⟨s.plot.left + s.plot.width.tdiv 2, s.height - margin⟩

/-- The place of a point. The last column and the last row of the area belong to its frame. -/
def place (s : Sheet) (bounds : Interval × Interval) (p : Point) : Pixel :=
  let area := s.plot
  area.clamp ⟨bounds.1.place area.left (area.right - 1) p.x,
    bounds.2.place (area.bottom - 1) area.top p.y⟩

end Sheet

/-! ### Lines -/

/-- The lines through some places in a style. No places give no line. -/
def LineStyle.lines : LineStyle → List Pixel → List (List Pixel)
  | .solid, [] => []
  | .solid, places => [places]
  | .dashed, places => dashes places

/-- What a legend says of a series. -/
structure LegendEntry where
  label : String
  colour : Colour
deriving DecidableEq

/-- A drawing on which the data are being drawn: the lines so far, and the entries for the legend
that were noted on the way. -/
structure Canvas where
  sheet : Sheet
  bounds : Interval × Interval
  strokes : List Stroke
  entries : List LegendEntry

namespace Canvas

/-- The strokes of one run of a series. -/
def runStrokes (c : Canvas) (s : Series) (run : List Point) : List Stroke :=
  (s.style.lines (run.map (c.sheet.place c.bounds))).map (Stroke.mk s.colour)

/-- Draws one run of a series, which is run `i` among them. With the first one, the series is noted
for the legend. -/
def drawRun (s : Series) (c : Canvas) (i : Nat) (run : List Point) : Canvas :=
  { c with
    strokes := c.strokes ++ c.runStrokes s run
    entries := if i = 0 then c.entries ++ [⟨s.label, s.colour⟩] else c.entries }

/-- Draws the runs of a series from run `i` on. -/
def drawRuns (s : Series) : Canvas → Nat → List (List Point) → Canvas
  | c, _, [] => c
  | c, i, run :: rest => drawRuns s (drawRun s c i run) (i + 1) rest

/-- Draws a series. One without runs is drawn as a single empty run, so that it is noted as well. -/
def drawSeries (c : Canvas) (s : Series) : Canvas :=
  drawRuns s c 0 (if s.runs = [] then [[]] else s.runs)

end Canvas

/-- The canvas of a figure with all of its data. -/
def Figure.canvas (f : Figure) : Canvas :=
  f.series.foldl Canvas.drawSeries ⟨Sheet.ofFigure f, f.bounds, [], []⟩

end LineChart
