import LineChart.Drawing.Pixel

/-!
# Drawings

A `Scene` is what a saved figure shows: lines, texts and rectangles at their places. The lines of
the data come first, and the legend covers them.

* `Scene.lines`, `Scene.rectangles`, `Scene.texts` : all of a kind, in drawing order.
-/

namespace LineChart

/-- A line through some places, two units wide. -/
structure Stroke where
  colour : Colour
  points : List Pixel
deriving DecidableEq

/-- A text at a place. -/
structure Caption where
  place : Pixel
  text : String
deriving DecidableEq

/-- A label of an axis, in bold. The label of the y axis is turned upwards. -/
structure AxisLabel where
  caption : Caption
  turned : Bool
deriving DecidableEq

/-- A rectangle is filled, more or less opaquely, or only outlined. -/
inductive Paint where
  | fill (colour : Colour) (opacity : Decimal)
  | outline (colour : Colour)
deriving DecidableEq

structure Rectangle where
  area : Area
  paint : Paint
deriving DecidableEq

/-- A legend as it is drawn: its box, a text for each entry, and a short line beside each text. -/
structure LegendBox where
  rectangles : List Rectangle
  entries : List Caption
  swatches : List Stroke
deriving DecidableEq

structure Scene where
  width : Nat
  height : Nat
  background : Rectangle
  title : Option Caption
  axisLabels : List AxisLabel
  grid : Bool
  /-- The lines of the data, in the order in which they are drawn. -/
  strokes : List Stroke
  /-- The legend, which covers the lines. -/
  legend : Option LegendBox
deriving DecidableEq

namespace Scene

/-- The texts, the lines and the rectangles of the legend, if there is one. -/
def legendTexts (s : Scene) : List Caption := (s.legend.map LegendBox.entries).getD []
def swatches (s : Scene) : List Stroke := (s.legend.map LegendBox.swatches).getD []
def legendRectangles (s : Scene) : List Rectangle := (s.legend.map LegendBox.rectangles).getD []

/-- Every line of a drawing in drawing order: those of the data first. -/
def lines (s : Scene) : List Stroke := s.strokes ++ s.swatches

/-- Every rectangle of a drawing in drawing order. -/
def rectangles (s : Scene) : List Rectangle := s.background :: s.legendRectangles

/-- Every text of a drawing but the numbers along the axes. -/
def texts (s : Scene) : List String :=
  (s.title.toList ++ s.axisLabels.map AxisLabel.caption ++ s.legendTexts).map Caption.text

end Scene

end LineChart
