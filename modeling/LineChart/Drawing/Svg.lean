import LineChart.Drawing.Scene

/-!
# Drawings as SVG

A drawing is written as one SVG element with a child for each rectangle, line and text, in the order
in which they cover each other. Texts stand on one line and are escaped.

* `Svg.escape` : a text as the content of an element or an attribute.
* `Scene.svg` : the text of a drawing.
-/

namespace LineChart

namespace Svg

/-- A character of a text; the four that have a meaning in markup are written by name. -/
def escapeChar (c : Char) : List Char :=
  if c = '&' then ['&', 'a', 'm', 'p', ';']
  else if c = '<' then ['&', 'l', 't', ';']
  else if c = '>' then ['&', 'g', 't', ';']
  else if c = '"' then ['&', 'q', 'u', 'o', 't', ';']
  else [c]

def escape (text : String) : String := .ofList (text.toList.flatMap escapeChar)

/-- An attribute: its name and its value. -/
abbrev Attribute := String × String

def writeAttribute (a : Attribute) : String :=
  let (name, value) := (a.1, escape a.2)
  s!" {name}=\"{value}\""

/-- An element with its attributes and its content, which is written as it is. -/
def element (name : String) (attributes : List Attribute) (content : String) : String :=
  let start := "<" ++ name ++ String.join (attributes.map writeAttribute)
  if content = "" then start ++ "/>" else start ++ ">" ++ content ++ "</" ++ name ++ ">"

/-- The vocabulary that the elements belong to. -/
def vocabulary : String := "://".intercalate ["http", "www.w3.org/2000/svg"]

def number (n : Int) : String := toString n

/-- The width of the lines of data. -/
def lineWidth : Nat := 2

def rectangle (r : Rectangle) : String :=
  let paint : List Attribute := match r.paint with
    | .fill c opacity =>
      [("opacity", .ofList opacity.positional), ("fill", c.code), ("stroke", "none")]
    | .outline c => [("opacity", "1"), ("fill", "none"), ("stroke", c.code)]
  element "rect" ([("x", number r.area.left), ("y", number r.area.top),
    ("width", number r.area.width), ("height", number r.area.height)] ++ paint) ""

def place (p : Pixel) : String := number p.x ++ "," ++ number p.y

def stroke (s : Stroke) : String :=
  element "polyline" [("fill", "none"), ("opacity", "1"), ("stroke", s.colour.code),
    ("stroke-width", toString lineWidth), ("points", " ".intercalate (s.points.map place))] ""

/-- The shifts of a text whose place is at its upper edge and of one whose place is at its lower
edge. -/
def below : String := "0.76em"
def above : String := "-0.5ex"

/-- A text with its shift, its size and more attributes. -/
def caption (shift : String) (size : Nat) (more : List Attribute) (c : Caption) : String :=
  element "text" ([("x", number c.place.x), ("y", number c.place.y), ("dy", shift),
    ("font-family", "sans-serif"), ("font-size", toString size)] ++ more) (escape c.text)

/-- The sizes of the title, of the labels of the axes and of the legend. -/
def titleSize : Nat := 16
def labelSize : Nat := 14
def legendSize : Nat := 12

def centred : Attribute := ("text-anchor", "middle")

/-- A label of an axis; the one that is turned reads upwards. -/
def axisLabel (l : AxisLabel) : String :=
  let (x, y) := (number l.caption.place.x, number l.caption.place.y)
  let turn : List Attribute := if l.turned then [("transform", s!"rotate(270, {x}, {y})")] else []
  let shift := if l.turned then below else above
  caption shift labelSize ([centred, ("font-weight", "bold")] ++ turn) l.caption

end Svg

/-- The elements of a legend: its box under its texts and lines. -/
def LegendBox.svgElements (l : LegendBox) : List String :=
  l.rectangles.map Svg.rectangle ++ l.entries.map (Svg.caption Svg.below Svg.legendSize []) ++
    l.swatches.map Svg.stroke

/-- The elements of a drawing: the background, the labels, the lines, and the legend. -/
def Scene.svgElements (s : Scene) : List String :=
  Svg.rectangle s.background ::
    (s.title.map (Svg.caption Svg.below Svg.titleSize [Svg.centred])).toList ++
    s.axisLabels.map Svg.axisLabel ++ s.strokes.map Svg.stroke ++
    (s.legend.map LegendBox.svgElements).getD []

/-- The text of a drawing. -/
def Scene.svg (s : Scene) : String :=
  let (width, height) := (toString s.width, toString s.height)
  let content := String.join (s.svgElements.map fun line => "\n" ++ line)
  Svg.element "svg" [("width", width), ("height", height), ("viewBox", s!"0 0 {width} {height}"),
    ("xmlns", Svg.vocabulary)] (content ++ "\n") ++ "\n"

end LineChart
