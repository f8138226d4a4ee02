import LineChart.Drawing.Canvas

/-!
# The legend of a drawing

* `Legend` : a box in the upper right corner of the area of the data, with a line for each entry
  that was noted on the canvas.
* `Legend.box` : the box, whose width is that of the widest label.
* `Legend.draw` : the legend as it is drawn.
* `Figure.scene` : the drawing of a figure with its legend.
-/

namespace LineChart

/-- The legend in the upper right corner of the area of the data: a box with a line for each
entry. -/
structure Legend where
  plot : Area
  entries : List LegendEntry

namespace Legend

/-- The height of a letter of the legend. -/
def letterHeight : Double := .ofNat 12 / .ofDecimal false ⟨124, -2⟩ / .ofDecimal false ⟨124, -2⟩

/-- The estimated width of a text: seven tenths of a letter's height for each byte. -/
def textWidth (text : String) : Nat :=
  (letterHeight * .ofDecimal false ⟨7, -1⟩ * .ofNat text.utf8ByteSize).roundAway.toNat

/-- The distance between two lines. -/
def lineHeight : Nat := 15

/-- The width of the widest label. -/
def labelWidth (l : Legend) : Nat := (l.entries.map fun e => textWidth e.label).foldl max 0

/-- The upper left corner of the box, five units inside the area, and the box. -/
def left (l : Legend) : Int := l.plot.right - (l.labelWidth + 50) - 5
def top (l : Legend) : Int := l.plot.top + 5

/-- The box, as far as it lies in the area. -/
def box (l : Legend) : Area :=
  let corner := l.plot.clamp ⟨l.left, l.top⟩
  let opposite := l.plot.clamp
    ⟨l.left + l.labelWidth + 50, l.top + lineHeight * (l.entries.length - 1 : Nat) + 30⟩
  ⟨corner.x, corner.y, opposite.x, opposite.y⟩

def white : Colour := ⟨255, 255, 255⟩
def black : Colour := ⟨0, 0, 0⟩

/-- The box lets the lines below it shine through. -/
def rectangles (l : Legend) : List Rectangle :=
  [⟨l.box, .fill white ⟨8, -1⟩⟩, ⟨l.box, .outline black⟩]

/-- The text of entry `i`. -/
def caption (l : Legend) (i : Nat) (e : LegendEntry) : Caption :=
  let first := l.plot.clamp ⟨l.left + 40, l.top + 10⟩
  ⟨⟨first.x, first.y + lineHeight * i⟩, e.label⟩

/-- The short line beside entry `i`, in the colour of its series. -/
def swatch (l : Legend) (i : Nat) (e : LegendEntry) : Stroke :=
  let y := l.top + 15 + lineHeight * i
  ⟨e.colour, [l.plot.clamp ⟨l.left + 10, y⟩, l.plot.clamp ⟨l.left + 34, y⟩]⟩

/-- The legend as it is drawn. -/
def draw (l : Legend) : LegendBox :=
  ⟨l.rectangles, l.entries.mapIdx l.caption, l.entries.mapIdx l.swatch⟩

end Legend

namespace Figure

/-- The legend, unless it is switched off or there is nothing to list. -/
def legend? (f : Figure) : Option Legend :=
  if f.legend ∧ f.series ≠ [] then some ⟨(Sheet.ofFigure f).plot, f.canvas.entries⟩ else none

/-- The drawing of a figure: the lines of the data first, and the legend over them. -/
def scene (f : Figure) : Scene :=
  let sheet := Sheet.ofFigure f
  { width := sheet.width
    height := sheet.height
    background := ⟨sheet.page, .fill Legend.white ⟨1, 0⟩⟩
    title := f.title.map (Caption.mk sheet.titlePlace)
    axisLabels := [⟨⟨sheet.yLabelPlace, f.yLabel⟩, true⟩, ⟨⟨sheet.xLabelPlace, f.xLabel⟩, false⟩]
    grid := f.grid
    strokes := f.canvas.strokes
    legend := f.legend?.map Legend.draw }

end Figure

end LineChart
