import LineChart.Figure.Basic

/-!
# The plane of a drawing

A drawing is laid out in whole units, seventy-two to the inch, from its upper left corner.

* `Area.clamp` : the place in an area that is nearest to a given one.
* `Interval.place` : where a number falls on an axis.
-/

namespace LineChart

/-- A place in a drawing. -/
structure Pixel where
  x : Int
  y : Int
deriving DecidableEq

/-- The places between two corners, edges included. -/
structure Area where
  left : Int
  top : Int
  right : Int
  bottom : Int
deriving DecidableEq

namespace Area

def width (a : Area) : Int := a.right - a.left

def height (a : Area) : Int := a.bottom - a.top

/-- A place is moved into the area, each coordinate by itself. -/
def clamp (a : Area) (p : Pixel) : Pixel :=
  ⟨max a.left (min a.right p.x), max a.top (min a.bottom p.y)⟩

end Area

namespace Interval

/-- The share of a unit by which a number may miss a whole unit and still count as on it. -/
def tolerance : Double := .ofDecimal false ⟨1, -3⟩

/-- The bounds of a count of units. -/
def least : Int := Int32.minValue.toInt
def greatest : Int := Int32.maxValue.toInt

/-- The place of a number on an axis that starts at place `first` with the low end of its range and
ends at place `last` with the high end. Fractions of a unit are dropped, seen from the start; a
number that is infinitely far out goes to the end on its side. -/
def place (range : Interval) (first last : Int) (v : Double) : Int :=
  let length := last - first
  let share := (v - range.low) / (range.high - range.low)
  let offset : Double := .ofInt length * share
  if range.low.equal range.high then length.tdiv 2
  else if length = 0 then last
  else if share.isInfinite then if share.negative then first else last
  else if 0 < length then first + (offset + tolerance).clampTo least greatest Binary.floor
  else first + (offset - tolerance).clampTo least greatest Binary.ceil

end Interval

end LineChart
