import LineChart.Description.Basic
import LineChart.Number.Arithmetic

/-!
# Figures

A figure holds what is drawn: series of points, cut into runs that are drawn as separate lines.

* `Figure.bounds` : the ranges of the two axes.
* `Figure.pointCount` : the number of points of all series.
-/

namespace LineChart

structure Point where
  x : Double
  y : Double
deriving DecidableEq

structure Series where
  label : String
  /-- Points of consecutive rows, in row order. -/
  runs : List (List Point)
  style : LineStyle
  colour : Colour
deriving DecidableEq

namespace Series

/-- Every point of every run, in row order. -/
def points (s : Series) : List Point := s.runs.flatten

def pointCount (s : Series) : Nat := s.points.length

end Series

structure Figure where
  title : Option String
  xLabel : String
  yLabel : String
  /-- Inches. -/
  width : Double
  height : Double
  dpi : UInt32
  legend : Bool
  grid : Bool
  xRange : Option Interval
  yRange : Option Interval
  output : Path
  series : List Series
deriving DecidableEq

namespace Interval

/-- The share of the span of the data that is added on each side of an axis. -/
def margin : Double := .ofDecimal false ⟨5, -2⟩

def half : Double := .ofDecimal false ⟨5, -1⟩

/-- The least and the greatest of some numbers; without numbers, the least is infinite and the
greatest negatively so. -/
def spanOf (values : List Double) : Double × Double :=
  values.foldl (fun (low, high) v => (low.smaller v, high.larger v))
    (.infinite false, .infinite true)

/-- The range of an axis for some coordinates: the span of the data with a margin on each side. Data
that are all but equal get half a unit on each side, and data without a finite span get the range
from zero to one. -/
def padded (values : List Double) : Interval :=
  let (low, high) := spanOf values
  if ¬ (low.isFinite ∧ high.isFinite) then ⟨.zero, .ofNat 1⟩
  else if (high - low).atMost (.epsilon * high.abs.larger (.ofNat 1)) then ⟨low - half, high + half⟩
  else
    let pad := (high - low) * margin
    ⟨low - pad, high + pad⟩

end Interval

namespace Figure

def points (f : Figure) : List Point := f.series.flatMap Series.points

def pointCount (f : Figure) : Nat := f.points.length

/-- The ranges of the x axis and of the y axis: explicit ones, or ranges around all points. -/
def bounds (f : Figure) : Interval × Interval :=
  (f.xRange.getD (Interval.padded (f.points.map Point.x)),
   f.yRange.getD (Interval.padded (f.points.map Point.y)))

end Figure

end LineChart
