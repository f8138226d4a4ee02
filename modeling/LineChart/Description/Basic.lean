import LineChart.Colour
import LineChart.Files.Path
import LineChart.Json.Basic

/-!
# Figure descriptions

A description says which table to read, which lines to draw from it, and where to save the figure.

* `SeriesDescription`, `FigureDescription` : descriptions, with the values of what is left out.
* `FigureDescription.check` : what is wrong with a description, before any data are read.
* `FigureDescription.same` : equality of descriptions, numbers by value.
-/

namespace LineChart

/-- Where a line takes its x coordinates from. -/
inductive Abscissa where
  /-- The row numbers. -/
  | index
  | column (name : String)
deriving DecidableEq

/-- The name that stands for the row numbers. -/
def Abscissa.ofName (name : String) : Abscissa := if name = "index" then .index else .column name

def Abscissa.name : Abscissa → String
  | .index => "index"
  | .column name => name

inductive LineStyle where
  | dashed
  | solid
deriving DecidableEq

def LineStyle.name : LineStyle → String
  | .dashed => "dashed"
  | .solid => "solid"

/-- Keeps the rows whose cell in a column agrees with a value. -/
structure RowFilter where
  column : String
  wanted : Json

structure SeriesDescription where
  y : String
  x : Abscissa := .index
  /-- The entry in the legend. In a grouped series the group's key takes the place of `{key}`. -/
  label : String
  style : LineStyle := .dashed
  colour : Option String := none
  filter : Option RowFilter := none
  groupBy : Option String := none

/-- The two ends of an axis. -/
structure Interval where
  low : Double
  high : Double
deriving DecidableEq

structure FigureDescription where
  input : Path
  output : Path
  title : Option String := none
  xLabel : String := ""
  yLabel : String := ""
  /-- Inches. -/
  width : Double := .ofNat 11
  height : Double := .ofDecimal false ⟨85, -1⟩
  dpi : UInt32 := 1200
  legend : Bool := true
  grid : Bool := true
  xRange : Option Interval := none
  yRange : Option Interval := none
  series : List SeriesDescription

/-! ### Checking -/

inductive Axis where
  | x
  | y
deriving DecidableEq

def Axis.name : Axis → String
  | .x => "x"
  | .y => "y"

/-- What can be wrong with a description. -/
inductive DescriptionError where
  | noSeries
  | badSize (width height : Double)
  | badDpi
  | badRange (axis : Axis) (range : Interval)
  | badColour (label colour : String)
  /-- The colour's text is cut inside a character. -/
  | cutColour (label colour : String)
  | groupAndFilter (label : String)
deriving DecidableEq

namespace DescriptionError

def message : DescriptionError → String
  | noSeries => "figure has no series"
  | badSize width height =>
    let (w, h) := (width.display, height.display)
    s!"figure size must be positive, got {w} x {h} inches"
  | badDpi => "dpi must be positive"
  | badRange axis range =>
    let (name, low, high) := (axis.name, range.low.display, range.high.display)
    s!"{name} range must satisfy min < max, got [{low}, {high}]"
  | badColour label colour => s!"series '{label}': cannot parse colour '{colour}'"
  | cutColour label colour => s!"series '{label}': colour '{colour}' is cut inside a character"
  | groupAndFilter label => s!"series '{label}': group_by and where cannot be combined"

end DescriptionError

/-- An explicit range has its ends in ascending order. -/
def Interval.check (axis : Axis) : Option Interval → Except DescriptionError Unit
  | none => .ok ()
  | some range => if range.low.less range.high then .ok () else .error (.badRange axis range)

/-- A colour is a colour, and rows are grouped or filtered but not both. -/
def SeriesDescription.check (s : SeriesDescription) : Except DescriptionError Unit :=
  let combined : Except DescriptionError Unit :=
    if s.filter.isSome && s.groupBy.isSome then .error (.groupAndFilter s.label) else .ok ()
  match s.colour with
  | none => combined
  | some text =>
    match Colour.read text with
    | .colour _ => combined
    | .notColour => .error (.badColour s.label text)
    | .cutCharacter => .error (.cutColour s.label text)

/-- The first error among some series. -/
def checkSeries : List SeriesDescription → Except DescriptionError Unit
  | [] => .ok ()
  | s :: rest =>
    match s.check with
    | .error e => .error e
    | .ok () => checkSeries rest

/-- The first error of a description: there are series, the size and the resolution are positive,
the ranges ascend, and every series passes its check. -/
def FigureDescription.check (d : FigureDescription) : Except DescriptionError Unit :=
  if d.series.isEmpty then .error .noSeries
  else if ¬ (Binary.zero.less d.width ∧ Binary.zero.less d.height) then
    .error (.badSize d.width d.height)
  else if d.dpi = 0 then .error .badDpi
  else
    match Interval.check .x d.xRange with
    | .error e => .error e
    | .ok () =>
      match Interval.check .y d.yRange with
      | .error e => .error e
      | .ok () => checkSeries d.series

/-! ### Equality -/

def Interval.same (a b : Interval) : Bool := a.low.equal b.low && a.high.equal b.high

def RowFilter.same (a b : RowFilter) : Bool :=
  decide (a.column = b.column) && a.wanted.same b.wanted

/-- Both are absent, or both are there and the same. -/
def sameOption {α : Type} (same : α → α → Bool) : Option α → Option α → Bool
  | none, none => true
  | some a, some b => same a b
  | _, _ => false

def SeriesDescription.same (a b : SeriesDescription) : Bool :=
  decide (a.y = b.y) && decide (a.x = b.x) && decide (a.label = b.label) &&
    decide (a.style = b.style) && decide (a.colour = b.colour) &&
    sameOption RowFilter.same a.filter b.filter && decide (a.groupBy = b.groupBy)

/-- Equality of descriptions: numbers are compared by value. -/
def FigureDescription.same (a b : FigureDescription) : Bool :=
  decide (a.input = b.input) && decide (a.output = b.output) && decide (a.title = b.title) &&
    decide (a.xLabel = b.xLabel) && decide (a.yLabel = b.yLabel) &&
    a.width.equal b.width && a.height.equal b.height && decide (a.dpi = b.dpi) &&
    a.legend == b.legend && a.grid == b.grid &&
    sameOption Interval.same a.xRange b.xRange && sameOption Interval.same a.yRange b.yRange &&
    a.series.isEqv b.series SeriesDescription.same

end LineChart
