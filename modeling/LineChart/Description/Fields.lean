import LineChart.Description.Basic
import LineChart.Json.Reader
import LineChart.Json.Writer
import LineChart.Toml.Reader

/-!
# Descriptions as documents

A description is a record of named fields, or a list of their values in a fixed order. Fields of
other names are passed over, and most fields may be left out.

* `FigureDescription.ofDocument?` : the description that a document holds.
* `FigureDescription.ofJson?`, `FigureDescription.ofToml?` : the description in a text.
* `FigureDescription.toJson` : a description as a JSON record, without the options it does not use.
-/

namespace LineChart

/-- What the languages of descriptions disagree on. -/
structure Dialect where
  /-- Items of a list beyond the ones asked for are passed over; else they are an error. -/
  allowsSurplus : Bool
  /-- The content of a style that is given as a record of one field. -/
  isNoContent : Document → Bool

namespace Dialect

/-- A list holds what is asked for and no more; a style's content is null. -/
def json : Dialect where
  allowsSurplus := false
  isNoContent
    | .null => true
    | _ => false

/-- A list may hold more; a style's content is an empty list or record. -/
def toml : Dialect where
  allowsSurplus := true
  isNoContent
    | .list [] | .record [] => true
    | _ => false

end Dialect

/-! ### Fields -/

/-- The only value of a field, `none` if there is no such field. A field given twice is an error. -/
def fieldOf? (fields : List (String × Document)) (name : String) : Option (Option Document) :=
  match fields.filter fun field => field.1 = name with
  | [] => some none
  | [field] => some (some field.2)
  | _ => none

/-- The values of the fields of some names. -/
def fieldsOf? (fields : List (String × Document)) : List String → Option (List (Option Document))
  | [] => some []
  | name :: names =>
    match fieldOf? fields name, fieldsOf? fields names with
    | some value, some values => some (value :: values)
    | _, _ => none

/-- The values that a document gives for the fields of some names: by name in a record, by position
in a list. -/
def Document.fields? (dialect : Dialect) (names : List String) :
    Document → Option (List (Option Document))
  | .record fields => fieldsOf? fields names
  | .list items =>
    if ¬ dialect.allowsSurplus ∧ names.length < items.length then none
    else some ((List.range names.length).map fun i => items[i]?)
  | _ => none

namespace Document

def text? : Document → Option String
  | .text s => some s
  | _ => none

def flag? : Document → Option Bool
  | .flag b => some b
  | _ => none

/-- A number, given as an integer or a decimal. -/
def number? : Document → Option Double
  | .integer n => some (.ofInt n)
  | .decimal x => some x
  | _ => none

/-- A natural number of thirty-two bits. -/
def word? : Document → Option UInt32
  | .integer n => if 0 ≤ n ∧ n < UInt32.size then some (.ofNat n.toNat) else none
  | _ => none

/-- Two numbers. -/
def interval? (dialect : Dialect) : Document → Option Interval
  | .list (low :: high :: rest) =>
    if ¬ dialect.allowsSurplus ∧ rest ≠ [] then none
    else
      match low.number?, high.number? with
      | some low, some high => some ⟨low, high⟩
      | _, _ => none
  | _ => none

/-- The style of a name. -/
def styleOfName? (name : String) : Option LineStyle :=
  if name = LineStyle.dashed.name then some .dashed
  else if name = LineStyle.solid.name then some .solid else none

/-- A style by its name, which may be the one field of a record. -/
def style? (dialect : Dialect) : Document → Option LineStyle
  | .text name => styleOfName? name
  | .record [(name, content)] =>
    if dialect.isNoContent content then styleOfName? name else none
  | _ => none

/-- The value of a field that has to be there. -/
def required {α : Type} (read : Document → Option α) : Option Document → Option α
  | some d => read d
  | none => none

/-- The value of a field that has a value by default. -/
def withDefault {α : Type} (default : α) (read : Document → Option α) : Option Document → Option α
  | some d => read d
  | none => some default

/-- The value of a field that may be absent or null. -/
def optional {α : Type} (read : Document → Option α) : Option Document → Option (Option α)
  | none | some .null => some none
  | some d => (read d).map some

end Document

open Document in
/-- A row filter in a document. -/
def RowFilter.ofDocument? (dialect : Dialect) (d : Document) : Option RowFilter :=
  match d.fields? dialect ["column", "equals"] with
  | some [column, wanted] => do
    let column ← required text? column
    let wanted ← required json? wanted
    pure { column, wanted }
  | _ => none

open Document in
/-- A series in a document. -/
def SeriesDescription.ofDocument? (dialect : Dialect) (d : Document) : Option SeriesDescription :=
  match d.fields? dialect ["y", "x", "label", "style", "color", "where", "group_by"] with
  | some [y, x, label, style, colour, filter, groupBy] => do
    let y ← required text? y
    let x ← withDefault Abscissa.index (fun d => d.text?.map Abscissa.ofName) x
    let label ← required text? label
    let style ← withDefault LineStyle.dashed (style? dialect) style
    let colour ← optional text? colour
    let filter ← optional (RowFilter.ofDocument? dialect) filter
    let groupBy ← optional text? groupBy
    pure { y, x, label, style, colour, filter, groupBy }
  | _ => none

/-- The values read from all documents of a list. -/
def readAll {α : Type} (read : Document → Option α) : List Document → Option (List α)
  | [] => some []
  | d :: rest =>
    match read d, readAll read rest with
    | some a, some as => some (a :: as)
    | _, _ => none

/-- A list of series in a document. -/
def seriesOfDocument? (dialect : Dialect) : Document → Option (List SeriesDescription)
  | .list items => readAll (SeriesDescription.ofDocument? dialect) items
  | _ => none

namespace FigureDescription

/-- The size of a figure that gives none. -/
def defaultSize : Interval := ⟨.ofNat 11, .ofDecimal false ⟨85, -1⟩⟩

open Document in
/-- The description that a document holds. -/
def ofDocument? (dialect : Dialect) (d : Document) : Option FigureDescription :=
  match d.fields? dialect ["input", "output", "title", "x_label", "y_label", "size_inches", "dpi",
      "legend", "grid", "x_range", "y_range", "series"] with
  | some [input, output, title, xLabel, yLabel, size, dpi, legend, grid, xRange, yRange,
      series] => do
    let input ← required text? input
    let output ← required text? output
    let title ← optional text? title
    let xLabel ← withDefault "" text? xLabel
    let yLabel ← withDefault "" text? yLabel
    let size ← withDefault defaultSize (interval? dialect) size
    let dpi ← withDefault 1200 word? dpi
    let legend ← withDefault true flag? legend
    let grid ← withDefault true flag? grid
    let xRange ← optional (interval? dialect) xRange
    let yRange ← optional (interval? dialect) yRange
    let series ← required (seriesOfDocument? dialect) series
    pure { input := ⟨input⟩, output := ⟨output⟩, title, xLabel, yLabel, width := size.low,
           height := size.high, dpi, legend, grid, xRange, yRange, series }
  | _ => none

/-- The description in a JSON text. -/
def ofJson? (text : String) : Option FigureDescription :=
  (Json.readDocument? text).bind (ofDocument? .json)

/-- The description in a TOML text. -/
def ofToml? (text : String) : Option FigureDescription :=
  (Toml.readDocument? text).bind (ofDocument? .toml)

end FigureDescription

/-! ### Writing -/

/-- A number, or null where it is not finite. -/
def jsonNumber (x : Double) : Json := if x.isFinite then .decimal x else .null

def Interval.toJson (range : Interval) : Json := .list [jsonNumber range.low, jsonNumber range.high]

def RowFilter.toJson (f : RowFilter) : Json :=
  .record [("column", .text f.column), ("equals", f.wanted)]

/-- A field that is left out if it has no value. -/
def optionalField {α : Type} (name : String) (write : α → Json) : Option α → List (String × Json)
  | none => []
  | some a => [(name, write a)]

def SeriesDescription.toJson (s : SeriesDescription) : Json :=
  .record (
    [("y", .text s.y), ("x", .text s.x.name), ("label", .text s.label),
     ("style", .text s.style.name)] ++
    optionalField "color" .text s.colour ++
    optionalField "where" RowFilter.toJson s.filter ++
    optionalField "group_by" .text s.groupBy)

/-- A description as a record, its fields in their fixed order. -/
def FigureDescription.toJson (d : FigureDescription) : Json :=
  .record (
    [("input", .text d.input.text), ("output", .text d.output.text)] ++
    optionalField "title" .text d.title ++
    [("x_label", .text d.xLabel), ("y_label", .text d.yLabel),
     ("size_inches", Interval.toJson ⟨d.width, d.height⟩), ("dpi", .ofInt d.dpi.toNat),
     ("legend", .flag d.legend), ("grid", .flag d.grid)] ++
    optionalField "x_range" Interval.toJson d.xRange ++
    optionalField "y_range" Interval.toJson d.yRange ++
    [("series", .list (d.series.map SeriesDescription.toJson))])

end LineChart
