import LineChart.Json.Writer
import LineChart.Table.Basic

/-!
# Tables of JSON records

A list of JSON records is read as a table with a row for each record and a column for each name that
occurs in one. A record without a name has a missing cell there.

* `Cell.ofJson` : the cell of a JSON value.
* `Records.names` : the columns in the order of first appearance.
* `Records.columns` : the columns of a JSON value.
-/

namespace LineChart

/-- The cell of a JSON value. An integer that does not fit a cell becomes a number, and a list or a
record becomes its text. -/
def Cell.ofJson : Json → Cell
  | .null => .missing
  | .flag b => .flag b
  | .integer n =>
    if n.value ≤ Int64.maxValue.toInt then .integer (.ofInt n.value) else .number (.ofInt n.value)
  | .decimal x => .number x
  | .text s => .text s
  | .list items => .text (Json.list items).render
  | .record fields => .text (Json.record fields).render

namespace Records

/-- A record: its fields in ascending order of their names. -/
abbrev Record := List (String × Json)

/-- What can be wrong with the records of a table. -/
inductive RecordsError where
  | notList
  | notRecord (row : Nat)
deriving DecidableEq

/-- The records among some values, the first of which is row `row`. -/
def ofItems : Nat → List Json → Except RecordsError (List Record)
  | _, [] => .ok []
  | row, .record fields :: rest =>
    match ofItems (row + 1) rest with
    | .error e => .error e
    | .ok records => .ok (fields :: records)
  | row, _ :: _ => .error (.notRecord row)

/-- Appends a name to a list that does not hold it yet. -/
def addName (names : List String) (name : String) : List String :=
  if name ∈ names then names else names ++ [name]

/-- All names, in the order of the first record that has them and ascending within a record. -/
def names (records : List Record) : List String :=
  records.foldl (fun names record => (record.map Prod.fst).foldl addName names) []

/-- The cell of a record under a name. -/
def cellOf (name : String) (record : Record) : Cell :=
  match record.find? fun field => field.1 = name with
  | some field => Cell.ofJson field.2
  | none => .missing

/-- The columns of a JSON value. -/
def columns : Json → Except RecordsError (List Column)
  | .list items =>
    match ofItems 0 items with
    | .error e => .error e
    | .ok records => .ok ((names records).map fun name => ⟨name, records.map (cellOf name)⟩)
  | _ => .error .notList

end Records

end LineChart
