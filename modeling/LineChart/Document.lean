import LineChart.Json.Basic

/-!
# Documents

A `Document` is a tree of values as figure descriptions are read from it, whatever language it was
written in. It knows two things that a JSON value does not: points in time, and parts that are well
formed but have no meaning, such as half of a surrogate pair. Such a part is an error only for a
reader that asks for it.

* `Document.json?` : the document as a JSON value.
-/

namespace LineChart

inductive Document where
  | null
  | flag (value : Bool)
  | integer (value : Int)
  | decimal (value : Double)
  | text (value : String)
  /-- A date, a time or both, in canonical text. -/
  | moment (text : String)
  | list (items : List Document)
  | record (fields : List (String × Document))
  | unreadable

namespace Document

mutual

/-- The document as a JSON value, if all of it has a meaning. Numbers that are not finite become
null, and a moment becomes a record of one field. -/
def json? : Document → Option Json
  | .null => some .null
  | .flag b => some (.flag b)
  | .integer n => some (.ofInt n)
  | .decimal x => some (if x.isFinite then .decimal x else .null)
  | .text s => some (.text s)
  | .moment s => some (.record [("$__toml_private_datetime", .text s)])
  | .list items => (jsonItems? items).map .list
  | .record fields => (jsonFields? fields).map .ofFields
  | .unreadable => none

def jsonItems? : List Document → Option (List Json)
  | [] => some []
  | item :: rest =>
    match json? item, jsonItems? rest with
    | some j, some js => some (j :: js)
    | _, _ => none

def jsonFields? : List (String × Document) → Option (List (String × Json))
  | [] => some []
  | (name, value) :: rest =>
    match json? value, jsonFields? rest with
    | some j, some js => some ((name, j) :: js)
    | _, _ => none

end

end Document

end LineChart
