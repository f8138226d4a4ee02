import LineChart.Number.Decimal

/-!
# JSON values

* `Json` : values, with the fields of a record in ascending order of their names.
* `Json.ofFields` : a record from fields in any order, the last of equal names winning.
* `Json.same` : equality of values, numbers by their numeric value.
* `Json.depth` : how deeply lists and records are nested.
-/

namespace LineChart

/-- The integers that JSON texts carry exactly: those of sixty-four bits, with or without a sign. -/
structure JsonInteger where
  value : Int
  fits : Int64.minValue.toInt ≤ value ∧ value < UInt64.size
deriving DecidableEq

inductive Json where
  | null
  | flag (value : Bool)
  | integer (value : JsonInteger)
  | decimal (value : Double)
  | text (value : String)
  | list (items : List Json)
  | record (fields : List (String × Json))

namespace Json

/-- An integer, or the number nearest to it where it does not fit. -/
def ofInt (n : Int) : Json :=
  if h : Int64.minValue.toInt ≤ n ∧ n < UInt64.size then .integer ⟨n, h⟩ else .decimal (.ofInt n)

/-- Sets a field in an ascending list of fields. -/
def setField {α : Type} (name : String) (value : α) : List (String × α) → List (String × α)
  | [] => [(name, value)]
  | (n, v) :: rest =>
    match compare name n with
    | .lt => (name, value) :: (n, v) :: rest
    | .eq => (name, value) :: rest
    | .gt => (n, v) :: setField name value rest

/-- The fields in ascending order of their names, the last of equal names winning. -/
def sortFields {α : Type} (fields : List (String × α)) : List (String × α) :=
  fields.foldl (fun sorted (name, value) => setField name value sorted) []

/-- A record of some fields, in any order. -/
def ofFields (fields : List (String × Json)) : Json := .record (sortFields fields)

/-! ### Equality -/

mutual

/-- Equality of values. The two zeros are equal and an integer differs from every decimal. -/
def same : Json → Json → Bool
  | .null, .null => true
  | .flag a, .flag b => a == b
  | .integer a, .integer b => decide (a = b)
  | .decimal a, .decimal b => a.equal b
  | .text a, .text b => decide (a = b)
  | .list as, .list bs => sameItems as bs
  | .record as, .record bs => sameFields as bs
  | _, _ => false

def sameItems : List Json → List Json → Bool
  | [], [] => true
  | a :: as, b :: bs => same a b && sameItems as bs
  | _, _ => false

def sameFields : List (String × Json) → List (String × Json) → Bool
  | [], [] => true
  | (m, a) :: as, (n, b) :: bs => decide (m = n) && same a b && sameFields as bs
  | _, _ => false

end

/-! ### Nesting -/

mutual

/-- The number of lists and records around the innermost value. -/
def depth : Json → Nat
  | .list items => depthItems items + 1
  | .record fields => depthFields fields + 1
  | _ => 0

def depthItems : List Json → Nat
  | [] => 0
  | item :: rest => Nat.max (depth item) (depthItems rest)

def depthFields : List (String × Json) → Nat
  | [] => 0
  | (_, value) :: rest => Nat.max (depth value) (depthFields rest)

end

end Json

end LineChart
