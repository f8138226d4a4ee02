import LineChart.Number.Decimal

/-!
# Cells of a table

A cell holds an integer, a number, a text, a truth value, or nothing.

* `Cell.order` : the order of group keys. Kinds come in a fixed order, numbers by `Binary.rank`, so
  two cells have the same place only if they are the same cell (`Cell.order_eq_iff`).
* `Cell.agrees` : the comparison of row filters. Integers, numbers and truth values compare by their
  numeric value, everything else by content.
* `Cell.number?` : the value that a cell is plotted at.
-/

namespace LineChart

inductive Cell where
  | integer (value : Int64)
  | number (value : Double)
  | text (value : String)
  | flag (value : Bool)
  | missing
deriving DecidableEq

namespace Cell

/-- The place of a cell's kind among the kinds. -/
def kindPlace : Cell → Nat
  | .missing => 0
  | .flag _ => 1
  | .integer _ => 2
  | .number _ => 3
  | .text _ => 4

/-- The order of cells: by kind first, then by content. -/
def order : Cell → Cell → Ordering
  | .flag a, .flag b => compare a.toNat b.toNat
  | .integer a, .integer b => compare a.toInt b.toInt
  | .number a, .number b => compare a.rank b.rank
  | .text a, .text b => compare a b
  | a, b => compare a.kindPlace b.kindPlace

/-- The text of a cell in labels and messages. -/
def display : Cell → String
  | .integer n => toString n.toInt
  | .number x => x.display
  | .text s => s
  | .flag b => if b then "true" else "false"
  | .missing => "<null>"

/-- The number a cell is plotted at. A missing cell has no place in the drawing, which NaN stands
for; a text has no number at all. -/
def number? : Cell → Option Double
  | .number x => some x
  | .integer n => some (.ofInt n.toInt)
  | .flag b => some (.ofInt (if b then 1 else 0))
  | .missing => some .nan
  | .text _ => none

/-- The cells whose comparison is by content alone. -/
def isLiteral : Cell → Bool
  | .text _ | .missing => true
  | _ => false

/-- Equality of content. Numbers are equal if their values are: NaN equals nothing, and the two
zeros are equal. -/
def same : Cell → Cell → Bool
  | .integer a, .integer b => decide (a = b)
  | .number a, .number b => a.equal b
  | .text a, .text b => decide (a = b)
  | .flag a, .flag b => a == b
  | .missing, .missing => true
  | _, _ => false

/-- The comparison of row filters. -/
def agrees (a b : Cell) : Bool :=
  if a.isLiteral || b.isLiteral then a.same b
  else
    match a.number?, b.number? with
    | some x, some y => x.equal y
    | _, _ => false

/-- Cells in the same place are the same cell. -/
theorem order_eq_iff {a b : Cell} : a.order b = .eq ↔ a = b := by
  constructor
  · intro h
    cases a <;> cases b <;> simp [order, kindPlace] at h ⊢
    · exact Int64.toInt_inj.mp h
    · exact Binary.rank_injective h
    · exact h
    · rename_i x y
      cases x <;> cases y <;> simp_all
  · rintro rfl
    cases a <;> simp [order]

end Cell

end LineChart
