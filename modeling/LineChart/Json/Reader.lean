import LineChart.Document
import LineChart.Number.Arithmetic
import LineChart.Json.Form

/-!
# The meaning of a JSON text

Numerals and quoted texts get their values here, and nesting its limit.

* `Numeral.value?` : a numeral as an integer where it is one of sixty-four bits, else as a decimal
  computed in one or two floating-point operations.
* `Piece.decode?` : a quoted text, in which sixteen-bit units pair up to characters.
* `Form.document` : a form as a document; what has no meaning is marked there as unreadable.
* `Json.read?` : a text as a JSON value.
-/

namespace LineChart.Json

namespace Numeral

/-- Appends digits to a number as long as it keeps within sixty-four bits, and gives back how many
were left over. -/
def absorb : Nat → List Char → Nat × Nat
  | n, [] => (n, 0)
  | n, c :: rest =>
    let next := 10 * n + digitValue c
    if next < UInt64.size then absorb next rest else (n, rest.length + 1)

/-- The power of ten nearest to the exact one. -/
def powerOfTen (n : Nat) : Double := .ofDecimal false ⟨1, n⟩

/-- A number times a power of ten, in one operation where the power is a number itself. Below that,
parts of `10 ^ (-308)` are taken off first, two of which bring every significand to zero. -/
def scale (x : Double) (exponent : Int) : Nat → Option Double
  | 0 => some x
  | rounds + 1 =>
    if x.isZero then some x
    else if 308 < exponent then none
    else if 0 ≤ exponent then
      let scaled := x * powerOfTen exponent.toNat
      if scaled.isInfinite then none else some scaled
    else if -308 ≤ exponent then some (x / powerOfTen (-exponent).toNat)
    else scale (x / powerOfTen 308) (exponent + 308) rounds

/-- The decimal value: the leading digits that fit into sixty-four bits, scaled by a power of ten.
A whole part that does not fit counts its remaining digits as places; a fraction is then tried
anew. There is no value beyond the largest finite number. -/
def decimal? (n : Numeral) : Option Double :=
  let (significand, skipped) := absorb 0 n.whole
  let (significand, unread) := absorb significand n.fraction
  let places : Int := (skipped : Int) - (n.fraction.length - unread : Nat)
  let exponent : Int := match n.exponent with
    | none => places
    | some (negative, digits) =>
      if negative then places - digitsValue digits else places + digitsValue digits
  (scale (.ofNat significand) exponent 4).map fun x => if n.negative then -x else x

/-- The value of a numeral. An integer keeps its exact value if it has sixty-four bits; a negative
zero is a decimal. -/
def value? (n : Numeral) : Option Document :=
  let whole := digitsValue n.whole
  if n.fraction = [] ∧ n.exponent = none ∧ whole < UInt64.size then
    if ¬ n.negative then some (.integer whole)
    else if 0 < whole ∧ Int64.minValue.toInt ≤ -(whole : Int) then some (.integer (-(whole : Int)))
    else some (.decimal (-.ofNat whole))
  else n.decimal?.map .decimal

end Numeral

namespace Piece

/-- The units that open a pair, and those that close one. -/
def opensPair (code : Nat) : Bool := decide (0xD800 ≤ code ∧ code < 0xDC00)
def closesPair (code : Nat) : Bool := decide (0xDC00 ≤ code ∧ code < 0xE000)

/-- The characters of a quoted text. A unit outside the pairs is a character by itself; one half of
a pair alone is none. -/
def decode? : List Piece → Option (List Char)
  | [] => some []
  | .plain c :: rest => (decode? rest).map (c :: ·)
  | .unit high :: .unit low :: rest =>
    if opensPair high then
      if closesPair low then
        (decode? rest).map (Char.ofNat (0x10000 + (high - 0xD800) * 0x400 + (low - 0xDC00)) :: ·)
      else none
    else if closesPair high then none
    else (decode? (.unit low :: rest)).map (Char.ofNat high :: ·)
  | .unit code :: rest =>
    if opensPair code || closesPair code then none
    else (decode? rest).map (Char.ofNat code :: ·)

/-- A quoted text as a string. -/
def text? (pieces : List Piece) : Option String := (decode? pieces).map String.ofList

end Piece

namespace Form

/-- The names of some fields, if all of them are texts. -/
def fieldNames? : List (List Piece × Form) → Option (List String)
  | [] => some []
  | (name, _) :: rest =>
    match Piece.text? name, fieldNames? rest with
    | some n, some ns => some (n :: ns)
    | _, _ => none

/-- The document that a form stands for, with `levels - 1` levels of nesting at most. -/
def document : Nat → Form → Document
  | _, .null => .null
  | _, .flag b => .flag b
  | _, .number n => n.value?.getD .unreadable
  | _, .quoted pieces => ((Piece.text? pieces).map .text).getD .unreadable
  | levels + 2, .list items => .list (items.map (document (levels + 1)))
  | levels + 2, .record fields =>
    match fieldNames? fields with
    | some names => .record (names.zip (fields.map fun field => document (levels + 1) field.2))
    | none => .unreadable
  | _, .list _ => .unreadable
  | _, .record _ => .unreadable

/-- The levels of nesting in which values are read, plus one. -/
def nestingLimit : Nat := 128

end Form

/-- A text as a document. -/
def readDocument? (text : String) : Option Document :=
  (Form.read? text).map (Form.document Form.nestingLimit)

/-- A text as a JSON value. -/
def read? (text : String) : Option Json := (readDocument? text).bind Document.json?

end LineChart.Json
