import LineChart.Number.Rounding

/-!
# Decimal numbers and their text

* `Binary.ofDecimal` : the binary number nearest to a decimal one.
* `Double.fewestDigits` : the shortest decimal that reads back to the same number.
* `Tie` : which of two shortest decimals is taken if both are equally near.
* `Double.display` : the text of a number in messages, labels and keys, always positional.
* `Double.fixed` : the text of a number with a set number of places.

Digits are chosen by exact arithmetic; "reads back" means that `ofDecimal` gives the number again.
-/

namespace LineChart

/-- A power of ten. -/
def tenTo (exponent : Nat) : Nat := Nat.pow 10 exponent

/-- The number `digits * 10 ^ exponent`. -/
structure Decimal where
  digits : Nat
  exponent : Int
deriving DecidableEq

/-- What decides between two decimals on both sides of a number that are equally near to it: an even
last digit, or the size. -/
inductive Tie where
  | toEven
  | away
deriving DecidableEq

/-- The upper one of two neighbours, of which the lower one has the given digits, is taken. -/
def Tie.takesUpper (tie : Tie) (lower : Nat) : Bool :=
  match tie with
  | toEven => lower % 2 == 1
  | away => true

namespace Decimal

/-- The same number without trailing zeros among its digits. -/
def dropZeros (d : Decimal) : Decimal :=
  if h : d.digits ≠ 0 ∧ d.digits % 10 = 0 then
    dropZeros ⟨d.digits / 10, d.exponent + 1⟩
  else d
termination_by d.digits
decreasing_by exact Nat.div_lt_self (Nat.pos_of_ne_zero h.1) (by decide)

/-- The digits as text, most significant first. -/
def digitText (d : Decimal) : List Char := Nat.toDigits 10 d.digits

/-- The number written positionally: zeros fill up to the point, and there is a point only if digits
stand behind it. -/
def positional (d : Decimal) : List Char :=
  let text := d.digitText
  if 0 ≤ d.exponent then text ++ List.replicate d.exponent.toNat '0'
  else
    let places := (-d.exponent).toNat
    if places < text.length then
      text.take (text.length - places) ++ '.' :: text.drop (text.length - places)
    else '0' :: '.' :: List.replicate (places - text.length) '0' ++ text

end Decimal

namespace Binary

variable {F : FloatFormat}

/-- The binary number nearest to a decimal one. A decimal whose leading digit stands above
`2 ^ exponentBits` places is infinite and one that starts below `scale` places is zero, whatever
its digits. -/
def ofDecimal (negative : Bool) (d : Decimal) : Binary F :=
  let leading := (Nat.toDigits 10 d.digits).length + d.exponent
  if d.digits = 0 ∨ leading < -(F.scale : Int) then ofMagnitude negative 0
  else if (1 <<< F.exponentBits : Nat) < leading then infinite negative
  else ofRatio negative (d.digits * tenTo d.exponent.toNat * F.one)
    (tenTo (-d.exponent).toNat)

end Binary

namespace Double

/-- The absolute value of a number times a power of ten, as a quotient of natural numbers. -/
def scaledBy (x : Double) (power : Int) : Nat × Nat :=
  (x.units * tenTo power.toNat, FloatFormat.double.one * tenTo (-power).toNat)

/-- The number of digits that a positive number has in front of its point, negative if there are
zeros behind the point: the least power of ten that is above the number. The estimate from the binary
length is at most two too low. -/
def decimalLength (x : Double) : Int :=
  let estimate := (((x.units.log2 : Int) - FloatFormat.double.scale) * 30103).fdiv 100000
  let below (p : Int) : Bool := let (num, den) := x.scaledBy (-p); num < den
  if below estimate then estimate
  else if below (estimate + 1) then estimate + 1 else estimate + 2

/-- The decimal of `count` significant digits nearest to a positive number among those that read
back to it, if any does. Only the two neighbours of the number can. -/
def withDigits? (tie : Tie) (x : Double) (count : Nat) : Option Decimal :=
  let exponent := x.decimalLength - count
  let (num, den) := x.scaledBy (-exponent)
  let low : Decimal := ⟨num / den, exponent⟩
  let high : Decimal := ⟨num / den + 1, exponent⟩
  let readsBack (d : Decimal) : Bool := decide ((Binary.ofDecimal false d : Double) = x)
  let lowIsNearer : Bool :=
    if 2 * (num % den) = den then !tie.takesUpper low.digits else decide (2 * (num % den) < den)
  match readsBack low, readsBack high with
  | true, true => some (if lowIsNearer then low else high)
  | true, false => some low
  | false, true => some high
  | false, false => none

/-- The decimal with the fewest digits that reads back to a finite number's absolute value, the
nearest of those. Seventeen digits always suffice. -/
def fewestDigits (tie : Tie) (x : Double) : Decimal :=
  if x.isZero then ⟨0, 0⟩
  else
    match (List.range' 1 17).findSome? (withDigits? tie x.abs) with
    | some d => d.dropZeros
    | none => ⟨x.units * Nat.pow 5 FloatFormat.double.scale, -(FloatFormat.double.scale : Int)⟩

/-- A text with the sign of a number in front. -/
def signed (x : Double) (text : List Char) : String :=
  String.ofList (if x.negative then '-' :: text else text)

/-- Messages, labels and keys show the fewest digits that read back, positionally, without a point
for whole numbers; of two equally near decimals the greater one. NaN has no sign. -/
def display (x : Double) : String :=
  if x.isNaN then "NaN"
  else if x.isInfinite then x.signed ['i', 'n', 'f']
  else x.signed (x.fewestDigits .away).positional

/-- A finite number with a set number of places: the exact value is rounded, a half to the even
neighbour. -/
def fixed (places : Nat) (x : Double) : String :=
  if x.isNaN then "NaN"
  else if x.isInfinite then x.signed ['i', 'n', 'f']
  else
    let scaled := roundHalfEven (x.units * tenTo places) FloatFormat.double.one
    let text := Nat.toDigits 10 scaled
    let padded := List.replicate (places + 1 - text.length) '0' ++ text
    let whole := padded.length - places
    x.signed (if places = 0 then padded
      else padded.take whole ++ '.' :: padded.drop whole)

end Double

end LineChart
