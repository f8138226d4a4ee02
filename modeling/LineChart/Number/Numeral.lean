import LineChart.Number.Decimal

/-!
# Reading numerals

The texts that count as an integer or as a number in a delimited file. Both readers take a whole
text and leave nothing over.

* `readInteger?` : an optional sign and at least one digit.
* `Double.read?` : an optional sign; digits with at most one point among, before or behind them and
  an optional exponent, or one of the words `inf`, `infinity` and `nan` in any case.
-/

namespace LineChart

/-- The ten digits. -/
def isDigit (c : Char) : Bool := decide ('0' ≤ c ∧ c ≤ '9')

/-- The value of a digit. -/
def digitValue (c : Char) : Nat := c.toNat - '0'.toNat

/-- The value of a hexadecimal digit in either case. -/
def hexValue? (c : Char) : Option Nat :=
  if isDigit c then some (digitValue c)
  else if 'a' ≤ c ∧ c ≤ 'f' then some (c.toNat - 'a'.toNat + 10)
  else if 'A' ≤ c ∧ c ≤ 'F' then some (c.toNat - 'A'.toNat + 10)
  else none

/-- The value of a row of digits. -/
def digitsValue (digits : List Char) : Nat :=
  digits.foldl (fun n c => 10 * n + digitValue c) 0

/-- A sign in front of a text, and the rest. A text without a sign counts as positive. -/
def splitSign : List Char → Bool × List Char
  | '-' :: rest => (true, rest)
  | '+' :: rest => (false, rest)
  | text => (false, text)

/-- An integer of any size. -/
def readInteger? (text : List Char) : Option Int :=
  let (negative, digits) := splitSign text
  if digits ≠ [] ∧ digits.all isDigit then
    some (if negative then -(digitsValue digits : Int) else digitsValue digits)
  else none

/-- An integer of sixty-four bits. -/
def readInt64? (text : List Char) : Option Int64 :=
  match readInteger? text with
  | some n => if Int64.minValue.toInt ≤ n ∧ n ≤ Int64.maxValue.toInt then some (.ofInt n) else none
  | none => none

/-- A decimal numeral without its sign: digits, perhaps a point and more digits, perhaps an
exponent. There is a digit before or behind the point, and one in an exponent. -/
def readDecimal? (text : List Char) : Option Decimal :=
  let whole := text.takeWhile isDigit
  let rest := text.dropWhile isDigit
  let (fraction, rest) := match rest with
    | '.' :: rest => (rest.takeWhile isDigit, rest.dropWhile isDigit)
    | rest => ([], rest)
  let digits := digitsValue (whole ++ fraction)
  if whole = [] ∧ fraction = [] then none
  else
    match rest with
    | [] => some ⟨digits, -(fraction.length : Int)⟩
    | c :: rest =>
      if c = 'e' ∨ c = 'E' then
        (readInteger? rest).map fun exponent => ⟨digits, exponent - fraction.length⟩
      else none

namespace Double

/-- A number of sixty-four bits, correctly rounded. -/
def read? (text : List Char) : Option Double :=
  let (negative, text) := splitSign text
  match readDecimal? text with
  | some d => some (.ofDecimal negative d)
  | none =>
    let word := text.map Char.toLower
    if word = ['i', 'n', 'f'] ∨ word = ['i', 'n', 'f', 'i', 'n', 'i', 't', 'y'] then
      some (.infinite negative)
    else if word = ['n', 'a', 'n'] then some (if negative then -.nan else .nan)
    else none

end Double

end LineChart
