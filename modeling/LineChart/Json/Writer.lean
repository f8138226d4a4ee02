import LineChart.Json.Basic

/-!
# Writing JSON

Values are written without blanks. Texts escape quotes, backslashes and control characters, the
latter by their letter or by four hexadecimal digits. Decimals are written by `Double.jsonText`.
-/

namespace LineChart

/-- A hexadecimal digit in lower case. -/
def hexDigit (n : Nat) : Char := Nat.digitChar (n % 16)

namespace Double

/-- The fewest digits that read back, of two equally near decimals the one with an even last digit,
and at least one decimal place. The number is positional if the place of its first digit lies
between `10 ^ (-5)` and `10 ^ 15`; otherwise there is an exponent, a positive one with its sign. -/
def jsonText (x : Double) : List Char :=
  let d := x.fewestDigits .toEven
  let digits := d.digitText
  let leading : Int := digits.length + d.exponent - 1
  let text :=
    if x.isZero then ['0', '.', '0']
    else if -5 ≤ leading ∧ leading ≤ 15 then
      if 0 ≤ d.exponent then d.positional ++ ['.', '0'] else d.positional
    else
      let mantissa := match digits with
        | first :: second :: rest => first :: '.' :: second :: rest
        | short => short
      let exponent := Nat.toDigits 10 leading.natAbs
      mantissa ++ 'e' :: (if leading < 0 then '-' else '+') :: exponent
  if x.negative then '-' :: text else text

end Double

namespace Json

/-- One character of a text, escaped where it has to be. -/
def escape (c : Char) : List Char :=
  if c = '"' then ['\\', '"']
  else if c = '\\' then ['\\', '\\']
  else if c = '\n' then ['\\', 'n']
  else if c = '\r' then ['\\', 'r']
  else if c = '\t' then ['\\', 't']
  else if c = '\x08' then ['\\', 'b']
  else if c = '\x0c' then ['\\', 'f']
  else if c.toNat < 0x20 then ['\\', 'u', '0', '0', hexDigit (c.toNat / 16), hexDigit c.toNat]
  else [c]

/-- A text between quotes. -/
def quote (s : String) : List Char := '"' :: (s.toList.flatMap escape ++ ['"'])

mutual

/-- The characters of a value's text. -/
def write : Json → List Char
  | .null => "null".toList
  | .flag b => (if b then "true" else "false").toList
  | .integer n => (toString n.value).toList
  | .decimal x => x.jsonText
  | .text s => quote s
  | .list [] => ['[', ']']
  | .list (item :: rest) => '[' :: (write item ++ writeItems rest ++ [']'])
  | .record [] => ['\x7b', '\x7d']
  | .record ((name, value) :: rest) =>
    '\x7b' :: (quote name ++ ':' :: (write value ++ writeFields rest ++ ['\x7d']))

/-- The items behind the first, each with a comma in front. -/
def writeItems : List Json → List Char
  | [] => []
  | item :: rest => ',' :: (write item ++ writeItems rest)

/-- The fields behind the first, each with a comma in front. -/
def writeFields : List (String × Json) → List Char
  | [] => []
  | (name, value) :: rest => ',' :: (quote name ++ ':' :: (write value ++ writeFields rest))

end

/-- A value as text. -/
def render (j : Json) : String := .ofList j.write

end Json

end LineChart
