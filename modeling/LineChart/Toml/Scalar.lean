import LineChart.Document
import LineChart.Number.Numeral

/-!
# Scalars of TOML

Each reader takes one scalar from the front of a text and gives back the rest.

* `readMoment?` : a date, a time, or both with or without an offset, in canonical text.
* `readNumber?` : a moment, a float or an integer, in that order.
* `readString?` : a string in any of the four forms.
* `readKey?` : a key of one or more parts.
-/

namespace LineChart.Toml

/-- A reader of something at the front of a text. -/
abbrev Reads (α : Type) := List Char → Option (α × List Char)

def isSpace (c : Char) : Bool := c = ' ' || c = '\t'

/-- The rest behind spaces and tabs. -/
def skipSpaces (text : List Char) : List Char := text.dropWhile isSpace

/-- The rest behind a line feed with or without a carriage return in front. -/
def readLineEnd? : List Char → Option (List Char)
  | '\n' :: rest => some rest
  | '\r' :: '\n' :: rest => some rest
  | _ => none

/-- The characters of comments: tabs and everything that is no control character. -/
def isVisible (c : Char) : Bool := c = '\t' || decide (0x20 ≤ c.toNat ∧ c.toNat ≠ 0x7F)

/-- The rest behind a comment, if there is one. -/
def skipComment : List Char → List Char
  | '#' :: rest => rest.dropWhile isVisible
  | text => text

/-! ### Moments -/

/-- A number of exactly `count` digits. -/
def readDigits? (count : Nat) (text : List Char) : Option (Nat × List Char) :=
  let digits := text.take count
  if digits.length = count ∧ digits.all isDigit then some (digitsValue digits, text.drop count)
  else none

/-- A number of exactly two digits between two bounds. -/
def readPair? (low high : Nat) (text : List Char) : Option (Nat × List Char) :=
  match readDigits? 2 text with
  | some (n, rest) => if low ≤ n ∧ n ≤ high then some (n, rest) else none
  | none => none

/-- The rest behind a given character. -/
def expect? (c : Char) : List Char → Option (List Char)
  | d :: rest => if d = c then some rest else none
  | [] => none

/-- A number in text with leading zeros. -/
def padded (width n : Nat) : List Char :=
  let digits := Nat.toDigits 10 n
  List.replicate (width - digits.length) '0' ++ digits

def isLeapYear (year : Nat) : Bool := year % 4 = 0 && (year % 100 ≠ 0 || year % 400 = 0)

/-- The number of days in a month. -/
def daysIn (year month : Nat) : Nat :=
  if month = 2 then if isLeapYear year then 29 else 28
  else if month = 4 ∨ month = 6 ∨ month = 9 ∨ month = 11 then 30 else 31

/-- A day of the calendar. -/
def readDate? : Reads (List Char) := fun text => do
  let (year, text) ← readDigits? 4 text
  let text ← expect? '-' text
  let (month, text) ← readPair? 1 12 text
  let text ← expect? '-' text
  let (day, text) ← readPair? 1 (daysIn year month) text
  pure (padded 4 year ++ '-' :: (padded 2 month ++ '-' :: padded 2 day), text)

/-- A fraction of a second: nine digits count, and trailing zeros are dropped. -/
def fractionText (digits : List Char) : List Char :=
  let kept := ((digits.take 9).reverse.dropWhile (· = '0')).reverse
  if kept = [] then [] else '.' :: kept

/-- A time of day. -/
def readTime? : Reads (List Char) := fun text => do
  let (hour, text) ← readPair? 0 23 text
  let text ← expect? ':' text
  let (minute, text) ← readPair? 0 59 text
  let text ← expect? ':' text
  let (second, text) ← readPair? 0 60 text
  let time := padded 2 hour ++ ':' :: (padded 2 minute ++ ':' :: padded 2 second)
  match text with
  | '.' :: rest =>
    let digits := rest.takeWhile isDigit
    if digits = [] then pure (time, text)
    else pure (time ++ fractionText digits, rest.dropWhile isDigit)
  | _ => pure (time, text)

/-- An offset from universal time of at most one day. A zero offset is positive. -/
def readOffset? : Reads (List Char)
  | 'Z' :: rest | 'z' :: rest => some (['Z'], rest)
  | sign :: rest =>
    if sign = '+' ∨ sign = '-' then do
      let (hour, rest) ← readPair? 0 23 rest
      let rest ← expect? ':' rest
      let (minute, rest) ← readPair? 0 59 rest
      let mark := if sign = '-' ∧ (hour ≠ 0 ∨ minute ≠ 0) then '-' else '+'
      pure (mark :: (padded 2 hour ++ ':' :: padded 2 minute), rest)
    else none
  | [] => none

/-- A date and a time between which there is the letter T or a space; either may stand alone, and
both together may have an offset. -/
def readMoment? : Reads String := fun text =>
  match readDate? text with
  | none => (readTime? text).map fun (time, rest) => (String.ofList time, rest)
  | some (date, rest) =>
    match rest with
    | mark :: behind =>
      if mark = 'T' ∨ mark = 't' ∨ mark = ' ' then
        match readTime? behind with
        | none => some (String.ofList date, rest)
        | some (time, rest) =>
          let moment := date ++ 'T' :: time
          match readOffset? rest with
          | some (offset, rest) => some (String.ofList (moment ++ offset), rest)
          | none => some (String.ofList moment, rest)
      else some (String.ofList date, rest)
    | [] => some (String.ofList date, [])

/-! ### Numbers -/

/-- Digits of one kind, of which there is at least one, with single underscores between them. The
underscores are left out. -/
def readGrouped? (isDigit : Char → Bool) : Reads (List Char)
  | [] => none
  | c :: rest => if isDigit c then some (more [c] rest) else none
where
  more (found : List Char) : List Char → List Char × List Char
    | '_' :: c :: rest =>
      if isDigit c then more (c :: found) rest else (found.reverse, '_' :: c :: rest)
    | c :: rest => if isDigit c then more (c :: found) rest else (found.reverse, c :: rest)
    | [] => (found.reverse, [])

/-- The sign of a number, set if negative, and the rest. -/
def readSign (text : List Char) : Bool × List Char := splitSign text

/-- The whole digits of a decimal number: a zero alone, or digits that do not start with one. -/
def readWhole? : Reads (List Char) := fun text =>
  match text with
  | '0' :: rest => some (['0'], rest)
  | _ => readGrouped? isDigit text

/-- An exponent, as its sign and digits, if there is one. -/
def readExponent? : Reads (Option Int) := fun text =>
  match text with
  | c :: rest =>
    if c = 'e' ∨ c = 'E' then do
      let (negative, rest) := readSign rest
      let (digits, rest) ← readGrouped? isDigit rest
      let value : Int := digitsValue digits
      pure (some (if negative then -value else value), rest)
    else some (none, text)
  | [] => some (none, [])

/-- A float with a fraction, an exponent or both, correctly rounded. Positive infinity is out of
range; one of the words `inf` and `nan` may stand for the digits. -/
def readFloat? : Reads Double := fun text => do
  let (negative, text) := readSign text
  match text with
  | 'i' :: 'n' :: 'f' :: rest => pure (.infinite negative, rest)
  | 'n' :: 'a' :: 'n' :: rest => pure (if negative then -.nan else .nan, rest)
  | _ =>
    let (whole, text) ← readWhole? text
    let (fraction, text) ← match text with
      | '.' :: rest => readGrouped? isDigit rest
      | _ => some ([], text)
    let (exponent, text) ← readExponent? text
    if fraction = [] ∧ exponent = none then none
    else
      let value : Double := .ofDecimal negative
        ⟨digitsValue (whole ++ fraction), exponent.getD 0 - fraction.length⟩
      if value.isInfinite ∧ ¬ value.negative then none else pure (value, text)

/-- The value of digits in a base of at most sixteen. -/
def valueIn (base : Nat) (digits : List Char) : Nat :=
  digits.foldl (fun n c => base * n + (hexValue? c).getD 0) 0

/-- An integer of sixty-four bits, decimal or after a mark for its base. -/
def readInteger? : Reads Int := fun text => do
  let based (base : Nat) (rest : List Char) : Option (Int × List Char) := do
    let (digits, rest) ← readGrouped? (fun c => ((hexValue? c).getD base) < base) rest
    pure ((valueIn base digits : Nat), rest)
  let (value, rest) ← match text with
    | '0' :: 'x' :: rest => based 16 rest
    | '0' :: 'o' :: rest => based 8 rest
    | '0' :: 'b' :: rest => based 2 rest
    | _ => do
      let (negative, text) := readSign text
      let (digits, rest) ← readWhole? text
      let value : Int := digitsValue digits
      pure (if negative then -value else value, rest)
  if Int64.minValue.toInt ≤ value ∧ value ≤ Int64.maxValue.toInt then pure (value, rest)
  else none

/-- A value that starts with a digit or a sign. -/
def readNumber? : Reads Document := fun text =>
  match readMoment? text with
  | some (moment, rest) => some (.moment moment, rest)
  | none =>
    match readFloat? text with
    | some (x, rest) => some (.decimal x, rest)
    | none => (readInteger? text).map fun (n, rest) => (.integer n, rest)

/-! ### Strings and keys -/

/-- The character of a code in hexadecimal digits, if there is one. -/
def readCode? (count : Nat) (text : List Char) : Option (Char × List Char) :=
  let digits := text.take count
  if digits.length = count ∧ digits.all fun c => (hexValue? c).isSome then
    let code := valueIn 16 digits
    if code.isValidChar then some (Char.ofNat code, text.drop count) else none
  else none

/-- The character that an escape stands for, the backslash being read. -/
def readEscape? : Reads Char
  | 'b' :: rest => some ('\x08', rest)
  | 'f' :: rest => some ('\x0c', rest)
  | 'n' :: rest => some ('\n', rest)
  | 'r' :: rest => some ('\r', rest)
  | 't' :: rest => some ('\t', rest)
  | '"' :: rest => some ('"', rest)
  | '\\' :: rest => some ('\\', rest)
  | 'u' :: rest => readCode? 4 rest
  | 'U' :: rest => readCode? 8 rest
  | _ => none

/-- The rest of a string on one line, up to the quote that ends it. Escapes are read if asked
for. -/
def readLine? (quote : Char) (escapes : Bool) : Nat → List Char → Reads (List Char)
  | 0, _, _ => none
  | fuel + 1, found, text =>
    match text with
    | [] => none
    | c :: rest =>
      if c = quote then some (found.reverse, rest)
      else if escapes ∧ c = '\\' then
        match readEscape? rest with
        | some (c, rest) => readLine? quote escapes fuel (c :: found) rest
        | none => none
      else if isVisible c then readLine? quote escapes fuel (c :: found) rest
      else none

/-- The rest behind blanks and line ends. -/
def skipBlankLines : Nat → List Char → List Char
  | 0, text => text
  | fuel + 1, text =>
    let text := skipSpaces text
    match readLineEnd? text with
    | some rest => skipBlankLines fuel rest
    | none => text

/-- The rest of a string over several lines, up to three quotes. One or two more quotes in front of
them belong to the string. A line end becomes a line feed; a backslash at the end of a line takes
all blanks and line ends behind it away. -/
def readLines? (quote : Char) (escapes : Bool) : Nat → List Char → Reads (List Char)
  | 0, _, _ => none
  | fuel + 1, found, text =>
    match readLineEnd? text with
    | some rest => readLines? quote escapes fuel ('\n' :: found) rest
    | none =>
      match text with
      | [] => none
      | c :: rest =>
        if c = quote then
          let count := (text.takeWhile (· = quote)).length
          if count < 3 then readLines? quote escapes fuel (c :: found) rest
          else
            let kept := min (count - 3) 2
            some ((List.replicate kept quote ++ found).reverse, text.drop (kept + 3))
        else if escapes ∧ c = '\\' then
          match readEscape? rest with
          | some (c, rest) => readLines? quote escapes fuel (c :: found) rest
          | none =>
            match readLineEnd? (skipSpaces rest) with
            | some rest => readLines? quote escapes fuel found (skipBlankLines rest.length rest)
            | none => none
        else if isVisible c then readLines? quote escapes fuel (c :: found) rest
        else none

/-- A string on one line, the opening quote being read. -/
def readShort? (quote : Char) : Reads String := fun text =>
  (readLine? quote (quote = '"') (text.length + 1) [] text).map fun (s, rest) =>
    (String.ofList s, rest)

/-- A string over several lines, the opening quotes being read. A line end right behind them does
not count. -/
def readLong? (quote : Char) : Reads String := fun text =>
  let text := (readLineEnd? text).getD text
  (readLines? quote (quote = '"') (text.length + 1) [] text).map fun (s, rest) =>
    (String.ofList s, rest)

/-- A string in one of its four forms. -/
def readString? : Reads String
  | '"' :: '"' :: '"' :: rest => readLong? '"' rest
  | '\'' :: '\'' :: '\'' :: rest => readLong? '\'' rest
  | '"' :: rest => readShort? '"' rest
  | '\'' :: rest => readShort? '\'' rest
  | _ => none

/-- The characters of keys without quotes. -/
def isKeyChar (c : Char) : Bool :=
  isDigit c || decide ('a' ≤ c ∧ c ≤ 'z') || decide ('A' ≤ c ∧ c ≤ 'Z') || c = '-' || c = '_'

/-- One part of a key. -/
def readKeyPart? : Reads String := fun text =>
  match text with
  | '"' :: rest => readShort? '"' rest
  | '\'' :: rest => readShort? '\'' rest
  | _ =>
    let name := text.takeWhile isKeyChar
    if name = [] then none else some (String.ofList name, text.dropWhile isKeyChar)

/-- The parts of a key, with points and perhaps spaces between them. -/
def readKeyParts? : Nat → Reads (List String)
  | 0, _ => none
  | fuel + 1, text =>
    match readKeyPart? (skipSpaces text) with
    | none => none
    | some (part, rest) =>
      match skipSpaces rest with
      | '.' :: rest =>
        match readKeyParts? fuel rest with
        | some (parts, rest) => some (part :: parts, rest)
        | none => none
      | rest => some ([part], rest)

/-- Nesting and keys are limited to less than this many levels. -/
def levelLimit : Nat := 80

/-- A key, as its parts. -/
def readKey? : Reads (List String) := fun text =>
  match readKeyParts? (text.length + 1) text with
  | some (parts, rest) => if parts.length < levelLimit then some (parts, rest) else none
  | none => none

end LineChart.Toml
