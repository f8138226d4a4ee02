import LineChart.Number.Numeral

/-!
# The tokens of a JSON text

`Token.scan` cuts a text into marks, words, numerals and quoted texts, one character a step. What a
numeral or a quoted text stands for is not settled here: a numeral keeps its digits, and a quoted
text is a list of pieces, each a character or the number of a sixteen-bit unit written with `\u`.
-/

namespace LineChart.Json

/-- A numeral as it is written. A fraction or an exponent that is there has at least one digit. -/
structure Numeral where
  negative : Bool
  whole : List Char
  fraction : List Char
  /-- The sign (set if negative) and the digits of the exponent. -/
  exponent : Option (Bool × List Char)
deriving DecidableEq

/-- A part of a quoted text: a character, or a unit of sixteen bits given by its number. -/
inductive Piece where
  | plain (c : Char)
  | unit (code : Nat)
deriving DecidableEq

inductive Token where
  | openList
  | closeList
  | openRecord
  | closeRecord
  | colon
  | comma
  | null
  | flag (value : Bool)
  | number (numeral : Numeral)
  | quoted (pieces : List Piece)
deriving DecidableEq

/-- How far a numeral has been read. -/
inductive NumeralPhase where
  /-- Behind the sign. -/
  | start
  /-- Behind a leading zero, which stands alone. -/
  | zero
  | whole
  /-- Behind the point. -/
  | point
  | fraction
  /-- Behind the exponent mark. -/
  | mark
  /-- Behind the exponent's sign. -/
  | sign
  | exponent
deriving DecidableEq

namespace NumeralPhase

/-- The numeral may end here. -/
def complete : NumeralPhase → Bool
  | .zero | .whole | .fraction | .exponent => true
  | _ => false

end NumeralPhase

namespace Numeral

def pushWhole (n : Numeral) (c : Char) : Numeral := { n with whole := n.whole ++ [c] }
def pushFraction (n : Numeral) (c : Char) : Numeral := { n with fraction := n.fraction ++ [c] }
def pushExponent (n : Numeral) (c : Char) : Numeral :=
  match n.exponent with
  | none => { n with exponent := some (false, [c]) }
  | some (negative, digits) => { n with exponent := some (negative, digits ++ [c]) }

/-- Takes up one more character of a numeral, if it is one. -/
def extend (n : Numeral) (phase : NumeralPhase) (c : Char) : Option (Numeral × NumeralPhase) :=
  match phase with
  | .start =>
    if c = '0' then some (n.pushWhole c, .zero)
    else if isDigit c then some (n.pushWhole c, .whole) else none
  | .zero | .whole =>
    if isDigit c && phase = .whole then some (n.pushWhole c, .whole)
    else if c = '.' then some (n, .point)
    else if c = 'e' || c = 'E' then some ({ n with exponent := some (false, []) }, .mark)
    else none
  | .point => if isDigit c then some (n.pushFraction c, .fraction) else none
  | .fraction =>
    if isDigit c then some (n.pushFraction c, .fraction)
    else if c = 'e' || c = 'E' then some ({ n with exponent := some (false, []) }, .mark)
    else none
  | .mark =>
    if isDigit c then some (n.pushExponent c, .exponent)
    else if c = '-' then some ({ n with exponent := some (true, []) }, .sign)
    else if c = '+' then some (n, .sign)
    else none
  | .sign | .exponent => if isDigit c then some (n.pushExponent c, .exponent) else none

end Numeral

/-- Where the scanner stands inside a text. Pieces are kept in reverse. -/
inductive Scan where
  | between
  /-- Inside a word, with the characters still to come and the token they make. -/
  | word (rest : List Char) (token : Token)
  | number (numeral : Numeral) (phase : NumeralPhase)
  | quoted (pieces : List Piece)
  /-- Behind a backslash. -/
  | escape (pieces : List Piece)
  /-- Inside a unit's number, with the count of digits still to come and the value so far. -/
  | unit (pieces : List Piece) (digits : Nat) (value : Nat)
deriving DecidableEq

/-- The character that an escape letter stands for. -/
def unescape? : Char → Option Char
  | '"' => some '"'
  | '\\' => some '\\'
  | '/' => some '/'
  | 'b' => some '\x08'
  | 'f' => some '\x0c'
  | 'n' => some '\n'
  | 'r' => some '\r'
  | 't' => some '\t'
  | _ => none

namespace Scan

/-- Starts a token, or passes over a blank. -/
def start (c : Char) : Option (List Token × Scan) :=
  match c with
  | ' ' | '\n' | '\t' | '\r' => some ([], .between)
  | '[' => some ([.openList], .between)
  | ']' => some ([.closeList], .between)
  | '\x7b' => some ([.openRecord], .between)
  | '\x7d' => some ([.closeRecord], .between)
  | ':' => some ([.colon], .between)
  | ',' => some ([.comma], .between)
  | '"' => some ([], .quoted [])
  | 'n' => some ([], .word "ull".toList .null)
  | 't' => some ([], .word "rue".toList (.flag true))
  | 'f' => some ([], .word "alse".toList (.flag false))
  | '-' => some ([], .number ⟨true, [], [], none⟩ .start)
  | c => ((⟨false, [], [], none⟩ : Numeral).extend .start c).map fun (n, phase) =>
      ([], .number n phase)

/-- One character, with the tokens that it completes. The end of a numeral is seen only at the
character behind it. -/
def step : Scan → Char → Option (List Token × Scan)
  | .between, c => start c
  | .word rest token, c =>
    match rest with
    | [] => none
    | [last] => if c = last then some ([token], .between) else none
    | next :: rest => if c = next then some ([], .word rest token) else none
  | .number n phase, c =>
    match n.extend phase c with
    | some (n, phase) => some ([], .number n phase)
    | none =>
      if phase.complete then
        (start c).map fun (tokens, scan) => (.number n :: tokens, scan)
      else none
  | .quoted pieces, c =>
    if c = '"' then some ([.quoted pieces.reverse], .between)
    else if c = '\\' then some ([], .escape pieces)
    else if c.toNat < 0x20 then none
    else some ([], .quoted (.plain c :: pieces))
  | .escape pieces, c =>
    if c = 'u' then some ([], .unit pieces 4 0)
    else (unescape? c).map fun plain => ([], .quoted (.plain plain :: pieces))
  | .unit pieces digits value, c =>
    (hexValue? c).map fun digit =>
      let value := 16 * value + digit
      if digits ≤ 1 then ([], .quoted (.unit value :: pieces))
      else ([], .unit pieces (digits - 1) value)

/-- The tokens completed by the end of the text. -/
def finish : Scan → Option (List Token)
  | .between => some []
  | .number n phase => if phase.complete then some [.number n] else none
  | _ => none

/-- The tokens of a text, in reverse, in front of those found before. -/
def run : Scan → List Token → List Char → Option (List Token)
  | scan, found, [] => scan.finish.map fun last => last.reverse ++ found
  | scan, found, c :: rest =>
    match scan.step c with
    | some (tokens, scan) => run scan (tokens.reverse ++ found) rest
    | none => none

end Scan

/-- The tokens of a text, if it consists of tokens and blanks. -/
def Token.scan (text : List Char) : Option (List Token) :=
  (Scan.run .between [] text).map List.reverse

end LineChart.Json
