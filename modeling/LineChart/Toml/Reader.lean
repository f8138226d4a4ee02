import LineChart.Toml.Scalar
import LineChart.Toml.Tree

/-!
# Reading TOML

* `readValue?` : one value of any kind, lists and inline tables included.
* `Line` : one line of a text by what it does.
* `readDocument?` : a text as a document.
-/

namespace LineChart.Toml

/-- The rest behind spaces, line ends and comments. -/
def skipTrivia : Nat → List Char → List Char
  | 0, text => text
  | fuel + 1, text =>
    let text := skipComment (skipSpaces text)
    match readLineEnd? text with
    | some rest => skipTrivia fuel rest
    | none => text

/-- The rest behind spaces, line ends and comments, however many. -/
def skipAll (text : List Char) : List Char := skipTrivia (text.length + 1) text

/-- The items of a list behind its opening bracket, and the rest behind the closing one. -/
def readItems? (item : Reads Document) : Nat → List Document → Reads (List Document)
  | 0, _, _ => none
  | fuel + 1, found, text =>
    match skipAll text with
    | ']' :: rest => some (found.reverse, rest)
    | text =>
      match item text with
      | none => none
      | some (value, rest) =>
        match skipAll rest with
        | ',' :: rest => readItems? item fuel (value :: found) rest
        | ']' :: rest => some ((value :: found).reverse, rest)
        | _ => none

/-- One key with its value, up to the end of the value. -/
def readPair (item : Reads Document) : Reads (List String × Document) := fun text => do
  let (key, text) ← readKey? text
  let text ← expect? '=' (skipSpaces text)
  let (value, text) ← item (skipSpaces text)
  pure ((key, value), text)

/-- The entries of an inline table, and the rest behind the closing brace. There is no comma behind
the last one. -/
def readEntries? (item : Reads Document) : Nat → Entries → Reads Entries
  | 0, _, _ => none
  | fuel + 1, found, text =>
    match readPair item text with
    | none => none
    | some ((key, value), rest) =>
      match Item.assign key value found with
      | none => none
      | some found =>
        match skipSpaces rest with
        | ',' :: rest => readEntries? item fuel found rest
        | '\x7d' :: rest => some (found, rest)
        | _ => none

/-- A value, with at most `levels` levels of lists and inline tables. -/
def readValue? : Nat → Reads Document
  | levels, text =>
    match text with
    | [] => none
    | c :: rest =>
      if c = '"' ∨ c = '\'' then (readString? text).map fun (s, rest) => (.text s, rest)
      else if c = '[' then
        match levels with
        | 0 => none
        | levels + 1 =>
          (readItems? (readValue? levels) text.length [] rest).map fun (items, rest) =>
            (.list items, rest)
      else if c = '\x7b' then
        match levels with
        | 0 => none
        | levels + 1 =>
          match skipSpaces rest with
          | '\x7d' :: rest => some (.record [], rest)
          | rest =>
            (readEntries? (readValue? levels) text.length [] rest).map fun (entries, rest) =>
              (.record (Item.documents entries), rest)
      else
        match text with
        | 't' :: 'r' :: 'u' :: 'e' :: rest => some (.flag true, rest)
        | 'f' :: 'a' :: 'l' :: 's' :: 'e' :: rest => some (.flag false, rest)
        | _ => readNumber? text

/-- What a line does. -/
inductive Line where
  | blank
  | assign (key : List String) (value : Document)
  | header (key : List String)
  /-- The header of one more table in a list of tables. -/
  | entryHeader (key : List String)

/-- One line without its end, and the rest behind it. -/
def readContent? : Reads Line := fun text =>
  match text with
  | '[' :: '[' :: rest => do
    let (key, rest) ← readKey? rest
    let rest ← expect? ']' rest
    let rest ← expect? ']' rest
    pure (.entryHeader key, rest)
  | '[' :: rest => do
    let (key, rest) ← readKey? rest
    let rest ← expect? ']' rest
    pure (.header key, rest)
  | c :: _ =>
    if c = '#' ∨ c = '\n' ∨ c = '\r' then some (.blank, text)
    else (readPair (readValue? (levelLimit - 1)) text).map fun ((key, value), rest) =>
      (.assign key value, rest)
  | [] => some (.blank, [])

/-- All lines of a text. -/
def readLinesOf? : Nat → List Line → List Char → Option (List Line)
  | 0, _, _ => none
  | fuel + 1, found, text =>
    match readContent? (skipSpaces text) with
    | none => none
    | some (line, rest) =>
      match skipComment (skipSpaces rest) with
      | [] => some (line :: found).reverse
      | rest =>
        match readLineEnd? rest with
        | some rest => readLinesOf? fuel (line :: found) rest
        | none => none

/-- The tree after some lines, under the header that is in force. -/
def applyAll? : List String → Entries → List Line → Option Entries
  | _, entries, [] => some entries
  | header, entries, line :: rest =>
    match line with
    | .blank => applyAll? header entries rest
    | .assign key value =>
      match Item.assignUnder header key value entries with
      | some entries => applyAll? header entries rest
      | none => none
    | .header key =>
      match Item.openTable key entries with
      | some entries => applyAll? key entries rest
      | none => none
    | .entryHeader key =>
      match Item.openEntry key entries with
      | some entries => applyAll? key entries rest
      | none => none

/-- A text as a document. A byte order mark in front does not count. -/
def readDocument? (text : String) : Option Document :=
  let text := match text.toList with
    | '\ufeff' :: rest => rest
    | text => text
  match readLinesOf? (text.length + 1) [] text with
  | none => none
  | some lines => (applyAll? [] [] lines).map fun entries => .record (Item.documents entries)

end LineChart.Toml
