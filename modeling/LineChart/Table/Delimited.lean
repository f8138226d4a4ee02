import LineChart.Number.Numeral
import LineChart.Table.Basic
import LineChart.Text.Blank

/-!
# Delimited files

A delimited file has one record a line and commas between fields. A field may stand between quotes,
where a quote is written twice and commas and line ends are plain characters. The first record names
the columns.

* `Delimited.records` : the records of a file, one byte a step.
* `Delimited.cell` : the cell that a field's text is read as.
* `Delimited.columns` : the columns of a file.
* `Delimited.writeField` : a field between quotes, as `records` reads it back.
-/

namespace LineChart

namespace Delimited

/-- A field's bytes, and the fields of a record. -/
abbrev Field := List UInt8
abbrev Record := List Field

def comma : UInt8 := 0x2C
def quote : UInt8 := 0x22
def lineFeed : UInt8 := 0x0A
def carriageReturn : UInt8 := 0x0D

/-- A line ends at a line feed or a carriage return. -/
def endsLine (b : UInt8) : Bool := b == lineFeed || b == carriageReturn

/-- Where the reader stands. -/
inductive Phase where
  /-- In front of a record, where line ends are passed over. -/
  | recordStart
  | fieldStart
  | plain
  | quoted
  /-- Behind a quote inside a quoted field: a second one belongs to the field. -/
  | quoteSeen
deriving DecidableEq

/-- The reader's state: the bytes of the field and the fields of the record read so far, both in
reverse. -/
structure Reading where
  phase : Phase
  field : Field
  fields : List Field
deriving DecidableEq

namespace Reading

def start : Reading := ⟨.recordStart, [], []⟩

/-- Takes up a byte of the field. -/
def push (r : Reading) (phase : Phase) (b : UInt8) : Reading := ⟨phase, b :: r.field, r.fields⟩

/-- Ends the field. -/
def endField (r : Reading) : Reading := ⟨.fieldStart, [], r.field.reverse :: r.fields⟩

/-- The record that ends with the field. -/
def record (r : Reading) : Record := (r.field.reverse :: r.fields).reverse

/-- One byte outside quotes. -/
def stepPlain (r : Reading) (b : UInt8) : Option Record × Reading :=
  if b = comma then (none, r.endField)
  else if endsLine b then (some r.record, start)
  else (none, r.push .plain b)

/-- One byte at the start of a field. -/
def stepFresh (r : Reading) (b : UInt8) : Option Record × Reading :=
  if b = quote then (none, { r with phase := .quoted }) else r.stepPlain b

/-- One byte, and the record that it completes. A quote opens a quoted field only in front of the
field, and what follows a closing quote is taken as plain. -/
def step (r : Reading) (b : UInt8) : Option Record × Reading :=
  match r.phase with
  | .recordStart => if endsLine b then (none, r) else r.stepFresh b
  | .fieldStart => r.stepFresh b
  | .plain => r.stepPlain b
  | .quoted =>
    if b = quote then (none, { r with phase := .quoteSeen }) else (none, r.push .quoted b)
  | .quoteSeen => if b = quote then (none, r.push .quoted b) else r.stepPlain b

/-- The record cut off by the end of the file. -/
def finish (r : Reading) : List Record :=
  match r.phase with
  | .recordStart => []
  | _ => [r.record]

/-- The records completed by some bytes and by the end of the file, in front of which `found` were
found, in reverse. -/
def run : Reading → List Record → List UInt8 → List Record
  | r, found, [] => found.reverse ++ r.finish
  | r, found, b :: rest =>
    match r.step b with
    | (some record, r) => run r (record :: found) rest
    | (none, r) => run r found rest

end Reading

/-- The bytes behind a byte order mark. -/
def dropMark : List UInt8 → List UInt8
  | 0xEF :: 0xBB :: 0xBF :: rest => rest
  | bytes => bytes

/-- The records of a file. -/
def records (bytes : List UInt8) : List Record := Reading.run .start [] (dropMark bytes)

/-! ### Records as a table -/

/-- The texts that stand for a missing cell. -/
def missingTexts : List String :=
  ["", "#N/A", "#N/A N/A", "#NA", "-1.#IND", "-1.#QNAN", "-NaN", "-nan", "1.#IND", "1.#QNAN",
   "<NA>", "N/A", "NA", "NULL", "NaN", "None", "n/a", "nan", "null"]

/-- The cell that a text without outer blanks is read as: missing, an integer, a number, a truth
value or, failing all of them, itself. -/
def cell (text : String) : Cell :=
  if text ∈ missingTexts then .missing
  else
    match readInt64? text.toList with
    | some n => .integer n
    | none =>
      match Double.read? text.toList with
      | some x => .number x
      | none =>
        if text = "true" ∨ text = "True" then .flag true
        else if text = "false" ∨ text = "False" then .flag false
        else .text text

/-- The text of a field, if its bytes are text. -/
def fieldText? (field : Field) : Option String := String.fromUTF8? ⟨field.toArray⟩

/-- The texts of all fields of a record. -/
def texts? : Record → Option (List String)
  | [] => some []
  | field :: rest =>
    match fieldText? field, texts? rest with
    | some text, some texts => some (text :: texts)
    | _, _ => none

def trim (text : String) : String := String.ofList (trimBlanks text.toList)

/-- The name of column `i` by its heading. A blank heading gets its number for a name. -/
def columnName (i : Nat) (heading : String) : String :=
  if trim heading = "" then s!"Unnamed: {i}" else trim heading

/-- The names of the columns that follow column `i`. -/
def columnNames : Nat → List String → List String
  | _, [] => []
  | i, heading :: rest => columnName i heading :: columnNames (i + 1) rest

/-- What can be wrong with the records of a file. Rows are counted from zero, behind the
headings. -/
inductive RecordError where
  | headingsNotText
  | rowLength (row : Nat)
  | rowNotText (row : Nat)
deriving DecidableEq

/-- The cells of the rows, each of `width` fields, from row `row` on. -/
def rows (width : Nat) : Nat → List Record → Except RecordError (List (List Cell))
  | _, [] => .ok []
  | row, record :: rest =>
    if record.length ≠ width then .error (.rowLength row)
    else
      match texts? record with
      | none => .error (.rowNotText row)
      | some texts =>
        match rows width (row + 1) rest with
        | .error e => .error e
        | .ok cells => .ok ((texts.map fun text => cell (trim text)) :: cells)

/-- The columns of some rows by their names: column `i` has the entry `i` of every row. -/
def columnsOf (names : List String) (rows : List (List Cell)) : List Column :=
  names.zipIdx.map fun (name, i) => ⟨name, rows.map fun row => row[i]?.getD .missing⟩

/-- The columns of a file. -/
def columns (bytes : List UInt8) : Except RecordError (List Column) :=
  match records bytes with
  | [] => .ok []
  | headings :: body =>
    match texts? headings with
    | none => .error .headingsNotText
    | some headings =>
      match rows headings.length 0 body with
      | .error e => .error e
      | .ok rows => .ok (columnsOf (columnNames 0 headings) rows)

/-! ### Writing -/

/-- A field between quotes, inner quotes doubled. -/
def writeField (field : Field) : List UInt8 :=
  quote :: (field.flatMap (fun b => if b = quote then [quote, quote] else [b]) ++ [quote])

end Delimited

end LineChart
