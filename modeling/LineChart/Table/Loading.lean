import LineChart.Files.Content
import LineChart.Json.Reader
import LineChart.Table.Delimited
import LineChart.Table.Records

/-!
# Loading tables

The extension of a path says how the file is read: `csv` as a delimited file, `json` as a list of
records, `parquet` and `pq` as a columnar file.

* `loadColumns` : the columns of a file.
* `Table.load` : the table of a file.
-/

namespace LineChart

/-- What can go wrong with a file of a known kind. -/
inductive LoadCause where
  | opening (e : FileError)
  | readingHeadings (e : FileError)
  | delimited (e : Delimited.RecordError)
  | readingText (e : FileError)
  | notJson
  | records (e : Records.RecordsError)
  | openingColumnar (e : FileError)
  | notColumnar
  | foreignCell (cell : Columnar.ForeignCell)
  | table (e : TableError)
deriving DecidableEq

namespace LoadCause

def message : LoadCause → String
  | opening _ => "opening CSV"
  | readingHeadings _ | delimited .headingsNotText => "reading CSV headers"
  | delimited (.rowLength row) | delimited (.rowNotText row) => s!"CSV row {row}"
  | readingText e => inContext "reading JSON file" e.message
  | notJson => "parsing JSON"
  | records .notList => "Expected top-level JSON array"
  | records (.notRecord row) => s!"Row {row} is not a JSON object"
  | openingColumnar e => inContext "opening parquet file" e.message
  | notColumnar => "reading parquet metadata"
  | foreignCell cell =>
    let (column, row, type) := (cell.column, cell.row, cell.type.name)
    s!"column '{column}', row {row}: unsupported column type {type}"
  | table e => e.message

end LoadCause

/-- What can go wrong while a table is loaded. -/
inductive LoadError where
  | unknownExtension (extension : String)
  | file (path : Path) (cause : LoadCause)
deriving DecidableEq

namespace LoadError

def message : LoadError → String
  | unknownExtension extension => s!"Unsupported file extension: .{extension}"
  | file path cause => inContext ("loading " ++ path.text) cause.message

end LoadError

/-! ### One kind of file after the other -/

/-- The columns of a delimited file. -/
def loadDelimited (files : Files) (path : Path) : Except LoadCause (List Column) :=
  match files.openFile path with
  | .error .isDirectory => .error (.readingHeadings .isDirectory)
  | .error e => .error (.opening e)
  | .ok content =>
    match content.bytes? with
    | none => .error (.delimited .headingsNotText)
    | some bytes => (Delimited.columns bytes).mapError .delimited

/-- The columns of a list of JSON records. -/
def loadRecords (files : Files) (path : Path) : Except LoadCause (List Column) :=
  match files.readText path with
  | .error e => .error (.readingText e)
  | .ok text =>
    match Json.read? text with
    | none => .error .notJson
    | some json => (Records.columns json).mapError .records

/-- The columns of a columnar file. -/
def loadColumnar (files : Files) (path : Path) : Except LoadCause (List Column) :=
  match files.openFile path with
  | .error .isDirectory => .error .notColumnar
  | .error e => .error (.openingColumnar e)
  | .ok (.columnar file) => (Columnar.columns file).mapError .foreignCell
  | .ok _ => .error .notColumnar

/-- The reader for an extension. -/
def loader? (extension : String) :
    Option (Files → Path → Except LoadCause (List Column)) :=
  if extension = "csv" then some loadDelimited
  else if extension = "json" then some loadRecords
  else if extension = "parquet" ∨ extension = "pq" then some loadColumnar
  else none

/-- The columns of a file. -/
def loadColumns (files : Files) (path : Path) : Except LoadError (List Column) :=
  match loader? path.extension with
  | none => .error (.unknownExtension path.extension)
  | some load => (load files path).mapError (.file path)

/-- The table of a file. -/
def Table.load (files : Files) (path : Path) : Except LoadError Table :=
  match loadColumns files path with
  | .error e => .error e
  | .ok columns => (Table.ofColumns columns).mapError fun e => .file path (.table e)

end LineChart
