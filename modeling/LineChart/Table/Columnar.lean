import LineChart.Table.Basic

/-!
# Columnar files

A columnar file holds typed columns of nullable cells. Its rows are handed over in consecutive
batches and converted cell by cell, column after column inside a batch.

* `TypedCells` : the cells of a column, by its type.
* `TypedCells.cells` : their conversion.
* `Columnar.File` : a file, and `Columnar.File.split` its rows in batches of any sizes.
* `Columnar.columnsOfBatches` : the columns of a file from its batches.
* `Columnar.columns` : the same for the batches that a file is read in.
-/

namespace LineChart

/-- The types of columns that a table has no cells for. -/
inductive ForeignType where
  | date32
  | date64
  | binary
  | textView
  /-- Any other type, by its name. -/
  | other (name : String)
deriving DecidableEq

def ForeignType.name : ForeignType → String
  | date32 => "Date32"
  | date64 => "Date64"
  | binary => "Binary"
  | textView => "Utf8View"
  | other name => name

/-- The cells of a typed column. `none` is a null. -/
inductive TypedCells where
  /-- Signed integers of any width. -/
  | signed (cells : List (Option Int64))
  /-- Unsigned integers of any width. -/
  | unsigned (cells : List (Option UInt64))
  | single (cells : List (Option Single))
  | double (cells : List (Option Double))
  | text (cells : List (Option String))
  | flag (cells : List (Option Bool))
  /-- A column that holds nulls only, by its length. -/
  | nulls (length : Nat)
  /-- Of a foreign column only which cells hold something is known. -/
  | foreign (type : ForeignType) (present : List Bool)

namespace TypedCells

def length : TypedCells → Nat
  | signed cells => cells.length
  | unsigned cells => cells.length
  | single cells => cells.length
  | double cells => cells.length
  | text cells => cells.length
  | flag cells => cells.length
  | nulls n => n
  | foreign _ present => present.length

/-- The cells of `count` rows from row `start` on. -/
def slice (start count : Nat) : TypedCells → TypedCells
  | signed cells => .signed ((cells.drop start).take count)
  | unsigned cells => .unsigned ((cells.drop start).take count)
  | single cells => .single ((cells.drop start).take count)
  | double cells => .double ((cells.drop start).take count)
  | text cells => .text ((cells.drop start).take count)
  | flag cells => .flag ((cells.drop start).take count)
  | nulls n => .nulls (min count (n - start))
  | foreign type present => .foreign type ((present.drop start).take count)

/-- The cell of an unsigned integer. Where it does not fit, it becomes a number. -/
def cellOfUnsigned (n : UInt64) : Cell :=
  if n.toNat ≤ Int64.maxValue.toInt then .integer (.ofInt n.toNat) else .number (.ofNat n.toNat)

/-- The converted cells, or the row of the first cell that has no conversion and its type. -/
def cells : TypedCells → Except (Nat × ForeignType) (List Cell)
  | signed cells => .ok (cells.map fun c => c.elim .missing .integer)
  | unsigned cells => .ok (cells.map fun c => c.elim .missing cellOfUnsigned)
  | single cells => .ok (cells.map fun c => c.elim .missing fun x => .number x.convert)
  | double cells => .ok (cells.map fun c => c.elim .missing .number)
  | text cells => .ok (cells.map fun c => c.elim .missing .text)
  | flag cells => .ok (cells.map fun c => c.elim .missing .flag)
  | nulls n => .ok (List.replicate n .missing)
  | foreign type present =>
    match present.idxOf? true with
    | some row => .error (row, type)
    | none => .ok (List.replicate present.length .missing)

end TypedCells

namespace Columnar

/-- The number of rows that some typed columns have: the length of the first. -/
def lengthOf : List (String × TypedCells) → Nat
  | [] => 0
  | (_, cells) :: _ => cells.length

/-- A columnar file: its columns by name, all of one length. -/
structure File where
  columns : List (String × TypedCells)
  rectangular : ∀ column ∈ columns, column.2.length = lengthOf columns

namespace File

/-- The file of some columns, if they have one length. -/
def ofColumns? (columns : List (String × TypedCells)) : Option File :=
  if h : ∀ column ∈ columns, column.2.length = lengthOf columns then some ⟨columns, h⟩ else none

/-- The number of rows. -/
def length (f : File) : Nat := lengthOf f.columns

def columnNames (f : File) : List String := f.columns.map Prod.fst

end File

/-- Some consecutive rows of a file, column by column. -/
abbrev Batch := List TypedCells

namespace File

/-- The batch of `count` rows from row `start` on. -/
def slice (f : File) (start count : Nat) : Batch :=
  f.columns.map fun column => column.2.slice start count

/-- Consecutive batches of some sizes, from row `start` on. Batches end where the file ends. -/
def split (f : File) (start : Nat) : List Nat → List Batch
  | [] => []
  | size :: rest => f.slice start size :: f.split (start + size) rest

end File

/-- A cell without conversion: its column, its row inside the batch, and its type. -/
structure ForeignCell where
  column : String
  row : Nat
  type : ForeignType
deriving DecidableEq

/-- The cells of a batch. The columns come one after the other. -/
def batchCells : List String → Batch → Except ForeignCell (List (List Cell))
  | name :: names, cells :: batch =>
    match cells.cells with
    | .error (row, type) => .error ⟨name, row, type⟩
    | .ok cells =>
      match batchCells names batch with
      | .error e => .error e
      | .ok rest => .ok (cells :: rest)
  | _, _ => .ok []

/-- Appends the cells of a batch to those of the batches before it. -/
def extend (columns : List (List Cell)) (batch : List (List Cell)) : List (List Cell) :=
  List.zipWith (· ++ ·) columns batch

/-- The cells of all batches, column by column, behind those of `columns`. -/
def cellsOfBatches (names : List String) :
    List (List Cell) → List Batch → Except ForeignCell (List (List Cell))
  | columns, [] => .ok columns
  | columns, batch :: rest =>
    match batchCells names batch with
    | .error e => .error e
    | .ok cells => cellsOfBatches names (extend columns cells) rest

/-- The columns of a file whose rows are handed over in some batches. -/
def columnsOfBatches (names : List String) (batches : List Batch) :
    Except ForeignCell (List Column) :=
  match cellsOfBatches names (names.map fun _ => []) batches with
  | .error e => .error e
  | .ok columns => .ok (List.zipWith Column.mk names columns)

/-- The number of rows in a batch, the last one apart. -/
def batchSize : Nat := 1024

/-- The batches that a file is read in. -/
def File.batches (f : File) : List Batch :=
  f.split 0 (List.replicate ((f.length + batchSize - 1) / batchSize) batchSize)

/-- The columns of a file. -/
def columns (f : File) : Except ForeignCell (List Column) :=
  columnsOfBatches f.columnNames f.batches

end Columnar

end LineChart
