import LineChart.Table.Cell

/-!
# Tables

A table is a list of named columns of one length. Columns are found by name, the first of a name
winning, and rows are numbered from zero.

* `Table.ofColumns` : the table of some columns, refused if their lengths differ.
* `Table.column`, `Table.numbers` : a column by name, as cells and as plotted numbers.
* `Table.groups` : the rows of each distinct cell of a column, in the order of cells.
* `Table.rowsWhere` : the rows whose cell in a column agrees with a given one.
* `pick` : some entries of a list, by position.
-/

namespace LineChart

structure Column where
  name : String
  cells : List Cell
deriving DecidableEq

/-- What can be wrong with a table or with a question about it. -/
inductive TableError where
  | missingColumn (name : String) (available : List String)
  | notNumeric (column : String) (row : Nat) (text : String)
  | raggedColumn (column : String) (length expected : Nat)
deriving DecidableEq

namespace TableError

def message : TableError → String
  | missingColumn name available =>
    let names := ", ".intercalate available
    s!"column '{name}' not found (available: {names})"
  | notNumeric column row text => s!"column '{column}', row {row}: '{text}' is not a number"
  | raggedColumn column length expected =>
    s!"column '{column}' has {length} rows, expected {expected}"

end TableError

/-- Equality of columns, cell by cell. -/
def Column.same (a b : Column) : Bool := decide (a.name = b.name) && a.cells.isEqv b.cells Cell.same

/-- The number of rows that a list of columns has: the length of the first. -/
def rowCount : List Column → Nat
  | [] => 0
  | first :: _ => first.cells.length

structure Table where
  columns : List Column
  rectangular : ∀ c ∈ columns, c.cells.length = rowCount columns

namespace Table

/-- The table of some columns. The first column whose length differs from the very first is the one
reported. -/
def ofColumns (columns : List Column) : Except TableError Table :=
  match h : columns.find? fun c => c.cells.length ≠ rowCount columns with
  | some bad => .error (.raggedColumn bad.name bad.cells.length (rowCount columns))
  | none => .ok ⟨columns, by simpa using h⟩

/-- The number of rows. -/
def length (t : Table) : Nat := rowCount t.columns

def columnNames (t : Table) : List String := t.columns.map Column.name

/-- Equality of tables, column by column. -/
def same (a b : Table) : Bool := a.columns.isEqv b.columns Column.same

/-- The first column of a name. -/
def column (t : Table) (name : String) : Except TableError Column :=
  match t.columns.find? fun c => c.name = name with
  | some c => .ok c
  | none => .error (.missingColumn name t.columnNames)

/-- The row numbers, as coordinates. -/
def index (t : Table) : List Double := (List.range t.length).map Binary.ofNat

/-- The plotted numbers of some cells, the first of which stands in row `row`. -/
def numbersFrom (name : String) : Nat → List Cell → Except TableError (List Double)
  | _, [] => .ok []
  | row, cell :: rest =>
    match cell.number? with
    | none => .error (.notNumeric name row cell.display)
    | some x =>
      match numbersFrom name (row + 1) rest with
      | .error e => .error e
      | .ok xs => .ok (x :: xs)

/-- A column as plotted numbers. The first text in it is an error. -/
def numbers (t : Table) (name : String) : Except TableError (List Double) :=
  match t.column name with
  | .error e => .error e
  | .ok c => numbersFrom name 0 c.cells

end Table

/-! ### Groups of rows -/

/-- The rows of each key, the keys ascending. -/
abbrev Groups := List (Cell × List Nat)

namespace Groups

/-- Puts a row in front of the rows of its key. -/
def add (key : Cell) (row : Nat) : Groups → Groups
  | [] => [(key, [row])]
  | (k, rows) :: rest =>
    match key.order k with
    | .lt => (key, [row]) :: (k, rows) :: rest
    | .eq => (k, row :: rows) :: rest
    | .gt => (k, rows) :: add key row rest

/-- The groups of some cells by their position, the first of which is `row`. -/
def ofCells : Nat → List Cell → Groups
  | _, [] => []
  | row, cell :: rest => add cell row (ofCells (row + 1) rest)

end Groups

/-- The positions, counted from `row`, of the cells that agree with `wanted`. -/
def rowsAgreeing (wanted : Cell) : Nat → List Cell → List Nat
  | _, [] => []
  | row, cell :: rest =>
    if cell.agrees wanted then row :: rowsAgreeing wanted (row + 1) rest
    else rowsAgreeing wanted (row + 1) rest

/-- The entries at some positions; a position outside the list is passed over. -/
def pick {α : Type} (entries : Array α) (positions : List Nat) : List α :=
  positions.filterMap fun i => entries[i]?

namespace Table

/-- The row numbers of each distinct cell of a column. -/
def groups (t : Table) (name : String) : Except TableError Groups :=
  (t.column name).map fun c => Groups.ofCells 0 c.cells

/-- The row numbers whose cell in a column agrees with `wanted`. -/
def rowsWhere (t : Table) (name : String) (wanted : Cell) : Except TableError (List Nat) :=
  (t.column name).map fun c => rowsAgreeing wanted 0 c.cells

end Table

end LineChart
