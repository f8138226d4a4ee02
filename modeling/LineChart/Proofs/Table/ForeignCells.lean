import LineChart.Proofs.Table.Pushing
import LineChart.Proofs.Table.Rows

/-!
# Foreign cells

A columnar file is read batch by batch, each batch column by column and each column row by row. The
first foreign column that holds something in a batch stops that, and the error names the column and
the row. The row is counted from the start of the batch, so it is the row of the file only in the
first batch.

* `Columnar.File.Holds` : a foreign column holds something in a row.
* `Columnar.NoLater` : the order in which the cells of a file are read.
* `Columnar.exists_first_of_columns` : the first of them that is foreign is the error.
* `Columnar.File.Locates` : an error names the first row in which its column holds something.
* `Columnar.load_foreignCell` : what the error of a file is, and when it locates the cell.
-/

namespace LineChart

namespace Columnar

variable {f : File} {cell : ForeignCell}

/-- Column `i` of a file is foreign and holds something in a row. -/
def File.Holds (f : File) (i row : Nat) (name : String) (type : ForeignType) : Prop :=
  ∃ present, f.columns[i]? = some (name, .foreign type present) ∧ present[row]? = some true

/-- The cell in row `row` of column `i` is read no later than that in row `other` of column `j`: its
batch comes first, or its column in the same batch, or its row in the same column. -/
def NoLater (i row j other : Nat) : Prop :=
  row / batchSize < other / batchSize ∨
    row / batchSize = other / batchSize ∧ (i < j ∨ i = j ∧ row ≤ other)

/-! ### One batch -/

/-- **The first column of a batch without a conversion is the error.** -/
theorem exists_firstHeld_of_batchCells {columns : List (String × TypedCells)}
    (h : batchCells (columns.map Prod.fst) (columns.map Prod.snd) = .error cell) :
    ∃ (i : Nat) (present : List Bool),
      columns[i]? = some (cell.column, .foreign cell.type present) ∧
      TypedCells.FirstHeld present cell.row ∧
      ∀ j < i, ∀ column, columns[j]? = some column → ∃ cells, Converts column cells := by
  induction columns with
  | nil => cases h
  | cons column columns ih =>
    rw [List.map_cons, List.map_cons, batchCells] at h
    cases hcolumn : column.2.cells with
    | error e =>
      rw [hcolumn] at h
      obtain rfl := Except.error.inj h
      obtain ⟨present, htyped, hfirst⟩ := TypedCells.cells_eq_error_iff.1 hcolumn
      refine ⟨0, present, ?_, hfirst, fun j hj => absurd hj (Nat.not_lt_zero j)⟩
      show some column = some (column.1, _)
      rw [← htyped]
    | ok cells =>
      cases hrest : batchCells (columns.map Prod.fst) (columns.map Prod.snd) with
      | ok rest => rw [hcolumn, hrest] at h; cases h
      | error e =>
        rw [hcolumn, hrest] at h
        obtain rfl := Except.error.inj h
        obtain ⟨i, present, hi, hfirst, hbefore⟩ := ih hrest
        refine ⟨i + 1, present, hi, hfirst, ?_⟩
        intro j hj other hother
        cases j with
        | zero =>
          obtain rfl := Option.some.inj hother
          exact ⟨cells, hcolumn⟩
        | succ j => exact hbefore j (Nat.lt_of_succ_lt_succ hj) other hother

/-- The rows of a batch, by their numbers in the file. -/
theorem getElem?_slice {present : List Bool} {start size row : Nat} (h : row < size) :
    ((present.drop start).take size)[row]? = present[start + row]? := by
  rw [List.getElem?_take_of_lt h, List.getElem?_drop]

/-- A column whose rows in a batch have a conversion holds nothing in them. -/
theorem not_holds_of_slice {row start size : Nat} {type : ForeignType}
    {present : List Bool} {cells : List Cell}
    (h : ((TypedCells.foreign type present).slice start size).cells = .ok cells)
    (hlow : start ≤ row) (hhigh : row < start + size) : present[row]? ≠ some true := by
  intro hheld
  obtain ⟨offset, rfl⟩ := Nat.exists_eq_add_of_le hlow
  rw [← getElem?_slice (Nat.lt_of_add_lt_add_left hhigh)] at hheld
  exact (TypedCells.cells_foreign_eq_ok_iff.1 h).1 (List.mem_of_getElem? hheld)

/-- **The error of a batch of a file** is the first row of the first column that holds something. -/
theorem exists_holds_of_slice {start size : Nat}
    (h : batchCells f.columnNames (f.slice start size) = .error cell) :
    ∃ i, cell.row < size ∧ f.Holds i (start + cell.row) cell.column cell.type ∧
      ∀ j other name type, f.Holds j other name type → start ≤ other → other < start + size →
        i < j ∨ i = j ∧ start + cell.row ≤ other := by
  rw [batchCells_slice] at h
  obtain ⟨i, slice, hslice, hfirst, hbefore⟩ := exists_firstHeld_of_batchCells h
  rw [List.getElem?_map] at hslice
  obtain ⟨⟨name, typed⟩, hcolumn, hpair⟩ := Option.map_eq_some_iff.1 hslice
  obtain ⟨rfl, htyped⟩ := Prod.mk.inj hpair
  cases typed with
  | foreign type present =>
    obtain ⟨rfl, rfl⟩ := TypedCells.foreign.inj htyped
    have hrow : cell.row < size := by
      obtain ⟨hlt, -⟩ := List.getElem?_eq_some_iff.1 hfirst.1
      exact Nat.lt_of_lt_of_le hlt (List.length_take_le _ _)
    refine ⟨i, hrow, ⟨present, hcolumn, by rw [← getElem?_slice hrow, hfirst.1]⟩, ?_⟩
    rintro j other name' type' ⟨present', hother, hheld⟩ hlow hhigh
    rcases Nat.lt_trichotomy i j with hlt | rfl | hgt
    · exact .inl hlt
    · -- in the column itself the row is the first
      refine .inr ⟨rfl, ?_⟩
      rw [hcolumn] at hother
      obtain ⟨-, hsame⟩ := Prod.mk.inj (Option.some.inj hother)
      obtain ⟨-, rfl⟩ := TypedCells.foreign.inj hsame
      obtain ⟨offset, rfl⟩ := Nat.exists_eq_add_of_le hlow
      by_contra hearlier
      have hfalse := hfirst.2 offset (by omega)
      rw [getElem?_slice (Nat.lt_of_add_lt_add_left hhigh), hheld] at hfalse
      cases hfalse
    · -- the columns in front of it hold nothing in the batch
      obtain ⟨cells, hcells⟩ := hbefore j hgt (name', (TypedCells.foreign type' present').slice start size)
        (by rw [List.getElem?_map, hother]; rfl)
      exact absurd hheld (not_holds_of_slice hcells hlow hhigh)
  | signed | unsigned | single | double | text | flag | nulls => cases htyped

/-! ### All batches -/

/-- Nothing is held in a batch that is converted. -/
theorem File.Holds.behind {i row start size : Nat} {name : String} {type : ForeignType}
    {cells : List (List Cell)} (hheld : f.Holds i row name type)
    (h : batchCells f.columnNames (f.slice start size) = .ok cells) (hlow : start ≤ row) :
    start + size ≤ row := by
  obtain ⟨present, hcolumn, hpresent⟩ := hheld
  obtain ⟨cells, hcells⟩ := exists_cells_slice h _ (List.mem_of_getElem? hcolumn)
  by_contra hhigh
  exact not_holds_of_slice hcells hlow (Nat.lt_of_not_le hhigh) hpresent

/-- **The error of batches is that of the first one that holds something foreign.** -/
theorem exists_batch_of_cellsOfBatches {columns : List (List Cell)} {start : Nat} {sizes : List Nat}
    (h : cellsOfBatches f.columnNames columns (f.split start sizes) = .error cell) :
    ∃ before size after, sizes = before ++ size :: after ∧
      batchCells f.columnNames (f.slice (start + before.sum) size) = .error cell ∧
      ∀ i row name type, f.Holds i row name type → start ≤ row → start + before.sum ≤ row := by
  induction sizes generalizing start columns with
  | nil => cases h
  | cons size sizes ih =>
    rw [File.split, cellsOfBatches] at h
    cases hbatch : batchCells f.columnNames (f.slice start size) with
    | error e =>
      rw [hbatch] at h
      obtain rfl := Except.error.inj h
      exact ⟨[], size, sizes, rfl, hbatch, fun _ _ _ _ _ hlow => hlow⟩
    | ok cells =>
      rw [hbatch] at h
      obtain ⟨before, last, after, rfl, herror, hbehind⟩ := ih h
      rw [Nat.add_assoc] at herror hbehind
      refine ⟨size :: before, last, after, rfl, herror, ?_⟩
      intro i row name type hheld hlow
      exact hbehind i row name type hheld (hheld.behind hbatch hlow)

/-- **The error of a file is the first foreign cell that is read**, with its row in the batch. -/
theorem exists_first_of_columns (h : Columnar.columns f = .error cell) :
    ∃ i row, f.Holds i row cell.column cell.type ∧
      (∀ j other name type, f.Holds j other name type → NoLater i row j other) ∧
      cell.row = row % batchSize := by
  rw [Columnar.columns, columnsOfBatches] at h
  split at h
  · next e hcells =>
    obtain rfl := Except.error.inj h
    obtain ⟨before, size, after, hsizes, herror, hbehind⟩ := exists_batch_of_cellsOfBatches hcells
    obtain ⟨i, hrow, hheld, hfirst⟩ := exists_holds_of_slice herror
    -- all batches have one size
    have hmem : ∀ other ∈ before ++ size :: after, other = batchSize := by
      rw [← hsizes]
      intro other hother
      exact List.eq_of_mem_replicate hother
    obtain rfl : size = batchSize := hmem size (by simp)
    have hsum : before.sum = before.length * batchSize := by
      have hbefore : before = List.replicate before.length batchSize :=
        List.eq_replicate_iff.2 ⟨rfl, fun other hother => hmem other (List.mem_append_left _ hother)⟩
      rw [hbefore, List.sum_replicate_nat, List.length_replicate]
    rw [Nat.zero_add, hsum] at hheld hfirst hbehind
    refine ⟨i, before.length * batchSize + e.row, hheld, ?_, ?_⟩
    · intro j other name type hother
      have hlow := hbehind j other name type hother (Nat.zero_le _)
      have hsame := hfirst j other name type hother hlow
      rw [NoLater]
      rw [batchSize] at *
      omega
    · rw [batchSize] at *
      omega
  · cases h

/-- The first foreign cell that is read is in the first row in which its column holds something. -/
theorem firstHeld_of_first {i row : Nat} {name : String} {type : ForeignType} {present : List Bool}
    (hcolumn : f.columns[i]? = some (name, .foreign type present)) (hheld : present[row]? = some true)
    (hfirst : ∀ j other name type, f.Holds j other name type → NoLater i row j other) :
    TypedCells.FirstHeld present row := by
  refine ⟨hheld, ?_⟩
  intro earlier hlt
  obtain ⟨hrow, -⟩ := List.getElem?_eq_some_iff.1 hheld
  rw [List.getElem?_eq_getElem (Nat.lt_trans hlt hrow)]
  cases hearlier : present[earlier] with
  | false => rfl
  | true =>
    have hno := hfirst i earlier name type ⟨present, hcolumn, by
      rw [List.getElem?_eq_getElem (Nat.lt_trans hlt hrow), hearlier]⟩
    rw [NoLater, batchSize] at hno
    omega

/-! ### Loading -/

/-- An error names the first row in which a column of its name and type holds something. -/
def File.Locates (f : File) (cell : ForeignCell) : Prop :=
  ∃ present, (cell.column, .foreign cell.type present) ∈ f.columns ∧
    TypedCells.FirstHeld present cell.row

/-- The message of a foreign cell names the file, the column, the row and the type. -/
theorem message_foreignCell (path : Path) (cell : ForeignCell) :
    (LoadError.file path (.foreignCell cell)).message =
      "loading " ++ path.text ++ ": " ++ ("column '" ++ cell.column ++ "', row " ++
        toString cell.row ++ ": unsupported column type " ++ cell.type.name) := by
  have hmessage : (LoadCause.foreignCell cell).message = "column '" ++ cell.column ++ "', row " ++
      toString cell.row ++ ": unsupported column type " ++ cell.type.name := by
    simp only [LoadCause.message]
    rfl
  have hne : (LoadCause.foreignCell cell).message ≠ "" := by
    rw [hmessage]
    intro h
    have hmiddle := (String.append_eq_empty_iff.1 (String.append_eq_empty_iff.1 h).1).2
    exact absurd hmiddle (by decide)
  rw [LoadError.message_file path hne, hmessage]

/-- The errors of a columnar file are its foreign cells. -/
theorem exists_foreignCell_of_load {files : Files} {path : Path} {e : LoadError}
    (hextension : path.extension = "parquet" ∨ path.extension = "pq")
    (hfile : files.openFile path = .ok (.columnar f)) (h : Table.load files path = .error e) :
    ∃ cell, e = .file path (.foreignCell cell) ∧ Columnar.columns f = .error cell := by
  have hcolumns := loadColumns_parquet hextension hfile
  cases hconverted : Columnar.columns f with
  | error cell =>
    rw [hconverted] at hcolumns
    rw [Table.load_eq_error hcolumns] at h
    exact ⟨cell, (Except.error.inj h).symm, rfl⟩
  | ok columns =>
    rw [hconverted] at hcolumns
    obtain ⟨t, ht, -⟩ := Table.exists_load_of_loadColumns hcolumns
    rw [ht] at h
    cases h

/-- **The error of a columnar file** is the first foreign cell that is read, and it is in the first
row in which its column holds something. The error says at which row of its batch that is, so it
locates the cell exactly if that row is in the first batch. -/
theorem load_foreignCell (files : Files) (path : Path) (f : File) (e : LoadError)
    (hextension : path.extension = "parquet" ∨ path.extension = "pq")
    (hfile : files.openFile path = .ok (.columnar f)) (h : Table.load files path = .error e) :
    ∃ cell i row present, e = .file path (.foreignCell cell) ∧
      e.message = "loading " ++ path.text ++ ": " ++ ("column '" ++ cell.column ++ "', row " ++
        toString cell.row ++ ": unsupported column type " ++ cell.type.name) ∧
      f.columns[i]? = some (cell.column, .foreign cell.type present) ∧
      TypedCells.FirstHeld present row ∧
      (∀ j other name type, f.Holds j other name type → NoLater i row j other) ∧
      cell.row = row % batchSize ∧ (f.Locates cell ↔ row < batchSize) := by
  obtain ⟨cell, rfl, hcell⟩ := exists_foreignCell_of_load hextension hfile h
  obtain ⟨i, row, ⟨present, hcolumn, hheld⟩, hfirst, hrow⟩ := exists_first_of_columns hcell
  have hfirstHeld := firstHeld_of_first hcolumn hheld hfirst
  refine ⟨cell, i, row, present, rfl, message_foreignCell path cell, hcolumn, hfirstHeld, hfirst, hrow,
    ?_⟩
  constructor
  · intro hlocates
    obtain ⟨present', hmem, hfirst'⟩ := hlocates
    obtain ⟨j, hj⟩ := List.mem_iff_getElem?.1 hmem
    have hno := hfirst j cell.row cell.column cell.type ⟨present', hj, hfirst'.1⟩
    -- a row that small is in the first batch, and so is what is read before it
    rw [NoLater, batchSize] at hno
    rw [batchSize] at hrow ⊢
    omega
  · intro hlt
    refine ⟨present, List.mem_of_getElem? hcolumn, ?_⟩
    rw [hrow, Nat.mod_eq_of_lt hlt]
    exact hfirstHeld

/-- A file whose only date is in the first row of the second batch. -/
def lateDates : File :=
  ⟨[("day", .foreign .date32 (List.replicate batchSize false ++ [true]))], by decide +kernel⟩

def lateFiles : Files := { entries := [(["t.parquet"], .file (.columnar lateDates))] }

theorem load_lateFiles : Table.load lateFiles ⟨"t.parquet"⟩ =
    .error (.file ⟨"t.parquet"⟩ (.foreignCell ⟨"day", 0, .date32⟩)) := by
  have hcolumns : Columnar.columns lateDates = .error ⟨"day", 0, .date32⟩ := by decide +kernel
  refine Table.load_eq_error ?_
  rw [loadColumns_parquet (.inl (by decide +kernel)) rfl, hcolumns]
  rfl

theorem load_foreignCell_lateFiles :
    ∃ row, 0 = row % batchSize ∧ (lateDates.Locates ⟨"day", 0, .date32⟩ ↔ row < batchSize) := by
  obtain ⟨cell, i, row, present, he, -, -, -, -, hrow, hiff⟩ :=
    load_foreignCell lateFiles ⟨"t.parquet"⟩ lateDates _ (.inl (by decide +kernel)) rfl load_lateFiles
  obtain rfl := LoadCause.foreignCell.inj (LoadError.file.inj he).2
  exact ⟨row, hrow, hiff⟩

/-- **The row of an error need not be a row of the file**: the date is not in row 0, which is null. -/
theorem exists_row_of_other_batch :
    ∃ cell, Table.load lateFiles ⟨"t.parquet"⟩ = .error (.file ⟨"t.parquet"⟩ (.foreignCell cell)) ∧
      ¬ lateDates.Locates cell := by
  refine ⟨⟨"day", 0, .date32⟩, load_lateFiles, ?_⟩
  intro hlocates
  obtain ⟨present, hmem, hheld, -⟩ := hlocates
  obtain ⟨-, hsame⟩ := Prod.mk.inj (List.mem_singleton.1 hmem)
  obtain ⟨-, rfl⟩ := TypedCells.foreign.inj hsame
  exact absurd hheld (by decide +kernel)

end Columnar

end LineChart
