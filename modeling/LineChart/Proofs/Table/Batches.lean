import LineChart.Proofs.List.Related
import LineChart.Table.Columnar
import Mathlib.Algebra.GroupWithZero.Nat

/-!
# Batches of a columnar file

The rows of a columnar file come in batches and every batch is converted for itself. As long as the
batches hold all rows, the columns are those of the whole file, whatever the sizes of the batches.

* `TypedCells.cells_slice` : some rows of a column are converted as they are in the whole column.
* `Columnar.cellsOfBatches_split` : what batches add to the rows in front of them.
* `Columnar.columnsOfBatches_split` : the columns of a file from batches of any sizes.
* `Columnar.File.Convertible` : foreign columns hold nothing.
* `Columnar.exists_converts_iff`, `Columnar.convertible_of_cellsOfBatches` : only then are the columns,
  or batches of all rows, converted.
* `Columnar.columnsOfBatches_eq_ok_iff`, `Columnar.columns_eq_ok_iff` : when the columns of a file come
  out, and what they are.
-/

namespace LineChart

namespace TypedCells

/-- A foreign column has a conversion if it holds nothing. -/
theorem cells_foreign_eq_ok_iff {type : ForeignType} {present : List Bool} {cells : List Cell} :
    (foreign type present).cells = .ok cells ↔
      true ∉ present ∧ cells = List.replicate present.length .missing := by
  rw [TypedCells.cells]
  cases hfound : present.idxOf? true with
  | none =>
    have habsent : true ∉ present := List.idxOf?_eq_none_iff.1 hfound
    simp [habsent, eq_comm]
  | some row =>
    have hmem : true ∈ present := by
      by_contra habsent
      rw [List.idxOf?_eq_none_iff.2 habsent] at hfound
      cases hfound
    simp [hmem]

/-- **Some rows of a column are converted as they are in the whole column.** -/
theorem cells_slice {typed : TypedCells} {cells : List Cell} (h : typed.cells = .ok cells)
    (start count : Nat) :
    (typed.slice start count).cells = .ok ((cells.drop start).take count) := by
  cases typed with
  | foreign type present =>
    obtain ⟨habsent, rfl⟩ := cells_foreign_eq_ok_iff.1 h
    refine cells_foreign_eq_ok_iff.2 ⟨?_, ?_⟩
    · intro hmem
      exact habsent (List.mem_of_mem_drop (List.mem_of_mem_take hmem))
    · simp
  | nulls n =>
    obtain rfl := Except.ok.inj h
    simp [slice, TypedCells.cells]
  | signed | unsigned | single | double | text | flag =>
    obtain rfl := Except.ok.inj h
    simp [slice, TypedCells.cells, List.map_take, List.map_drop]

/-- There are as many cells as the column has rows. -/
theorem length_cells {typed : TypedCells} {cells : List Cell} (h : typed.cells = .ok cells) :
    cells.length = typed.length := by
  cases typed with
  | foreign type present =>
    obtain ⟨-, rfl⟩ := cells_foreign_eq_ok_iff.1 h
    simp [TypedCells.length]
  | nulls n =>
    obtain rfl := Except.ok.inj h
    simp [TypedCells.length]
  | signed | unsigned | single | double | text | flag =>
    obtain rfl := Except.ok.inj h
    simp [TypedCells.length]

end TypedCells

namespace Columnar

/-- A column with a conversion of its cells. -/
def Converts (column : String × TypedCells) (cells : List Cell) : Prop :=
  column.2.cells = .ok cells

/-- All columns have as many cells as the file has rows. -/
theorem length_of_converts {f : File} {converted : List (List Cell)}
    (h : List.Forall₂ Converts f.columns converted) :
    ∀ cells ∈ converted, cells.length = f.length := by
  have hlengths : ∀ {columns : List (String × TypedCells)} {converted : List (List Cell)},
      List.Forall₂ Converts columns converted → (∀ column ∈ columns, column.2.length = f.length) →
        ∀ cells ∈ converted, cells.length = f.length := by
    intro columns converted h
    induction h with
    | nil => simp
    | @cons column cells columns converted hfirst _ ih =>
      intro hcolumns
      obtain ⟨hcolumn, hrest⟩ := List.forall_mem_cons.1 hcolumns
      exact List.forall_mem_cons.2 ⟨(TypedCells.length_cells hfirst).trans hcolumn, ih hrest⟩
  exact hlengths h f.rectangular

/-- The cells of a batch whose columns all have a conversion. -/
theorem batchCells_eq_ok {columns : List (String × TypedCells)} {converted : List (List Cell)}
    (h : List.Forall₂ Converts columns converted) :
    batchCells (columns.map Prod.fst) (columns.map Prod.snd) = .ok converted := by
  induction h with
  | nil => rfl
  | @cons column cells columns converted hfirst _ ih =>
    rw [List.map_cons, List.map_cons, batchCells, hfirst, ih]

/-- The batch of some rows of a file is that of its columns with these rows. -/
theorem batchCells_slice (f : File) (start count : Nat) :
    batchCells f.columnNames (f.slice start count) =
      batchCells ((f.columns.map fun column => (column.1, column.2.slice start count)).map Prod.fst)
        ((f.columns.map fun column => (column.1, column.2.slice start count)).map Prod.snd) := by
  rw [List.map_map, List.map_map]
  rfl

/-- The rows of a batch of a file. -/
theorem batchCells_slice_eq_ok {f : File} {converted : List (List Cell)}
    (h : List.Forall₂ Converts f.columns converted) (start count : Nat) :
    batchCells f.columnNames (f.slice start count) =
      .ok (converted.map fun cells => (cells.drop start).take count) := by
  have hslices : List.Forall₂ Converts
      (f.columns.map fun column => (column.1, column.2.slice start count))
      (converted.map fun cells => (cells.drop start).take count) := by
    rw [List.forall₂_map_left_iff, List.forall₂_map_right_iff]
    exact h.imp fun column cells hcells => TypedCells.cells_slice hcells start count
  rw [batchCells_slice]
  exact batchCells_eq_ok hslices

/-- The rows of a batch behind all rows before it. -/
theorem extend_take (converted : List (List Cell)) (start count : Nat) :
    extend (converted.map fun cells => cells.take start)
        (converted.map fun cells => (cells.drop start).take count) =
      converted.map fun cells => cells.take (start + count) := by
  rw [extend, List.zipWith_map, List.zipWith_self]
  simp only [List.take_add]

/-- **Batches add their rows to those in front of them.** -/
theorem cellsOfBatches_split {f : File} {converted : List (List Cell)}
    (h : List.Forall₂ Converts f.columns converted) (start : Nat) (sizes : List Nat) :
    cellsOfBatches f.columnNames (converted.map fun cells => cells.take start)
        (f.split start sizes) =
      .ok (converted.map fun cells => cells.take (start + sizes.sum)) := by
  induction sizes generalizing start with
  | nil => rfl
  | cons size sizes ih =>
    rw [File.split, cellsOfBatches, batchCells_slice_eq_ok h]
    dsimp only
    rw [extend_take, ih, List.sum_cons, Nat.add_assoc]

/-- **The columns of a file do not depend on the sizes of its batches**, as long as they hold all
rows. -/
theorem columnsOfBatches_split {f : File} {converted : List (List Cell)}
    (h : List.Forall₂ Converts f.columns converted) {sizes : List Nat}
    (hsizes : f.length ≤ sizes.sum) :
    columnsOfBatches f.columnNames (f.split 0 sizes) =
      .ok (List.zipWith Column.mk f.columnNames converted) := by
  have hstart : (f.columnNames.map fun _ => ([] : List Cell)) =
      converted.map fun cells => cells.take 0 := by
    simp only [List.take_zero]
    rw [List.map_const', List.map_const', File.columnNames, List.length_map, h.length_eq]
  have hall : (converted.map fun cells => cells.take (0 + sizes.sum)) = converted := by
    refine (List.map_congr_left fun cells hcells => ?_).trans (List.map_id converted)
    refine List.take_of_length_le ?_
    rw [length_of_converts h cells hcells, Nat.zero_add]
    exact hsizes
  rw [columnsOfBatches, hstart, cellsOfBatches_split h, hall]

/-- The batches that a file is read in hold all rows. -/
theorem length_le_sum_batches (n : Nat) :
    n ≤ (List.replicate ((n + batchSize - 1) / batchSize) batchSize).sum := by
  rw [List.sum_replicate_nat, batchSize]
  omega

/-- **The columns of a file** whose columns all have a conversion. -/
theorem columns_eq_ok {f : File} {converted : List (List Cell)}
    (h : List.Forall₂ Converts f.columns converted) :
    columns f = .ok (List.zipWith Column.mk f.columnNames converted) :=
  columnsOfBatches_split h (length_le_sum_batches f.length)

/-- **A batch is rectangular and has every column of its file.** -/
theorem rectangular_of_mem_split {f : File} {start : Nat} {sizes : List Nat} {batch : Batch}
    (h : batch ∈ f.split start sizes) :
    batch.length = f.columns.length ∧ ∃ count, ∀ typed ∈ batch, typed.length = count := by
  induction sizes generalizing start with
  | nil => cases h
  | cons size sizes ih =>
    rw [File.split, List.mem_cons] at h
    rcases h with rfl | h
    · refine ⟨List.length_map _, min size (f.length - start), ?_⟩
      intro typed htyped
      obtain ⟨column, hcolumn, rfl⟩ := List.mem_map.1 htyped
      have hlength : column.2.length = f.length := f.rectangular column hcolumn
      rw [← hlength]
      cases column.2 <;> simp [TypedCells.slice, TypedCells.length]
    · exact ih h

/-! ### Files whose columns come out -/

/-- No foreign column holds anything. -/
def File.Convertible (f : File) : Prop :=
  ∀ name type present, (name, TypedCells.foreign type present) ∈ f.columns → true ∉ present

/-- **A file has a conversion** exactly if no foreign column holds anything. -/
theorem exists_converts_iff {f : File} :
    (∃ converted, List.Forall₂ Converts f.columns converted) ↔ f.Convertible := by
  constructor
  · rintro ⟨converted, hconverted⟩ name type present hcolumn
    obtain ⟨i, hi, hget⟩ := List.mem_iff_getElem.1 hcolumn
    have hcells := hconverted.get hi (by rwa [← hconverted.length_eq])
    rw [List.get_eq_getElem, hget] at hcells
    exact (TypedCells.cells_foreign_eq_ok_iff.1 hcells).1
  · intro h
    refine exists_forall₂ fun column hcolumn => ?_
    obtain ⟨name, typed⟩ := column
    cases typed with
    | foreign type present =>
      exact ⟨_, TypedCells.cells_foreign_eq_ok_iff.2 ⟨h name type present hcolumn, rfl⟩⟩
    | signed | unsigned | single | double | text | flag | nulls => exact ⟨_, rfl⟩

/-- The columns of a batch are converted only if each of them has a conversion. -/
theorem converts_of_batchCells {columns : List (String × TypedCells)} {converted : List (List Cell)}
    (h : batchCells (columns.map Prod.fst) (columns.map Prod.snd) = .ok converted) :
    List.Forall₂ Converts columns converted := by
  induction columns generalizing converted with
  | nil =>
    obtain rfl := Except.ok.inj h
    exact .nil
  | cons column columns ih =>
    rw [List.map_cons, List.map_cons, batchCells] at h
    cases hcolumn : column.2.cells with
    | error e => rw [hcolumn] at h; cases h
    | ok cells =>
      cases hrest : batchCells (columns.map Prod.fst) (columns.map Prod.snd) with
      | error e => rw [hcolumn, hrest] at h; cases h
      | ok rest =>
        rw [hcolumn, hrest] at h
        obtain rfl := Except.ok.inj h
        exact .cons hcolumn (ih hrest)

/-- Some rows of a file are converted only if these rows of each column have a conversion. -/
theorem exists_cells_slice {f : File} {start count : Nat} {cells : List (List Cell)}
    (h : batchCells f.columnNames (f.slice start count) = .ok cells) :
    ∀ column ∈ f.columns, ∃ cells, (column.2.slice start count).cells = .ok cells := by
  rw [batchCells_slice] at h
  have hsliced := converts_of_batchCells h
  intro column hcolumn
  rw [List.forall₂_map_left_iff] at hsliced
  obtain ⟨i, hi, rfl⟩ := List.mem_iff_getElem.1 hcolumn
  exact ⟨_, hsliced.get hi (by rwa [← hsliced.length_eq])⟩

/-- Batches are converted only if no foreign column holds anything in their rows. -/
theorem not_mem_of_cellsOfBatches {f : File} {columns converted : List (List Cell)} {start : Nat}
    {sizes : List Nat}
    (h : cellsOfBatches f.columnNames columns (f.split start sizes) = .ok converted)
    {name : String} {type : ForeignType} {present : List Bool}
    (hcolumn : (name, .foreign type present) ∈ f.columns) :
    true ∉ (present.drop start).take sizes.sum := by
  induction sizes generalizing start columns with
  | nil => simp
  | cons size sizes ih =>
    rw [File.split, cellsOfBatches] at h
    cases hbatch : batchCells f.columnNames (f.slice start size) with
    | error e => rw [hbatch] at h; cases h
    | ok cells =>
      rw [hbatch] at h
      obtain ⟨slice, hslice⟩ := exists_cells_slice hbatch _ hcolumn
      have hbehind := ih h
      rw [List.sum_cons, List.take_add, List.drop_drop, List.mem_append, not_or]
      exact ⟨(TypedCells.cells_foreign_eq_ok_iff.1 hslice).1, hbehind⟩

/-- **Batches of all rows are converted only if no foreign column holds anything.** -/
theorem convertible_of_cellsOfBatches {f : File} {columns converted : List (List Cell)}
    {sizes : List Nat} (hsizes : f.length ≤ sizes.sum)
    (h : cellsOfBatches f.columnNames columns (f.split 0 sizes) = .ok converted) :
    f.Convertible := by
  intro name type present hcolumn
  have habsent := not_mem_of_cellsOfBatches h hcolumn
  have hlength : present.length = f.length := f.rectangular _ hcolumn
  rw [List.drop_zero, List.take_of_length_le (by omega)] at habsent
  exact habsent

/-- **The columns from batches of all rows** are the conversions of the columns, if all of them have
one. -/
theorem columnsOfBatches_eq_ok_iff {f : File} {sizes : List Nat} (hsizes : f.length ≤ sizes.sum)
    {columns : List Column} :
    columnsOfBatches f.columnNames (f.split 0 sizes) = .ok columns ↔
      ∃ converted, List.Forall₂ Converts f.columns converted ∧
        columns = List.zipWith Column.mk f.columnNames converted := by
  constructor
  · intro h
    obtain ⟨converted, hconverted⟩ : ∃ converted, List.Forall₂ Converts f.columns converted := by
      rw [columnsOfBatches] at h
      split at h
      · cases h
      · next hcells => exact exists_converts_iff.2 (convertible_of_cellsOfBatches hsizes hcells)
    rw [columnsOfBatches_split hconverted hsizes] at h
    exact ⟨converted, hconverted, (Except.ok.inj h).symm⟩
  · rintro ⟨converted, hconverted, rfl⟩
    exact columnsOfBatches_split hconverted hsizes

/-- **The columns of a file** are the conversions of its columns, if all of them have one. -/
theorem columns_eq_ok_iff {f : File} {columns : List Column} :
    Columnar.columns f = .ok columns ↔ ∃ converted, List.Forall₂ Converts f.columns converted ∧
      columns = List.zipWith Column.mk f.columnNames converted :=
  columnsOfBatches_eq_ok_iff (length_le_sum_batches f.length)

end Columnar

end LineChart
