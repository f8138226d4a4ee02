import LineChart.Proofs.Table.Batches

/-!
# Columns filled as the batches are read

The columns of a columnar file can be filled cell by cell: batch after batch, in each batch column
after column, and in each column row after row. Here a column or a row that the batch does not have is
an outcome of its own. It never comes about in batches that have all columns, of one length, and then
the columns are those that are converted as a whole, or the first cell without conversion is the same.

* `TypedCells.read?` : the cell of one row of a typed column.
* `TypedCells.read?_of_cells`, `TypedCells.cells_eq_error_iff` : the conversion of a typed column, row
  by row.
* `Columnar.push` : the columns of a file, filled cell by cell.
* `Columnar.push_eq` : they are the columns of the file.
-/

namespace LineChart

namespace TypedCells

/-- The cell of a row, or the type that a table has no cells for. A row behind the last has none. -/
def read? : TypedCells → Nat → Option (Except ForeignType Cell)
  | signed cells, row => cells[row]?.map fun c => .ok (c.elim .missing .integer)
  | unsigned cells, row => cells[row]?.map fun c => .ok (c.elim .missing cellOfUnsigned)
  | single cells, row => cells[row]?.map fun c => .ok (c.elim .missing fun x => .number x.convert)
  | double cells, row => cells[row]?.map fun c => .ok (c.elim .missing .number)
  | text cells, row => cells[row]?.map fun c => .ok (c.elim .missing .text)
  | flag cells, row => cells[row]?.map fun c => .ok (c.elim .missing .flag)
  | nulls n, row => if row < n then some (.ok .missing) else none
  | foreign type present, row =>
    present[row]?.map fun holds => if holds then .error type else .ok .missing

/-- Puts the cells of `count` rows from row `row` on behind those in `out`, up to the first row that
has no cell. -/
def pushCells (typed : TypedCells) (out : List Cell) (row : Nat) :
    Nat → Option (Except (Nat × ForeignType) (List Cell))
  | 0 => some (.ok out)
  | count + 1 =>
    match typed.read? row with
    | none => none
    | some (.error type) => some (.error (row, type))
    | some (.ok k) => typed.pushCells (out ++ [k]) (row + 1) count

/-! ### Conversions, row by row -/

/-- **The converted cells are those of the rows.** -/
theorem read?_of_cells {typed : TypedCells} {cells : List Cell} (h : typed.cells = .ok cells)
    (row : Nat) : typed.read? row = cells[row]?.map .ok := by
  cases typed with
  | foreign type present =>
    obtain ⟨habsent, rfl⟩ := cells_foreign_eq_ok_iff.1 h
    rw [read?, List.getElem?_replicate]
    by_cases hrow : row < present.length
    · have hfalse : present[row] = false := by
        cases hheld : present[row] with
        | false => rfl
        | true => exact absurd (hheld ▸ List.getElem_mem hrow) habsent
      rw [List.getElem?_eq_getElem hrow, if_pos hrow, hfalse]
      rfl
    · rw [List.getElem?_eq_none (by omega), if_neg hrow]
      rfl
  | nulls n =>
    obtain rfl := Except.ok.inj h
    rw [read?, List.getElem?_replicate]
    by_cases hrow : row < n
    · rw [if_pos hrow, if_pos hrow]
      rfl
    · rw [if_neg hrow, if_neg hrow]
      rfl
  | signed | unsigned | single | double | text | flag =>
    obtain rfl := Except.ok.inj h
    rw [read?, List.getElem?_map, Option.map_map]
    rfl

/-- Row `row` is the first in which a foreign column holds something. -/
def FirstHeld (present : List Bool) (row : Nat) : Prop :=
  present[row]? = some true ∧ ∀ earlier < row, present[earlier]? = some false

/-- **The first row without a conversion** is the first in which a foreign column holds something. -/
theorem cells_eq_error_iff {typed : TypedCells} {row : Nat} {type : ForeignType} :
    typed.cells = .error (row, type) ↔
      ∃ present, typed = .foreign type present ∧ FirstHeld present row := by
  cases typed with
  | foreign type' present =>
    have hheld : present.idxOf? true = some row ↔ FirstHeld present row := by
      rw [List.idxOf?_eq_some_iff, FirstHeld]
      constructor
      · rintro ⟨hrow, htrue, hearlier⟩
        refine ⟨by rw [List.getElem?_eq_getElem hrow, htrue], ?_⟩
        intro earlier hlt
        have hfalse : present[earlier] = false := by simpa using hearlier earlier hlt
        rw [List.getElem?_eq_getElem (Nat.lt_trans hlt hrow), hfalse]
      · rintro ⟨htrue, hearlier⟩
        obtain ⟨hrow, htrue⟩ := List.getElem?_eq_some_iff.1 htrue
        refine ⟨hrow, htrue, ?_⟩
        intro earlier hlt
        obtain ⟨_, hfalse⟩ := List.getElem?_eq_some_iff.1 (hearlier earlier hlt)
        simp [hfalse]
    rw [TypedCells.cells]
    constructor
    · intro h
      split at h
      · next found hfound =>
        obtain ⟨rfl, rfl⟩ := Prod.mk.inj (Except.error.inj h)
        exact ⟨present, rfl, hheld.1 hfound⟩
      · cases h
    · rintro ⟨_, ⟨⟩, hfirst⟩
      rw [hheld.2 hfirst]
  | signed | unsigned | single | double | text | flag | nulls =>
    constructor
    · intro h
      cases h
    · rintro ⟨_, ⟨⟩, -⟩

/-! ### Pushing cells -/

/-- Rows that all have a cell are pushed one after the other. -/
theorem pushCells_append {typed : TypedCells} {cells : List Cell} {row : Nat}
    (h : ∀ i k, cells[i]? = some k → typed.read? (row + i) = some (.ok k)) (out : List Cell)
    (count : Nat) :
    typed.pushCells out row (cells.length + count) =
      typed.pushCells (out ++ cells) (row + cells.length) count := by
  induction cells generalizing out row with
  | nil => simp
  | cons k cells ih =>
    have hfirst : typed.read? row = some (.ok k) := h 0 k rfl
    have hrest : ∀ i other, cells[i]? = some other →
        typed.read? (row + 1 + i) = some (.ok other) := by
      intro i other hother
      rw [Nat.add_assoc, Nat.add_comm 1]
      exact h (i + 1) other hother
    rw [List.length_cons, Nat.add_right_comm, pushCells, hfirst]
    dsimp only
    rw [ih hrest, List.append_assoc, List.singleton_append, Nat.add_assoc, Nat.add_comm 1]

/-- **The cells that are pushed are the converted ones.** -/
theorem pushCells_eq (typed : TypedCells) (out : List Cell) :
    typed.pushCells out 0 typed.length = some (typed.cells.map (out ++ ·)) := by
  cases hcells : typed.cells with
  | ok cells =>
    have hreads : ∀ i k, cells[i]? = some k → typed.read? (0 + i) = some (.ok k) := by
      intro i k hk
      rw [Nat.zero_add, read?_of_cells hcells, hk]
      rfl
    have hpush := pushCells_append hreads out 0
    rw [Nat.add_zero, length_cells hcells] at hpush
    exact hpush
  | error e =>
    obtain ⟨row, type⟩ := e
    obtain ⟨present, rfl, htrue, hearlier⟩ := cells_eq_error_iff.1 hcells
    obtain ⟨hrow, -⟩ := List.getElem?_eq_some_iff.1 htrue
    -- the rows in front of the one that stops are all null
    have hreads : ∀ i k, (List.replicate row Cell.missing)[i]? = some k →
        (foreign type present).read? (0 + i) = some (.ok k) := by
      intro i k hk
      obtain ⟨hi, rfl⟩ := List.getElem?_eq_some_iff.1 hk
      rw [List.length_replicate] at hi
      rw [Nat.zero_add, read?, hearlier i hi, List.getElem_replicate]
      rfl
    have hstop : (foreign type present).read? row = some (.error type) := by
      rw [read?, htrue]
      rfl
    have hlength : (foreign type present).length = row + (present.length - row - 1 + 1) := by
      show present.length = _
      omega
    have hpush := pushCells_append hreads out (present.length - row - 1 + 1)
    rw [List.length_replicate, Nat.zero_add, pushCells, hstop, ← hlength] at hpush
    exact hpush

end TypedCells

namespace Columnar

/-- The number of rows of a batch: the length of its first column. -/
def rowsOf : Batch → Nat
  | [] => 0
  | typed :: _ => typed.length

/-- Puts the cells of `count` rows behind those of the columns from column `i` on, whose names are
given. -/
def pushColumns (batch : Batch) (count i : Nat) :
    List String → List (List Cell) → Option (Except ForeignCell (List (List Cell)))
  | name :: names, out :: columns =>
    match batch[i]? with
    | none => none
    | some typed =>
      match typed.pushCells out 0 count with
      | none => none
      | some (.error (row, type)) => some (.error ⟨name, row, type⟩)
      | some (.ok out) =>
        (pushColumns batch count (i + 1) names columns).map fun rest => rest.map (out :: ·)
  | _, _ => some (.ok [])

/-- Puts the cells of all batches behind those of the columns. -/
def pushBatches (names : List String) :
    List (List Cell) → List Batch → Option (Except ForeignCell (List (List Cell)))
  | columns, [] => some (.ok columns)
  | columns, batch :: rest =>
    match pushColumns batch (rowsOf batch) 0 names columns with
    | none => none
    | some (.error e) => some (.error e)
    | some (.ok columns) => pushBatches names columns rest

/-- The columns of a file whose rows are handed over in some batches. `none` is a column or a row that
a batch does not have. -/
def push (names : List String) (batches : List Batch) : Option (Except ForeignCell (List Column)) :=
  (pushBatches names (names.map fun _ => []) batches).map fun result =>
    result.map (List.zipWith Column.mk names)

/-- A batch has a column for each name, all of one length. -/
def Whole (names : List String) (batch : Batch) : Prop :=
  batch.length = names.length ∧ ∃ count, ∀ typed ∈ batch, typed.length = count

theorem Whole.length_eq {names : List String} {batch : Batch} (h : Whole names batch) :
    ∀ typed ∈ batch, typed.length = rowsOf batch := by
  obtain ⟨-, count, hcount⟩ := h
  cases batch with
  | nil => simp
  | cons first batch =>
    intro typed htyped
    rw [hcount typed htyped, rowsOf, hcount first List.mem_cons_self]

/-- **The cells of a batch are put behind those of the columns.** -/
theorem pushColumns_eq {batch : Batch} {count : Nat} (hcount : ∀ typed ∈ batch, typed.length = count)
    {names : List String} {columns : List (List Cell)} {i : Nat}
    (hnames : columns.length = names.length) (hbatch : (batch.drop i).length = names.length) :
    pushColumns batch count i names columns =
      some ((batchCells names (batch.drop i)).map (extend columns)) := by
  induction names generalizing columns i with
  | nil =>
    obtain rfl := List.eq_nil_of_length_eq_zero hnames
    cases batch.drop i <;> rfl
  | cons name names ih =>
    obtain ⟨out, columns, rfl⟩ := List.exists_cons_of_length_eq_add_one hnames
    have hi : i < batch.length := by
      rw [List.length_drop, List.length_cons] at hbatch
      omega
    have hdrop : batch.drop i = batch[i] :: batch.drop (i + 1) := List.drop_eq_getElem_cons hi
    have hrest : (batch.drop (i + 1)).length = names.length := by
      rw [hdrop, List.length_cons, List.length_cons] at hbatch
      omega
    have hpush := batch[i].pushCells_eq out
    rw [hcount _ (List.getElem_mem hi)] at hpush
    rw [pushColumns, List.getElem?_eq_getElem hi, hdrop, batchCells]
    dsimp only
    rw [hpush, ih (by simpa using hnames) hrest]
    cases batch[i].cells with
    | error e => rfl
    | ok cells =>
      cases batchCells names (batch.drop (i + 1)) <;> rfl

/-- There is a list of cells for each name that has a column. -/
theorem length_batchCells {names : List String} {batch : Batch} {cells : List (List Cell)}
    (h : batchCells names batch = .ok cells) (hlength : batch.length = names.length) :
    cells.length = names.length := by
  induction names generalizing batch cells with
  | nil =>
    cases batch <;> obtain rfl := Except.ok.inj h <;> rfl
  | cons name names ih =>
    obtain ⟨typed, batch, rfl⟩ := List.exists_cons_of_length_eq_add_one hlength
    rw [batchCells] at h
    cases hfirst : typed.cells with
    | error e => rw [hfirst] at h; cases h
    | ok first =>
      cases hrest : batchCells names batch with
      | error e => rw [hfirst, hrest] at h; cases h
      | ok rest =>
        rw [hfirst, hrest] at h
        obtain rfl := Except.ok.inj h
        rw [List.length_cons, List.length_cons, ih hrest (by simpa using hlength)]

/-- **The cells of whole batches are put behind those of the columns**, batch after batch. -/
theorem pushBatches_eq {names : List String} {batches : List Batch}
    (h : ∀ batch ∈ batches, Whole names batch) {columns : List (List Cell)}
    (hcolumns : columns.length = names.length) :
    pushBatches names columns batches = some (cellsOfBatches names columns batches) := by
  induction batches generalizing columns with
  | nil => rfl
  | cons batch batches ih =>
    obtain ⟨hbatch, hbatches⟩ := List.forall_mem_cons.1 h
    have hpush := pushColumns_eq (i := 0) hbatch.length_eq hcolumns hbatch.1
    rw [List.drop_zero] at hpush
    rw [pushBatches, hpush, cellsOfBatches]
    cases hcells : batchCells names batch with
    | error e => rfl
    | ok cells =>
      refine ih hbatches ?_
      rw [extend, List.length_zipWith, hcolumns, length_batchCells hcells hbatch.1, Nat.min_self]

/-- **The columns that are filled cell by cell are those of the file**, and no column or row is
missing. -/
theorem push_eq {names : List String} {batches : List Batch}
    (h : ∀ batch ∈ batches, Whole names batch) :
    push names batches = some (columnsOfBatches names batches) := by
  rw [push, pushBatches_eq h (List.length_map _), columnsOfBatches]
  cases cellsOfBatches names (names.map fun _ => []) batches <;> rfl

end Columnar

end LineChart
