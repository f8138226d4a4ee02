import LineChart.Proofs.Table.CellOrder
import LineChart.Proofs.Table.Columns

/-!
# Rows of keys and rows of filters

Grouping puts every row under its cell, and filtering keeps the rows whose cell agrees with a value.
Both are the rows whose cell passes a test, in ascending order.

* `rowsPassing` : the positions of the cells that pass a test.
* `Table.RowsWhere`, `Table.Keys` : what the rows of a test and the keys of a column are, said by
  their members and their order.
* `Groups.ofCells_eq_map` : the groups of some cells are their distinct cells in ascending order, each
  with the positions of the cells equal to it.
-/

namespace LineChart

/-! ### Rows that pass a test -/

/-- The positions, counted from `row`, of the cells that pass a test. -/
def rowsPassing (test : Cell → Bool) : Nat → List Cell → List Nat
  | _, [] => []
  | row, cell :: rest =>
    if test cell then row :: rowsPassing test (row + 1) rest else rowsPassing test (row + 1) rest

theorem rowsAgreeing_eq_rowsPassing (wanted : Cell) (row : Nat) (cells : List Cell) :
    rowsAgreeing wanted row cells = rowsPassing (·.agrees wanted) row cells := by
  induction cells generalizing row with
  | nil => rfl
  | cons cell rest ih => rw [rowsAgreeing, rowsPassing, ih]

theorem mem_rowsPassing_cons {test : Cell → Bool} {row r : Nat} {cell : Cell} {rest : List Cell} :
    r ∈ rowsPassing test row (cell :: rest) ↔
      (r = row ∧ test cell = true) ∨ r ∈ rowsPassing test (row + 1) rest := by
  rw [rowsPassing]
  by_cases htest : test cell = true
  · simp [htest]
  · simp [htest]

theorem mem_rowsPassing {test : Cell → Bool} {row r : Nat} {cells : List Cell} :
    r ∈ rowsPassing test row cells ↔
      ∃ i cell, r = row + i ∧ cells[i]? = some cell ∧ test cell = true := by
  induction cells generalizing row with
  | nil => simp [rowsPassing]
  | cons cell rest ih =>
    rw [mem_rowsPassing_cons, ih]
    constructor
    · intro h
      rcases h with ⟨hr, htest⟩ | ⟨i, cell', hr, hcell, htest⟩
      · exact ⟨0, cell, hr, rfl, htest⟩
      · exact ⟨i + 1, cell', by omega, hcell, htest⟩
    · intro h
      obtain ⟨i, cell', hr, hcell, htest⟩ := h
      cases i with
      | zero =>
        rw [List.getElem?_cons_zero, Option.some.injEq] at hcell
        exact .inl ⟨hr, by rw [hcell]; exact htest⟩
      | succ i => exact .inr ⟨i, cell', by omega, hcell, htest⟩

theorem pairwise_rowsPassing (test : Cell → Bool) (row : Nat) (cells : List Cell) :
    (rowsPassing test row cells).Pairwise (· < ·) := by
  induction cells generalizing row with
  | nil => exact .nil
  | cons cell rest ih =>
    rw [rowsPassing]
    split
    · refine List.pairwise_cons.2 ⟨?_, ih (row + 1)⟩
      intro r hr
      obtain ⟨i, -, rfl, -⟩ := mem_rowsPassing.1 hr
      omega
    · exact ih (row + 1)

theorem rowsPassing_eq_nil_iff {test : Cell → Bool} {row : Nat} {cells : List Cell} :
    rowsPassing test row cells = [] ↔ ∀ cell ∈ cells, test cell = false := by
  induction cells generalizing row with
  | nil => simp [rowsPassing]
  | cons cell rest ih =>
    rw [rowsPassing, List.forall_mem_cons]
    cases test cell <;> simp [ih]

/-- Tests that agree on all the cells are passed by the same rows. -/
theorem rowsPassing_congr {p q : Cell → Bool} {cells : List Cell} (row : Nat)
    (h : ∀ cell ∈ cells, p cell = q cell) : rowsPassing p row cells = rowsPassing q row cells := by
  induction cells generalizing row with
  | nil => rfl
  | cons cell rest ih =>
    obtain ⟨hcell, hrest⟩ := List.forall_mem_cons.1 h
    rw [rowsPassing, rowsPassing, hcell, ih (row + 1) hrest]

namespace Table

variable {t : Table} {name : String} {c : Column}

/-- The rows, in ascending order, whose cell in a column passes a test. -/
def RowsWhere (t : Table) (name : String) (p : Cell → Prop) (rows : List Nat) : Prop :=
  rows.Pairwise (· < ·) ∧ ∀ row, row ∈ rows ↔ ∃ cell, t.CellAt name row cell ∧ p cell

/-- There is one list of the rows whose cell passes a test. -/
theorem RowsWhere.unique {p : Cell → Prop} {rows rows' : List Nat} (h : t.RowsWhere name p rows)
    (h' : t.RowsWhere name p rows') : rows = rows' := by
  have hperm : rows.Perm rows' := by
    refine (List.perm_ext_iff_of_nodup (h.1.imp Nat.ne_of_lt) (h'.1.imp Nat.ne_of_lt)).2 ?_
    intro row
    rw [h.2, h'.2]
  exact hperm.eq_of_pairwise (fun _ _ _ _ hab hba => absurd hab (Nat.lt_asymm hba)) h.1 h'.1

theorem FirstNamed.rowsWhere (h : t.FirstNamed name c) (test : Cell → Bool) :
    t.RowsWhere name (fun cell => test cell = true) (rowsPassing test 0 c.cells) := by
  refine ⟨pairwise_rowsPassing test 0 c.cells, ?_⟩
  intro row
  rw [mem_rowsPassing]
  constructor
  · intro hmem
    obtain ⟨i, cell, rfl, hcell, htest⟩ := hmem
    rw [Nat.zero_add]
    exact ⟨cell, h.cellAt_iff.2 hcell, htest⟩
  · intro hat
    obtain ⟨cell, hcell, htest⟩ := hat
    exact ⟨row, cell, (Nat.zero_add row).symm, h.cellAt_iff.1 hcell, htest⟩

/-- The distinct keys of a column in ascending order, a missing cell being none. -/
def Keys (t : Table) (name : String) (keys : List Cell) : Prop :=
  Cell.Ascending keys ∧ ∀ k, k ∈ keys ↔ k ≠ .missing ∧ ∃ row, t.CellAt name row k

theorem FirstNamed.exists_cellAt_iff (h : t.FirstNamed name c) {cell : Cell} :
    (∃ row, t.CellAt name row cell) ↔ cell ∈ c.cells := by
  rw [List.mem_iff_getElem?]
  exact exists_congr fun row => h.cellAt_iff

end Table

/-! ### Groups -/

namespace Groups

/-- The keys of some groups. -/
def keys (groups : Groups) : List Cell := groups.map Prod.fst

theorem mem_keys_add {key k : Cell} {row : Nat} {groups : Groups} :
    k ∈ keys (add key row groups) ↔ k = key ∨ k ∈ keys groups := by
  induction groups with
  | nil => simp [add, keys]
  | cons group rest ih =>
    obtain ⟨k', rows⟩ := group
    rw [add]
    cases hord : key.order k' with
    | lt => simp [keys]
    | eq =>
      rw [Cell.order_eq_iff.1 hord]
      simp [keys]
    | gt =>
      have hstep : k ∈ keys ((k', rows) :: add key row rest) ↔ k = k' ∨ k = key ∨ k ∈ keys rest := by
        rw [← ih]
        simp [keys]
      show k ∈ keys ((k', rows) :: add key row rest) ↔ _
      rw [hstep, or_left_comm]
      simp [keys]

theorem ascending_keys_add {key : Cell} {row : Nat} {groups : Groups}
    (h : Cell.Ascending (keys groups)) : Cell.Ascending (keys (add key row groups)) := by
  induction groups with
  | nil => exact List.pairwise_singleton _ _
  | cons group rest ih =>
    obtain ⟨k, rows⟩ := group
    obtain ⟨hfirst, hrest⟩ := List.pairwise_cons.1 h
    rw [add]
    cases hord : key.order k with
    | lt =>
      refine List.pairwise_cons.2 ⟨?_, h⟩
      intro k' hk'
      rcases List.mem_cons.1 hk' with rfl | hk'
      · exact hord
      · exact Std.TransCmp.lt_trans hord (hfirst k' hk')
    | eq => exact h
    | gt =>
      refine List.pairwise_cons.2 ⟨?_, ih hrest⟩
      intro k' hk'
      rcases mem_keys_add.1 hk' with rfl | hk'
      · exact Std.OrientedCmp.lt_of_gt hord
      · exact hfirst k' hk'

/-- A key in front of all keys of ascending groups is none of them. -/
theorem not_mem_keys_of_lt {key k : Cell} {rows : List Nat} {rest : Groups}
    (h : Cell.Ascending (keys ((k, rows) :: rest))) (hlt : key.order k = .lt) :
    key ∉ keys ((k, rows) :: rest) := by
  have hadd : Cell.Ascending (keys (add key 0 ((k, rows) :: rest))) := ascending_keys_add h
  rw [add, hlt] at hadd
  exact (List.nodup_cons.1 hadd.nodup).1

/-- Adding a row under a key changes the rows of that key alone. -/
theorem mem_add {key : Cell} {row : Nat} {groups : Groups} (h : Cell.Ascending (keys groups))
    {entry : Cell × List Nat} (hmem : entry ∈ add key row groups) :
    (entry.1 ≠ key ∧ entry ∈ groups) ∨
      (∃ rows, (key, rows) ∈ groups ∧ entry = (key, row :: rows)) ∨
      (key ∉ keys groups ∧ entry = (key, [row])) := by
  induction groups with
  | nil => exact .inr (.inr ⟨List.not_mem_nil, List.mem_singleton.1 hmem⟩)
  | cons group rest ih =>
    obtain ⟨k, rows⟩ := group
    obtain ⟨hfirst, hrest⟩ := List.pairwise_cons.1 h
    rw [add] at hmem
    cases hord : key.order k with
    | lt =>
      -- the new group stands in front, so that all others are old ones
      have hnew := not_mem_keys_of_lt h hord
      rw [hord] at hmem
      rcases List.mem_cons.1 hmem with rfl | hold
      · exact .inr (.inr ⟨hnew, rfl⟩)
      · refine .inl ⟨?_, hold⟩
        intro heq
        rw [← heq] at hnew
        exact hnew (List.mem_map_of_mem hold)
    | eq =>
      obtain rfl := Cell.order_eq_iff.1 hord
      rw [hord] at hmem
      rcases List.mem_cons.1 hmem with rfl | hold
      · exact .inr (.inl ⟨rows, List.mem_cons_self, rfl⟩)
      · refine .inl ⟨?_, List.mem_cons_of_mem _ hold⟩
        intro heq
        rw [← heq] at hfirst
        exact Cell.order_self_ne_lt _ (hfirst entry.1 (List.mem_map_of_mem hold))
    | gt =>
      have hne : k ≠ key := by
        intro heq
        rw [Cell.order_eq_iff.2 heq.symm] at hord
        cases hord
      rw [hord] at hmem
      rcases List.mem_cons.1 hmem with rfl | hmem
      · exact .inl ⟨hne, List.mem_cons_self⟩
      · rcases ih hrest hmem with ⟨hk, hold⟩ | ⟨rows', hold, heq⟩ | ⟨hnew, heq⟩
        · exact .inl ⟨hk, List.mem_cons_of_mem _ hold⟩
        · exact .inr (.inl ⟨rows', List.mem_cons_of_mem _ hold, heq⟩)
        · refine .inr (.inr ⟨?_, heq⟩)
          intro hkey
          rcases List.mem_cons.1 hkey with hkey | hkey
          · exact hne hkey.symm
          · exact hnew hkey

theorem mem_keys_ofCells {k : Cell} {row : Nat} {cells : List Cell} :
    k ∈ keys (ofCells row cells) ↔ k ∈ cells := by
  induction cells generalizing row with
  | nil => simp [ofCells, keys]
  | cons cell rest ih => rw [ofCells, mem_keys_add, ih, List.mem_cons]

theorem ascending_keys_ofCells (row : Nat) (cells : List Cell) :
    Cell.Ascending (keys (ofCells row cells)) := by
  induction cells generalizing row with
  | nil => exact .nil
  | cons cell rest ih => exact ascending_keys_add (ih (row + 1))

/-- The rows of a group are the positions of the cells equal to its key. -/
theorem rows_of_mem_ofCells {row : Nat} {cells : List Cell} {entry : Cell × List Nat}
    (h : entry ∈ ofCells row cells) :
    entry.2 = rowsPassing (fun cell => decide (cell = entry.1)) row cells := by
  induction cells generalizing row entry with
  | nil => cases h
  | cons cell rest ih =>
    rw [rowsPassing]
    rcases mem_add (ascending_keys_ofCells (row + 1) rest) h with
      ⟨hne, hold⟩ | ⟨rows, hold, rfl⟩ | ⟨hnew, rfl⟩
    · rw [if_neg (by simpa using Ne.symm hne)]
      exact ih hold
    · rw [if_pos (by simp)]
      exact congrArg (row :: ·) (ih hold)
    · have hnone : rowsPassing (fun c => decide (c = cell)) (row + 1) rest = [] := by
        rw [rowsPassing_eq_nil_iff]
        intro c hc
        rw [decide_eq_false_iff_not]
        intro heq
        rw [heq] at hc
        exact hnew (mem_keys_ofCells.2 hc)
      rw [if_pos (by simp)]
      exact congrArg (row :: ·) hnone.symm

/-- **Grouping, said without the table of groups.** The groups of some cells are their distinct cells
in ascending order, each with the positions of the cells equal to it. -/
theorem ofCells_eq_map (row : Nat) (cells : List Cell) :
    ofCells row cells = (keys (ofCells row cells)).map fun k =>
      (k, rowsPassing (fun cell => decide (cell = k)) row cells) := by
  rw [keys, List.map_map]
  refine (List.map_id _).symm.trans (List.map_congr_left ?_)
  intro entry h
  exact Prod.ext rfl (rows_of_mem_ofCells h)

theorem ofCells_eq_nil_iff {row : Nat} {cells : List Cell} : ofCells row cells = [] ↔ cells = [] := by
  rw [← List.map_eq_nil_iff (f := Prod.fst), List.eq_nil_iff_forall_not_mem,
    List.eq_nil_iff_forall_not_mem]
  exact forall_congr' fun k => not_congr mem_keys_ofCells

/-- The group of a key is found if the key is among the cells, and has its positions. -/
theorem find?_ofCells (k : Cell) (row : Nat) (cells : List Cell) :
    ((ofCells row cells).find? fun group => group.1 = k) =
      if rowsPassing (fun cell => decide (cell = k)) row cells = [] then none
      else some (k, rowsPassing (fun cell => decide (cell = k)) row cells) := by
  have hnil : rowsPassing (fun cell => decide (cell = k)) row cells = [] ↔
      k ∉ keys (ofCells row cells) := by
    rw [mem_keys_ofCells]
    simp only [rowsPassing_eq_nil_iff, decide_eq_false_iff_not]
    exact ⟨fun h hk => h k hk rfl, fun h cell hcell heq => h (heq ▸ hcell)⟩
  cases hfind : (ofCells row cells).find? fun group => group.1 = k with
  | none =>
    rw [if_pos]
    rw [hnil]
    intro hkey
    obtain ⟨group, hmem, rfl⟩ := List.mem_map.1 hkey
    exact List.find?_eq_none.1 hfind group hmem (decide_eq_true rfl)
  | some group =>
    have hmem := List.mem_of_find?_eq_some hfind
    have hfound := List.find?_some hfind
    obtain rfl := of_decide_eq_true hfound
    rw [if_neg, ← rows_of_mem_ofCells hmem]
    rw [hnil, not_not]
    exact List.mem_map_of_mem hmem

/-- The keys of the groups of some cells, a missing cell being none. -/
def presentKeys (groups : Groups) : List Cell := (keys groups).filter fun k => k ≠ .missing

theorem mem_presentKeys_ofCells {k : Cell} {row : Nat} {cells : List Cell} :
    k ∈ presentKeys (ofCells row cells) ↔ k ≠ .missing ∧ k ∈ cells := by
  rw [presentKeys, List.mem_filter, mem_keys_ofCells, decide_eq_true_eq, and_comm]

theorem ascending_presentKeys_ofCells (row : Nat) (cells : List Cell) :
    Cell.Ascending (presentKeys (ofCells row cells)) :=
  (ascending_keys_ofCells row cells).filter _

end Groups

namespace Table

variable {t : Table} {name : String}

theorem groups_eq_ok_iff {groups : Groups} :
    t.groups name = .ok groups ↔ ∃ c, t.FirstNamed name c ∧ Groups.ofCells 0 c.cells = groups := by
  simp only [Table.groups, map_eq_ok_iff, column_eq_ok_iff]

theorem rowsWhere_eq_ok_iff (wanted : Cell) {rows : List Nat} :
    t.rowsWhere name wanted = .ok rows ↔
      ∃ c, t.FirstNamed name c ∧ rowsPassing (·.agrees wanted) 0 c.cells = rows := by
  simp only [Table.rowsWhere, map_eq_ok_iff, column_eq_ok_iff, rowsAgreeing_eq_rowsPassing]

end Table

/-- **The keys of a column are the keys that grouping finds**, a missing cell apart. -/
theorem Table.FirstNamed.keys_iff {t : Table} {name : String} {c : Column}
    (h : t.FirstNamed name c) {keys : List Cell} :
    t.Keys name keys ↔ keys = Groups.presentKeys (Groups.ofCells 0 c.cells) := by
  have hmem : ∀ k, k ∈ Groups.presentKeys (Groups.ofCells 0 c.cells) ↔
      k ≠ .missing ∧ ∃ row, t.CellAt name row k := by
    intro k
    rw [Groups.mem_presentKeys_ofCells, h.exists_cellAt_iff]
  have hasc := Groups.ascending_presentKeys_ofCells 0 c.cells
  constructor
  · intro hkeys
    refine hkeys.1.eq_of_mem_iff hasc ?_
    intro k
    rw [hkeys.2, hmem]
  · intro hkeys
    rw [hkeys]
    exact ⟨hasc, hmem⟩

end LineChart
