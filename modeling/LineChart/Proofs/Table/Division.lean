import LineChart.Proofs.Table.Rows

/-!
# Rows divided among groups

Grouping divides the rows of a table: every row is in the group of its cell and in no other. A filter
compares cells more loosely than grouping does, but a cell agrees with a value exactly if its key does,
so a filter keeps whole groups and puts their rows together in ascending order.

* `Groups.Divides` : groups that divide the rows of a column.
* `Groups.divides_ofCells` : the groups of a column do.
* `mergeRows` : ascending lists of rows put together in ascending order.
* `Table.groups_divide_rows` : the groups of every column that is there divide its rows.
* `Table.rowsWhere_eq_mergeRows` : a filter's rows are those of the groups whose keys agree.
-/

namespace LineChart

/-! ### Groups that divide rows -/

/-- Groups that divide the rows of a column: keys ascend, so do the rows of each key, of which there is
at least one, they are the rows whose cell has the place of the key, and each row of the table is in
exactly one group. -/
structure Groups.Divides (groups : Groups) (t : Table) (name : String) : Prop where
  keys_ascending : Cell.Ascending (keys groups)
  rows_ne_nil : ∀ group ∈ groups, group.2 ≠ []
  rows_ascending : ∀ group ∈ groups, group.2.Pairwise (· < ·)
  mem_rows_iff : ∀ group ∈ groups, ∀ row,
    row ∈ group.2 ↔ ∃ cell, t.CellAt name row cell ∧ cell.order group.1 = .eq
  one_group : ∀ row < t.length, ∃! group, group ∈ groups ∧ row ∈ group.2

variable {t : Table} {name : String} {c : Column}

/-- A name among those of the columns stands for a column. -/
theorem Table.exists_firstNamed (h : name ∈ t.columnNames) : ∃ c, t.FirstNamed name c := by
  rcases t.firstNamed_or_lacks name with hfirst | hlacks
  · exact hfirst
  · obtain ⟨c, hc, hname⟩ := List.mem_map.1 h
    exact absurd hname (hlacks c hc)

namespace Groups

variable {group group' : Cell × List Nat} {groups : Groups}

/-- Groups with one key are one group, as keys ascend. -/
theorem eq_of_key_eq (h : Cell.Ascending (keys groups)) (hmem : group ∈ groups)
    (hmem' : group' ∈ groups) (hkey : group.1 = group'.1) : group = group' :=
  List.inj_on_of_nodup_map h.nodup hmem hmem' hkey

/-- The rows of a group are the rows whose cell is its key. -/
theorem mem_rows_ofCells (hc : t.FirstNamed name c) (h : group ∈ ofCells 0 c.cells) {row : Nat} :
    row ∈ group.2 ↔ t.CellAt name row group.1 := by
  rw [rows_of_mem_ofCells h, (hc.rowsWhere fun cell => decide (cell = group.1)).2]
  simp

/-- The key of a group is the cell of some row. -/
theorem rows_ne_nil_of_mem_ofCells (hc : t.FirstNamed name c) (h : group ∈ ofCells 0 c.cells) :
    group.2 ≠ [] := by
  have hkey : group.1 ∈ c.cells := mem_keys_ofCells.1 (List.mem_map_of_mem h)
  obtain ⟨row, hrow⟩ := hc.exists_cellAt_iff.2 hkey
  exact List.ne_nil_of_mem ((mem_rows_ofCells hc h).2 hrow)

/-- **The groups of a column divide its rows.** -/
theorem divides_ofCells (hc : t.FirstNamed name c) : (ofCells 0 c.cells).Divides t name := by
  have hascending := ascending_keys_ofCells 0 c.cells
  refine ⟨hascending, fun group h => rows_ne_nil_of_mem_ofCells hc h, fun group h => ?_,
    fun group h row => ?_, fun row hrow => ?_⟩
  · rw [rows_of_mem_ofCells h]
    exact pairwise_rowsPassing _ 0 c.cells
  · simp only [mem_rows_ofCells hc h, Cell.order_eq_iff, exists_eq_right]
  · -- the group of the row is that of its cell, and a row has one cell only
    obtain ⟨cell, hcell⟩ := (hc.lt_length_iff row).1 hrow
    obtain ⟨rows, hmem, hin⟩ :=
      (Table.cellAt_iff_mem_groups (Table.groups_eq_ok_iff.2 ⟨c, hc, rfl⟩) row cell).1 hcell
    refine ⟨(cell, rows), ⟨hmem, hin⟩, ?_⟩
    rintro group ⟨hmem', hin'⟩
    have hcell' := (mem_rows_ofCells hc hmem').1 hin'
    exact eq_of_key_eq hascending hmem' hmem (hcell'.unique hcell)

namespace Divides

variable (h : groups.Divides t name)

include h

/-- Rows are in one group exactly if their cells have one place. -/
theorem same_group_iff {row row' : Nat} {cell cell' : Cell} (hcell : t.CellAt name row cell)
    (hcell' : t.CellAt name row' cell') :
    (∃ group ∈ groups, row ∈ group.2 ∧ row' ∈ group.2) ↔ cell.order cell' = .eq := by
  have hkey : ∀ {row : Nat} {cell : Cell}, t.CellAt name row cell → ∀ group ∈ groups,
      (row ∈ group.2 ↔ cell = group.1) := by
    intro row cell hcell group hmem
    rw [h.mem_rows_iff group hmem]
    constructor
    · rintro ⟨other, hother, hplace⟩
      rw [hcell.unique hother]
      exact Cell.order_eq_iff.1 hplace
    · rintro rfl
      exact ⟨_, hcell, Cell.order_eq_iff.2 rfl⟩
  rw [Cell.order_eq_iff]
  constructor
  · rintro ⟨group, hmem, hrow, hrow'⟩
    rw [(hkey hcell group hmem).1 hrow, (hkey hcell' group hmem).1 hrow']
  · rintro rfl
    obtain ⟨group, ⟨hmem, hrow⟩, -⟩ := h.one_group row hcell.lt_length
    exact ⟨group, hmem, hrow, (hkey hcell' group hmem).2 ((hkey hcell group hmem).1 hrow)⟩

/-- No row occurs twice in the groups, however many of them are left out. -/
theorem nodup_rows {part : Groups} (hpart : part.Sublist groups) :
    (part.map Prod.snd).flatten.Nodup := by
  rw [List.nodup_flatten]
  constructor
  · intro rows hrows
    obtain ⟨group, hmem, rfl⟩ := List.mem_map.1 hrows
    exact (h.rows_ascending group (hpart.subset hmem)).imp Nat.ne_of_lt
  · -- a row of two groups has a cell with the place of both keys
    have hkeys : part.Pairwise fun group group' => group.1.order group'.1 = .lt :=
      (List.pairwise_map.1 h.keys_ascending).sublist hpart
    rw [List.pairwise_map]
    refine hkeys.imp_of_mem ?_
    intro group group' hmem hmem' hlt row hrow hrow'
    obtain ⟨cell, hcell, hplace⟩ := (h.mem_rows_iff group (hpart.subset hmem) row).1 hrow
    obtain ⟨cell', hcell', hplace'⟩ := (h.mem_rows_iff group' (hpart.subset hmem') row).1 hrow'
    rw [← Cell.order_eq_iff.1 hplace, ← Cell.order_eq_iff.1 hplace', hcell.unique hcell'] at hlt
    exact Cell.order_self_ne_lt _ hlt

end Divides

end Groups

/-! ### Rows put together -/

/-- Ascending lists of rows, put together in ascending order. -/
def mergeRows (lists : List (List Nat)) : List Nat :=
  lists.foldr (fun rows merged => rows.merge merged fun a b => decide (a ≤ b)) []

theorem mergeRows_perm (lists : List (List Nat)) : (mergeRows lists).Perm lists.flatten := by
  induction lists with
  | nil => exact .refl _
  | cons rows rest ih => exact (List.merge_perm_append _).trans (ih.append_left rows)

theorem pairwise_mergeRows {lists : List (List Nat)} (h : ∀ rows ∈ lists, rows.Pairwise (· ≤ ·)) :
    (mergeRows lists).Pairwise (· ≤ ·) := by
  induction lists with
  | nil => exact .nil
  | cons rows rest ih =>
    obtain ⟨hrows, hrest⟩ := List.forall_mem_cons.1 h
    have hmerged : ((rows.merge (mergeRows rest) fun a b => decide (a ≤ b))).Pairwise
        fun a b => decide (a ≤ b) = true := by
      refine List.pairwise_merge ?_ ?_ rows _ ?_ ?_
      · intro a b c hab hbc
        exact decide_eq_true ((of_decide_eq_true hab).trans (of_decide_eq_true hbc))
      · intro a b
        simpa using Nat.le_total a b
      · exact hrows.imp fun hle => decide_eq_true hle
      · exact (ih hrest).imp fun hle => decide_eq_true hle
    exact hmerged.imp fun hle => of_decide_eq_true hle

/-- Rows that ascend and are those of some lists without repetition are the lists put together. -/
theorem eq_mergeRows {rows : List Nat} {lists : List (List Nat)} (hrows : rows.Pairwise (· < ·))
    (hlists : ∀ list ∈ lists, list.Pairwise (· < ·)) (hnodup : lists.flatten.Nodup)
    (h : ∀ row, row ∈ rows ↔ ∃ list ∈ lists, row ∈ list) : rows = mergeRows lists := by
  have hperm : rows.Perm (mergeRows lists) := by
    refine .trans ?_ (mergeRows_perm lists).symm
    refine (List.perm_ext_iff_of_nodup (hrows.imp Nat.ne_of_lt) hnodup).2 ?_
    intro row
    rw [h, List.mem_flatten]
  refine hperm.eq_of_pairwise (fun a b _ _ => Nat.le_antisymm) (hrows.imp Nat.le_of_lt) ?_
  exact pairwise_mergeRows fun list hmem => (hlists list hmem).imp Nat.le_of_lt

/-- **Filtering keeps whole groups.** The rows whose cell agrees with a value are the rows of the
groups whose key does, put together. -/
theorem Table.FirstNamed.rowsPassing_eq_mergeRows (hc : t.FirstNamed name c)
    (test : Cell → Bool) : rowsPassing test 0 c.cells =
      mergeRows (((Groups.ofCells 0 c.cells).filter fun group => test group.1).map Prod.snd) := by
  have hdivides := Groups.divides_ofCells hc
  have hrows := hc.rowsWhere test
  refine eq_mergeRows hrows.1 ?_ (hdivides.nodup_rows List.filter_sublist) ?_
  · intro list hmem
    obtain ⟨group, hgroup, rfl⟩ := List.mem_map.1 hmem
    exact hdivides.rows_ascending group (List.mem_of_mem_filter hgroup)
  · intro row
    rw [hrows.2]
    constructor
    · rintro ⟨cell, hcell, htest⟩
      obtain ⟨group, ⟨hmem, hrow⟩, -⟩ := hdivides.one_group row hcell.lt_length
      have hkey := hcell.unique ((Groups.mem_rows_ofCells hc hmem).1 hrow)
      exact ⟨group.2, List.mem_map_of_mem (List.mem_filter.2 ⟨hmem, hkey ▸ htest⟩), hrow⟩
    · rintro ⟨list, hmem, hrow⟩
      obtain ⟨group, hgroup, rfl⟩ := List.mem_map.1 hmem
      obtain ⟨hgroup, htest⟩ := List.mem_filter.1 hgroup
      exact ⟨group.1, (Groups.mem_rows_ofCells hc hgroup).1 hrow, htest⟩

namespace Table

/-! ### Columns that are there -/

/-- **The groups of a column divide the rows of the table.** Keys ascend, each key has rows, which
ascend and are those whose cell has the place of the key, and every row is in exactly one group.
Numbers share a group exactly if their bits are the same. -/
theorem groups_divide_rows (t : Table) (name : String) (h : name ∈ t.columnNames) :
    ∃ groups, t.groups name = .ok groups ∧ groups.Divides t name ∧
      ∀ row row' x y, t.CellAt name row (.number x) → t.CellAt name row' (.number y) →
        ((∃ group ∈ groups, row ∈ group.2 ∧ row' ∈ group.2) ↔ x.toBits = y.toBits) := by
  obtain ⟨c, hc⟩ := exists_firstNamed h
  have hdivides := Groups.divides_ofCells hc
  refine ⟨_, groups_eq_ok_iff.2 ⟨c, hc, rfl⟩, hdivides, ?_⟩
  intro row row' x y hx hy
  rw [hdivides.same_group_iff hx hy, Cell.order_eq_iff, Cell.number.injEq]
  constructor
  · rintro rfl
    rfl
  · intro hbits
    rw [← Binary.ofBits_toBits x, ← Binary.ofBits_toBits y, hbits]

/-- Cells that grouping tells apart, although filters take some of them for one another. -/
def looseQueues : Table where
  columns := [⟨"queue", [.number .zero, .integer 1, .number .nan, .number (.ofNat 1), .missing,
    .number .negativeZero, .number .nan, .integer 1]⟩]
  rectangular := by simp [rowCount]

theorem groups_divide_rows_looseQueues :
    "queue" ∈ looseQueues.columnNames ∧
      ∃ groups, looseQueues.groups "queue" = .ok groups ∧
        groups.map Prod.snd = [[4], [1, 7], [5], [0], [3], [2, 6]] ∧
        groups.Divides looseQueues "queue" := by
  have hname : "queue" ∈ looseQueues.columnNames := List.mem_singleton_self _
  obtain ⟨groups, hgroups, hdivides, -⟩ := groups_divide_rows looseQueues "queue" hname
  have hrows : (looseQueues.groups "queue").toOption.map (fun groups => groups.map Prod.snd) =
      some [[4], [1, 7], [5], [0], [3], [2, 6]] := by
    decide +kernel
  rw [hgroups] at hrows
  exact ⟨hname, groups, hgroups, Option.some.inj hrows, hdivides⟩

/-- **A filter's rows are those of the groups whose keys agree**, put together in ascending order. All
rows of a group pass the filter or none does. -/
theorem rowsWhere_eq_mergeRows (t : Table) (name : String) (wanted : Cell)
    (h : name ∈ t.columnNames) :
    ∃ groups rows, t.groups name = .ok groups ∧ t.rowsWhere name wanted = .ok rows ∧
      rows = mergeRows ((groups.filter fun group => group.1.agrees wanted).map Prod.snd) ∧
      ∀ group ∈ groups, if group.1.agrees wanted = true then ∀ row ∈ group.2, row ∈ rows
        else ∀ row ∈ group.2, row ∉ rows := by
  obtain ⟨c, hc⟩ := exists_firstNamed h
  have hmerged := hc.rowsPassing_eq_mergeRows (·.agrees wanted)
  refine ⟨_, _, groups_eq_ok_iff.2 ⟨c, hc, rfl⟩, (rowsWhere_eq_ok_iff wanted).2 ⟨c, hc, rfl⟩,
    hmerged, ?_⟩
  have hrows := (hc.rowsWhere (·.agrees wanted)).2
  intro group hmem
  split
  · next hagrees =>
    intro row hrow
    exact (hrows row).2 ⟨group.1, (Groups.mem_rows_ofCells hc hmem).1 hrow, hagrees⟩
  · next hnot =>
    intro row hrow hfound
    obtain ⟨cell, hcell, hagrees⟩ := (hrows row).1 hfound
    rw [hcell.unique ((Groups.mem_rows_ofCells hc hmem).1 hrow)] at hagrees
    exact hnot hagrees

/-- Filtering by one keeps the group of the integer and the group of the number, and by a zero the
groups of both zeros. -/
theorem rowsWhere_looseQueues :
    "queue" ∈ looseQueues.columnNames ∧
      (∃ groups rows, looseQueues.groups "queue" = .ok groups ∧
        looseQueues.rowsWhere "queue" (.integer 1) = .ok rows ∧ rows = [1, 3, 7] ∧
        rows = mergeRows ((groups.filter fun group => group.1.agrees (.integer 1)).map Prod.snd)) ∧
      ∃ groups rows, looseQueues.groups "queue" = .ok groups ∧
        looseQueues.rowsWhere "queue" (.number .zero) = .ok rows ∧ rows = [0, 5] ∧
        rows = mergeRows
          ((groups.filter fun group => group.1.agrees (.number .zero)).map Prod.snd) := by
  have hname : "queue" ∈ looseQueues.columnNames := List.mem_singleton_self _
  have hfound : ∀ wanted found, (looseQueues.rowsWhere "queue" wanted).toOption = some found →
      ∃ groups rows, looseQueues.groups "queue" = .ok groups ∧
        looseQueues.rowsWhere "queue" wanted = .ok rows ∧ rows = found ∧
        rows = mergeRows ((groups.filter fun group => group.1.agrees wanted).map Prod.snd) := by
    intro wanted found h
    obtain ⟨groups, rows, hgroups, hrows, hmerged, -⟩ :=
      rowsWhere_eq_mergeRows looseQueues "queue" wanted hname
    rw [hrows] at h
    exact ⟨groups, rows, hgroups, hrows, Option.some.inj h, hmerged⟩
  exact ⟨hname, hfound _ _ (by decide +kernel), hfound _ _ (by decide +kernel)⟩

end Table

end LineChart
