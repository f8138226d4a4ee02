import LineChart.Table.Basic
import Mathlib.Data.List.Forall2

/-!
# Columns by name

What a table holds under a name, said without the search that finds it, and what the search and the
reading of plotted numbers give in terms of it.

* `Table.FirstNamed`, `Table.Lacks` : the first column of a name, or none at all.
* `Table.CellAt` : the cell in a row of the first column of a name.
* `Table.Plots` : a column that is there and holds no text.
* `Table.PlotFault` : what is wrong with a column that does not plot.
-/

namespace LineChart

/-! ### Results -/

section

variable {ε α β : Type} {result : Except ε α} {g : α → β}

theorem map_eq_ok_iff {b : β} : result.map g = .ok b ↔ ∃ a, result = .ok a ∧ g a = b := by
  cases result <;> simp [Except.map]

theorem map_eq_error_iff {e : ε} : result.map g = .error e ↔ result = .error e := by
  cases result <;> simp [Except.map]

/-- A result with a known value is no error. -/
theorem exists_ok_of_map {b : β} (h : result.toOption.map g = some b) :
    ∃ a, result = .ok a ∧ g a = b := by
  cases result with
  | error e => cases h
  | ok a => exact ⟨a, rfl, Option.some.inj h⟩

end

/-! ### Cells with a number -/

theorem Cell.number?_eq_none_iff {cell : Cell} : cell.number? = none ↔ ∃ s, cell = .text s := by
  cases cell <;> simp [Cell.number?]

namespace Table

variable {t : Table} {name : String} {c : Column}

/-! ### The first column of a name -/

/-- The first column of a name. -/
def FirstNamed (t : Table) (name : String) (c : Column) : Prop :=
  ∃ before after, t.columns = before ++ c :: after ∧ c.name = name ∧ ∀ b ∈ before, b.name ≠ name

/-- No column has the name. -/
def Lacks (t : Table) (name : String) : Prop := ∀ c ∈ t.columns, c.name ≠ name

theorem column_eq_ok_iff : t.column name = .ok c ↔ t.FirstNamed name c := by
  have hfind : t.column name = .ok c ↔ t.columns.find? (fun c => c.name = name) = some c := by
    rw [column]
    cases t.columns.find? fun c => c.name = name <;> simp
  rw [hfind, List.find?_eq_some_iff_append]
  constructor
  · intro h
    obtain ⟨hname, before, after, hcols, hbefore⟩ := h
    exact ⟨before, after, hcols, by simpa using hname, by simpa using hbefore⟩
  · intro h
    obtain ⟨before, after, hcols, hname, hbefore⟩ := h
    exact ⟨by simpa using hname, before, after, hcols, by simpa using hbefore⟩

/-- A column is found by its name if all columns of that name are equal to it. -/
theorem column_eq_ok_of_forall (hmem : c ∈ t.columns)
    (hsame : ∀ other ∈ t.columns, other.name = c.name → other = c) : t.column c.name = .ok c := by
  rw [column]
  cases hfound : t.columns.find? fun other => other.name = c.name with
  | none => exact absurd (List.find?_eq_none.1 hfound c hmem) (by simp)
  | some other =>
    rw [hsame other (List.mem_of_find?_eq_some hfound) (by simpa using List.find?_some hfound)]

theorem column_eq_error_iff {e : TableError} :
    t.column name = .error e ↔ t.Lacks name ∧ e = .missingColumn name t.columnNames := by
  rw [column]
  cases hfind : t.columns.find? fun c => c.name = name with
  | none =>
    have hlacks : t.Lacks name := by simpa [Lacks] using hfind
    simp only [Except.error.injEq, hlacks, true_and]
    exact eq_comm
  | some c =>
    have hname : c.name = name := by simpa using List.find?_some hfind
    have hlacks : ¬ t.Lacks name := fun h => h c (List.mem_of_find?_eq_some hfind) hname
    simp [hlacks]

theorem firstNamed_or_lacks (t : Table) (name : String) :
    (∃ c, t.FirstNamed name c) ∨ t.Lacks name := by
  cases h : t.column name with
  | ok c => exact .inl ⟨c, column_eq_ok_iff.1 h⟩
  | error e => exact .inr (column_eq_error_iff.1 h).1

theorem FirstNamed.unique {c' : Column} (h : t.FirstNamed name c) (h' : t.FirstNamed name c') :
    c = c' := by
  have heq := column_eq_ok_iff.2 h
  rw [column_eq_ok_iff.2 h'] at heq
  exact (Except.ok.inj heq).symm

theorem FirstNamed.mem_columns (h : t.FirstNamed name c) : c ∈ t.columns := by
  obtain ⟨before, after, hcols, -, -⟩ := h
  rw [hcols]
  exact List.mem_append_right before List.mem_cons_self

theorem FirstNamed.not_lacks (h : t.FirstNamed name c) : ¬ t.Lacks name := by
  intro hlacks
  have hmem := h.mem_columns
  obtain ⟨-, -, -, hname, -⟩ := h
  exact hlacks c hmem hname

/-- **Every column has a cell for each row**, as tables are rectangular. -/
theorem FirstNamed.length_cells (h : t.FirstNamed name c) : c.cells.length = t.length :=
  t.rectangular c h.mem_columns

/-! ### Cells by row -/

/-- The cell in a row of the first column of a name. -/
def CellAt (t : Table) (name : String) (row : Nat) (cell : Cell) : Prop :=
  ∃ c, t.FirstNamed name c ∧ c.cells[row]? = some cell

theorem FirstNamed.cellAt_iff (h : t.FirstNamed name c) {row : Nat} {cell : Cell} :
    t.CellAt name row cell ↔ c.cells[row]? = some cell := by
  constructor
  · intro hat
    obtain ⟨c', h', hcell⟩ := hat
    rw [h.unique h']
    exact hcell
  · intro hcell
    exact ⟨c, h, hcell⟩

/-- A row has one cell in a column. -/
theorem CellAt.unique {row : Nat} {cell cell' : Cell} (h : t.CellAt name row cell)
    (h' : t.CellAt name row cell') : cell = cell' := by
  obtain ⟨c, hc, hcell⟩ := h
  rw [hc.cellAt_iff, hcell] at h'
  exact Option.some.inj h'

theorem CellAt.lt_length {row : Nat} {cell : Cell} (h : t.CellAt name row cell) :
    row < t.length := by
  obtain ⟨c, hc, hcell⟩ := h
  rw [← hc.length_cells]
  exact (List.getElem?_eq_some_iff.1 hcell).1

/-- A column that is there has a cell in each row of the table. -/
theorem FirstNamed.lt_length_iff (h : t.FirstNamed name c) (row : Nat) :
    row < t.length ↔ ∃ k, t.CellAt name row k := by
  rw [← h.length_cells]
  constructor
  · intro hrow
    exact ⟨c.cells[row], h.cellAt_iff.2 (List.getElem?_eq_getElem hrow)⟩
  · rintro ⟨k, hk⟩
    rw [h.length_cells]
    exact hk.lt_length

/-! ### Plotted numbers -/

theorem numbersFrom_text {row : Nat} {s : String} {rest : List Cell} :
    numbersFrom name row (.text s :: rest) = .error (.notNumeric name row s) := rfl

theorem numbersFrom_cons {row : Nat} {cell : Cell} {rest : List Cell} {x : Double}
    (h : cell.number? = some x) :
    numbersFrom name row (cell :: rest) = (numbersFrom name (row + 1) rest).map (x :: ·) := by
  rw [numbersFrom, h]
  cases numbersFrom name (row + 1) rest <;> rfl

theorem numbersFrom_eq_ok_iff {row : Nat} {cells : List Cell} {xs : List Double} :
    numbersFrom name row cells = .ok xs ↔
      List.Forall₂ (fun cell x => cell.number? = some x) cells xs := by
  induction cells generalizing row xs with
  | nil => simp [numbersFrom, eq_comm]
  | cons cell rest ih =>
    rw [List.forall₂_cons_left_iff]
    cases hcell : cell.number? with
    | none =>
      obtain ⟨s, rfl⟩ := Cell.number?_eq_none_iff.1 hcell
      simp [numbersFrom_text]
    | some x =>
      rw [numbersFrom_cons hcell, map_eq_ok_iff]
      constructor
      · intro h
        obtain ⟨ys, hrest, hxs⟩ := h
        exact ⟨x, ys, rfl, ih.1 hrest, hxs.symm⟩
      · intro h
        obtain ⟨y, ys, hy, hys, rfl⟩ := h
        exact ⟨ys, ih.2 hys, by rw [Option.some.inj hy]⟩

theorem numbersFrom_cons_eq_error_iff {row : Nat} {cell : Cell} {rest : List Cell}
    {e : TableError} : numbersFrom name row (cell :: rest) = .error e ↔
      (∃ s, cell = .text s ∧ e = .notNumeric name row s) ∨
        (∀ s, cell ≠ .text s) ∧ numbersFrom name (row + 1) rest = .error e := by
  cases hcell : cell.number? with
  | none =>
    obtain ⟨s, rfl⟩ := Cell.number?_eq_none_iff.1 hcell
    simp [numbersFrom_text, eq_comm]
  | some x =>
    have hnot : ∀ s, cell ≠ .text s := by
      intro s hs
      rw [Cell.number?_eq_none_iff.2 ⟨s, hs⟩] at hcell
      cases hcell
    rw [numbersFrom_cons hcell, map_eq_error_iff]
    simp [hnot]

/-- **The first text among some cells is what keeps them from having numbers.** -/
theorem numbersFrom_eq_error_iff {row : Nat} {cells : List Cell} {e : TableError} :
    numbersFrom name row cells = .error e ↔
      ∃ before s after, cells = before ++ .text s :: after ∧ (∀ s, Cell.text s ∉ before) ∧
        e = .notNumeric name (row + before.length) s := by
  induction cells generalizing row with
  | nil => simp [numbersFrom]
  | cons cell rest ih =>
    have hrow : ∀ before : List Cell, row + 1 + before.length = row + (cell :: before).length := by
      intro before
      rw [List.length_cons]
      omega
    rw [numbersFrom_cons_eq_error_iff, ih]
    constructor
    · intro h
      rcases h with ⟨s, rfl, he⟩ | ⟨hnot, before, s, after, rfl, hbefore, he⟩
      · exact ⟨[], s, rest, rfl, by simp, he⟩
      · refine ⟨cell :: before, s, after, rfl, ?_, by rw [he, hrow]⟩
        intro s' hs'
        rcases List.mem_cons.1 hs' with hcell | hmem
        · exact hnot s' hcell.symm
        · exact hbefore s' hmem
    · intro h
      obtain ⟨before, s, after, hcells, hbefore, he⟩ := h
      cases before with
      | nil => exact .inl ⟨s, (List.cons.inj hcells).1, he⟩
      | cons b before =>
        obtain ⟨rfl, rfl⟩ := List.cons.inj hcells
        refine .inr ⟨?_, before, s, after, rfl, ?_, by rw [he, hrow]⟩
        · intro s' hs'
          exact hbefore s' (by rw [hs']; exact List.mem_cons_self)
        · intro s' hs'
          exact hbefore s' (List.mem_cons_of_mem _ hs')

/-- A column is there and holds no text. -/
def Plots (t : Table) (name : String) : Prop :=
  ∃ c, t.FirstNamed name c ∧ ∀ s, Cell.text s ∉ c.cells

/-- What is wrong with a column that does not plot: it is not there, or it holds text, the first of
which is named. -/
inductive PlotFault (t : Table) (name : String) : TableError → Prop
  | missing : t.Lacks name → PlotFault t name (.missingColumn name t.columnNames)
  | text {c : Column} {before after : List Cell} {s : String} : t.FirstNamed name c →
      c.cells = before ++ .text s :: after → (∀ s, Cell.text s ∉ before) →
      PlotFault t name (.notNumeric name before.length s)

theorem numbers_eq_ok_iff {xs : List Double} :
    t.numbers name = .ok xs ↔
      ∃ c, t.FirstNamed name c ∧ List.Forall₂ (fun cell x => cell.number? = some x) c.cells xs := by
  rw [numbers]
  cases hc : t.column name with
  | error e =>
    have hlacks := (column_eq_error_iff.1 hc).1
    constructor
    · intro h
      cases h
    · intro h
      obtain ⟨c, hfirst, -⟩ := h
      exact absurd hlacks hfirst.not_lacks
  | ok c =>
    have hfirst := column_eq_ok_iff.1 hc
    show numbersFrom name 0 c.cells = .ok xs ↔ _
    rw [numbersFrom_eq_ok_iff]
    constructor
    · intro h
      exact ⟨c, hfirst, h⟩
    · intro h
      obtain ⟨c', hfirst', h⟩ := h
      rw [hfirst.unique hfirst']
      exact h

theorem numbers_eq_error_iff {e : TableError} :
    t.numbers name = .error e ↔ t.PlotFault name e := by
  rw [numbers]
  cases hc : t.column name with
  | error e' =>
    obtain ⟨hlacks, rfl⟩ := column_eq_error_iff.1 hc
    constructor
    · intro h
      rw [← Except.error.inj h]
      exact .missing hlacks
    · intro h
      cases h with
      | missing => rfl
      | text hfirst => exact absurd hlacks hfirst.not_lacks
  | ok c =>
    have hfirst := column_eq_ok_iff.1 hc
    show numbersFrom name 0 c.cells = .error e ↔ _
    rw [numbersFrom_eq_error_iff]
    constructor
    · intro h
      obtain ⟨before, s, after, hcells, hbefore, rfl⟩ := h
      rw [Nat.zero_add]
      exact .text hfirst hcells hbefore
    · intro h
      cases h with
      | missing hlacks => exact absurd hlacks hfirst.not_lacks
      | text hfirst' hcells hbefore =>
        rw [← hfirst.unique hfirst'] at hcells
        exact ⟨_, _, _, hcells, hbefore, by rw [Nat.zero_add]⟩

/-- **A column has numbers exactly if it plots.** -/
theorem exists_numbers_iff : (∃ xs, t.numbers name = .ok xs) ↔ t.Plots name := by
  constructor
  · intro h
    obtain ⟨xs, hxs⟩ := h
    obtain ⟨c, hfirst, hall⟩ := numbers_eq_ok_iff.1 hxs
    refine ⟨c, hfirst, ?_⟩
    intro s hs
    obtain ⟨i, hi, hget⟩ := List.mem_iff_getElem.1 hs
    have hnum := hall.get hi (by rw [← hall.length_eq]; exact hi)
    rw [List.get_eq_getElem, hget] at hnum
    cases hnum
  · intro h
    obtain ⟨c, hfirst, htext⟩ := h
    cases h : t.numbers name with
    | ok xs => exact ⟨xs, rfl⟩
    | error e =>
      cases numbers_eq_error_iff.1 h with
      | missing hlacks => exact absurd hlacks hfirst.not_lacks
      | @text c' before after s hfirst' hcells =>
        have hmem : Cell.text s ∈ c.cells := by
          rw [hfirst.unique hfirst', hcells]
          exact List.mem_append_right _ List.mem_cons_self
        exact absurd hmem (htext s)

/-- **The numbers of a column are the numbers of its rows**, one for each. -/
theorem forall₂_numbers {xs : List Double} (h : t.numbers name = .ok xs) :
    List.Forall₂ (fun row x => ∃ cell, t.CellAt name row cell ∧ cell.number? = some x)
      (List.range t.length) xs := by
  obtain ⟨c, hfirst, hall⟩ := numbers_eq_ok_iff.1 h
  have hlen : xs.length = t.length := by rw [← hall.length_eq, hfirst.length_cells]
  refine List.forall₂_iff_get.2 ⟨by rw [List.length_range, hlen], ?_⟩
  intro row hrange hrow
  have hrow' : row < c.cells.length := by rw [hall.length_eq]; exact hrow
  refine ⟨c.cells[row], ⟨c, hfirst, ?_⟩, hall.get hrow' hrow⟩
  rw [List.get_eq_getElem, List.getElem_range, List.getElem?_eq_getElem hrow']

end Table

end LineChart
