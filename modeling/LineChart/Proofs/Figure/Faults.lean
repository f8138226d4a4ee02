import LineChart.Proofs.Figure.Drafts

/-!
# What is wrong with a series

A series of a description either can be drawn or has a fault. Which one it is, and which fault, is
said by the table alone, and it is what looking for the drafts of the series gives.

* `SeriesDescription.Drawable` : the conditions of a series that can be drawn.
* `SeriesDescription.Fault` : the errors of a series that cannot, coordinates first and rows last.
* `SeriesDescription.exists_drafts_iff`, `drafts_eq_error_iff` : the drafts of a series in these terms.
-/

namespace LineChart.SeriesDescription

variable {s : SeriesDescription} {t : Table}

/-- A series can be drawn: its columns plot, and there are rows to group or rows that pass the
filter. -/
structure Drawable (s : SeriesDescription) (t : Table) : Prop where
  x : s.XPlots t
  y : t.Plots s.y
  group : ∀ column, s.groupBy = some column → (∃ c, t.FirstNamed column c) ∧ 0 < t.length
  filter : ∀ f, s.filter = some f →
    ∃ c, t.FirstNamed f.column c ∧ ∃ cell ∈ c.cells, cell.agrees (Cell.ofJson f.wanted) = true

/-- What is wrong with the rows of a series: the column to group or to filter by is not there, there
are no rows to group, or none passes the filter. -/
inductive RowsFault (s : SeriesDescription) (t : Table) : ResolveError → Prop
  | groupColumn {column : String} : s.groupBy = some column → t.Lacks column →
      RowsFault s t (.table (.missingColumn column t.columnNames))
  | noRows {column : String} {c : Column} : s.groupBy = some column → t.FirstNamed column c →
      t.length = 0 → RowsFault s t (.nothingToGroup s.label column)
  | filterColumn {f : RowFilter} : s.filter = some f → t.Lacks f.column →
      RowsFault s t (.table (.missingColumn f.column t.columnNames))
  | noMatch {f : RowFilter} {c : Column} : s.filter = some f → t.FirstNamed f.column c →
      (∀ cell ∈ c.cells, cell.agrees (Cell.ofJson f.wanted) = false) →
      RowsFault s t (.nothingFound s.label f.column (Cell.ofJson f.wanted))

/-- What is wrong with a series: its x column, then its y column, then its rows. -/
inductive Fault (s : SeriesDescription) (t : Table) : ResolveError → Prop
  | points {e : TableError} : s.PointFault t e → Fault s t (.table e)
  | rows {e : ResolveError} : s.XPlots t → t.Plots s.y → s.RowsFault t e → Fault s t e

/-! ### The two cases exclude each other -/

theorem Drawable.exists_drafts (h : s.Drawable t) : ∃ expansion, s.drafts t = .ok expansion := by
  obtain ⟨points, hp⟩ := exists_points_iff.2 ⟨h.x, h.y⟩
  cases hg : s.groupBy with
  | some column =>
    obtain ⟨⟨c, hc⟩, hlen⟩ := h.group column hg
    have hne : c.cells ≠ [] := by
      rw [← List.length_pos_iff, hc.length_cells]
      exact hlen
    obtain ⟨skipped, hdrafts⟩ := (DraftsFrom.grouped hg hc hne).exists_drafts hp
    exact ⟨_, hdrafts⟩
  | none =>
    cases hf : s.filter with
    | none =>
      obtain ⟨skipped, hdrafts⟩ := (DraftsFrom.whole hg hf).exists_drafts hp
      exact ⟨_, hdrafts⟩
    | some f =>
      obtain ⟨c, hc, hcell⟩ := h.filter f hf
      obtain ⟨skipped, hdrafts⟩ := (DraftsFrom.filtered hg hf hc hcell).exists_drafts hp
      exact ⟨_, hdrafts⟩

theorem RowsFault.drafts_eq {points : List Point} {e : ResolveError} (h : s.RowsFault t e)
    (hp : s.points t = .ok points) (hone : s.filter = none ∨ s.groupBy = none) :
    s.drafts t = .error e := by
  rw [drafts, hp]
  cases h with
  | groupColumn hg hlacks =>
    have hgroups := Table.column_eq_error_iff.2 ⟨hlacks, rfl⟩
    simp only [hg, Table.groups, hgroups]
    rfl
  | @noRows column c hg hc hlen =>
    have hcells : c.cells = [] := by rw [← List.length_eq_zero_iff, hc.length_cells, hlen]
    simp only [hg, Table.groups, Table.column_eq_ok_iff.2 hc, Except.map, hcells]
    rfl
  | filterColumn hf hlacks =>
    have hg : s.groupBy = none := hone.resolve_left (by rw [hf]; exact Option.some_ne_none _)
    have hrows := Table.column_eq_error_iff.2 ⟨hlacks, rfl⟩
    simp only [hg, hf, Table.rowsWhere, hrows]
    rfl
  | @noMatch f c hf hc hnone =>
    have hg : s.groupBy = none := hone.resolve_left (by rw [hf]; exact Option.some_ne_none _)
    have hrows := (Table.rowsWhere_eq_ok_iff (Cell.ofJson f.wanted)).2 ⟨c, hc, rfl⟩
    rw [rowsPassing_eq_nil_iff.2 hnone] at hrows
    simp only [hg, hf, hrows]
    rfl

theorem Fault.drafts_eq {e : ResolveError} (h : s.Fault t e)
    (hone : s.filter = none ∨ s.groupBy = none) : s.drafts t = .error e := by
  cases h with
  | points hfault => rw [drafts, points_eq_error_iff.2 hfault]
  | rows hx hy hrows =>
    obtain ⟨points, hp⟩ := exists_points_iff.2 ⟨hx, hy⟩
    exact hrows.drafts_eq hp hone

/-! ### One of the two cases holds -/

theorem group_or_fault (s : SeriesDescription) (t : Table) :
    (∀ column, s.groupBy = some column → (∃ c, t.FirstNamed column c) ∧ 0 < t.length) ∨
      ∃ e, s.RowsFault t e := by
  cases hg : s.groupBy with
  | none => exact .inl (by simp)
  | some column =>
    rcases t.firstNamed_or_lacks column with ⟨c, hc⟩ | hlacks
    · rcases Nat.eq_zero_or_pos t.length with hlen | hlen
      · exact .inr ⟨_, .noRows hg hc hlen⟩
      · refine .inl ?_
        intro column' hcolumn
        rw [← Option.some.inj hcolumn]
        exact ⟨⟨c, hc⟩, hlen⟩
    · exact .inr ⟨_, .groupColumn hg hlacks⟩

theorem filter_or_fault (s : SeriesDescription) (t : Table) :
    (∀ f, s.filter = some f → ∃ c, t.FirstNamed f.column c ∧
      ∃ cell ∈ c.cells, cell.agrees (Cell.ofJson f.wanted) = true) ∨ ∃ e, s.RowsFault t e := by
  cases hf : s.filter with
  | none => exact .inl (by simp)
  | some f =>
    rcases t.firstNamed_or_lacks f.column with ⟨c, hc⟩ | hlacks
    · by_cases hmatch : ∃ cell ∈ c.cells, cell.agrees (Cell.ofJson f.wanted) = true
      · refine .inl ?_
        intro f' hf'
        rw [← Option.some.inj hf']
        exact ⟨c, hc, hmatch⟩
      · refine .inr ⟨_, .noMatch hf hc ?_⟩
        intro cell hcell
        exact eq_false_of_ne_true fun h => hmatch ⟨cell, hcell, h⟩
    · exact .inr ⟨_, .filterColumn hf hlacks⟩

/-- **A series can be drawn or has a fault.** -/
theorem drawable_or_fault (s : SeriesDescription) (t : Table) :
    s.Drawable t ∨ ∃ e, s.Fault t e := by
  cases hp : s.points t with
  | error e => exact .inr ⟨_, .points (points_eq_error_iff.1 hp)⟩
  | ok points =>
    obtain ⟨hx, hy⟩ := exists_points_iff.1 ⟨points, hp⟩
    rcases group_or_fault s t with hgroup | ⟨e, he⟩
    · rcases filter_or_fault s t with hfilter | ⟨e, he⟩
      · exact .inl ⟨hx, hy, hgroup, hfilter⟩
      · exact .inr ⟨e, .rows hx hy he⟩
    · exact .inr ⟨e, .rows hx hy he⟩

/-! ### Drafts by these cases -/

theorem exists_drafts_iff (hone : s.filter = none ∨ s.groupBy = none) :
    (∃ expansion, s.drafts t = .ok expansion) ↔ s.Drawable t := by
  constructor
  · intro h
    obtain ⟨expansion, hdrafts⟩ := h
    rcases s.drawable_or_fault t with h | ⟨e, he⟩
    · exact h
    · rw [he.drafts_eq hone] at hdrafts
      cases hdrafts
  · intro h
    exact h.exists_drafts

theorem drafts_eq_error_iff (hone : s.filter = none ∨ s.groupBy = none) {e : ResolveError} :
    s.drafts t = .error e ↔ s.Fault t e := by
  constructor
  · intro hdrafts
    rcases s.drawable_or_fault t with h | ⟨e', he'⟩
    · obtain ⟨expansion, hok⟩ := h.exists_drafts
      rw [hok] at hdrafts
      cases hdrafts
    · rw [he'.drafts_eq hone] at hdrafts
      rw [← Except.error.inj hdrafts]
      exact he'
  · intro h
    exact h.drafts_eq hone

end LineChart.SeriesDescription
