import LineChart.Figure.Resolution
import LineChart.Proofs.List.Related
import LineChart.Proofs.Table.Groups

/-!
# Drafts

What one series of a description becomes, by the rows of the table.

* `SeriesDescription.PointAt` : the point of a series in a row.
* `SeriesDescription.forall₂_pointAt` : the points of a series, one for each row.
* `SeriesDescription.PointFault` : what is wrong with the coordinates of a series.
* `SeriesDescription.DraftsFrom` : the drafts of a series that is grouped, filtered or neither.
* `SeriesDescription.DraftsFrom.exists_drafts`, `exists_draftsFrom` : a series has these drafts and no
  others.
-/

namespace LineChart

/-- Picking at rows that are there keeps what is said of the entry of each row. -/
theorem forall₂_pick {α : Type} {R : Nat → α → Prop} {n : Nat} {entries : List α}
    (h : List.Forall₂ R (List.range n) entries) {rows : List Nat} (hrows : ∀ r ∈ rows, r < n) :
    List.Forall₂ R rows (pick entries.toArray rows) := by
  have hlen : entries.length = n := by rw [← h.length_eq, List.length_range]
  induction rows with
  | nil => exact .nil
  | cons r rest ih =>
    obtain ⟨hr, hrest⟩ := List.forall_mem_cons.1 hrows
    have hr' : r < entries.length := by rw [hlen]; exact hr
    have hget : entries.toArray[r]? = some entries[r] := by
      rw [List.getElem?_toArray, List.getElem?_eq_getElem hr']
    have hentry := h.get (by rw [List.length_range]; exact hr) hr'
    rw [List.get_eq_getElem, List.getElem_range] at hentry
    rw [pick, List.filterMap_cons_some hget]
    exact .cons hentry (ih hrest)

theorem forall₂_zipWith_point {R S : Nat → Double → Prop} {rows : List Nat} {xs ys : List Double}
    (hx : List.Forall₂ R rows xs) (hy : List.Forall₂ S rows ys) :
    List.Forall₂ (fun row p => R row p.x ∧ S row p.y) rows (List.zipWith Point.mk xs ys) := by
  induction hx generalizing ys with
  | nil => exact .nil
  | cons hxrow _ ih =>
    obtain ⟨y, ys, hyrow, hys, rfl⟩ := List.forall₂_cons_left_iff.1 hy
    exact .cons ⟨hxrow, hyrow⟩ (ih hys)

namespace SeriesDescription

variable {s : SeriesDescription} {t : Table}

/-! ### Points of rows -/

/-- The x coordinate of a series in a row: the row number, or the number of the row's cell. -/
def XAt (s : SeriesDescription) (t : Table) (row : Nat) (x : Double) : Prop :=
  match s.x with
  | .index => x = .ofNat row
  | .column name => ∃ cell, t.CellAt name row cell ∧ cell.number? = some x

/-- The point of a series in a row: both coordinates come from this row. -/
structure PointAt (s : SeriesDescription) (t : Table) (row : Nat) (p : Point) : Prop where
  x : s.XAt t row p.x
  y : ∃ cell, t.CellAt s.y row cell ∧ cell.number? = some p.y

theorem forall₂_xAt {xs : List Double} (h : s.abscissas t = .ok xs) :
    List.Forall₂ (s.XAt t) (List.range t.length) xs := by
  rw [abscissas] at h
  unfold XAt
  cases hx : s.x with
  | index =>
    rw [hx] at h
    rw [← Except.ok.inj h, Table.index, List.forall₂_map_right_iff, List.forall₂_same]
    intro row _
    rfl
  | column name =>
    rw [hx] at h
    exact Table.forall₂_numbers h

theorem points_eq_ok_iff {points : List Point} :
    s.points t = .ok points ↔ ∃ xs ys, s.abscissas t = .ok xs ∧ t.numbers s.y = .ok ys ∧
      points = List.zipWith Point.mk xs ys := by
  rw [SeriesDescription.points]
  cases s.abscissas t with
  | error e => simp
  | ok xs =>
    cases t.numbers s.y with
    | error e => simp
    | ok ys => simp [eq_comm]

/-- **The points of a series are the points of the rows**, one for each. -/
theorem forall₂_pointAt {points : List Point} (h : s.points t = .ok points) :
    List.Forall₂ (s.PointAt t) (List.range t.length) points := by
  obtain ⟨xs, ys, hxs, hys, rfl⟩ := points_eq_ok_iff.1 h
  refine (forall₂_zipWith_point (forall₂_xAt hxs) (Table.forall₂_numbers hys)).imp ?_
  intro row p hp
  exact ⟨hp.1, hp.2⟩

/-- The x column, if there is one, plots. -/
def XPlots (s : SeriesDescription) (t : Table) : Prop := ∀ name, s.x = .column name → t.Plots name

theorem exists_abscissas_iff : (∃ xs, s.abscissas t = .ok xs) ↔ s.XPlots t := by
  rw [abscissas, XPlots]
  cases s.x with
  | index => simp
  | column name => simp [Table.exists_numbers_iff]

/-- What is wrong with the coordinates of a series: the x column is looked at before the y column. -/
inductive PointFault (s : SeriesDescription) (t : Table) : TableError → Prop
  | x {name : String} {e : TableError} : s.x = .column name → t.PlotFault name e → PointFault s t e
  | y {e : TableError} : s.XPlots t → t.PlotFault s.y e → PointFault s t e

theorem exists_points_iff : (∃ points, s.points t = .ok points) ↔ s.XPlots t ∧ t.Plots s.y := by
  rw [← exists_abscissas_iff, ← Table.exists_numbers_iff]
  constructor
  · intro h
    obtain ⟨points, h⟩ := h
    obtain ⟨xs, ys, hxs, hys, -⟩ := points_eq_ok_iff.1 h
    exact ⟨⟨xs, hxs⟩, ⟨ys, hys⟩⟩
  · intro h
    obtain ⟨⟨xs, hxs⟩, ⟨ys, hys⟩⟩ := h
    exact ⟨_, points_eq_ok_iff.2 ⟨xs, ys, hxs, hys, rfl⟩⟩

theorem abscissas_eq_error_iff {e : TableError} :
    s.abscissas t = .error e ↔ ∃ name, s.x = .column name ∧ t.PlotFault name e := by
  rw [abscissas]
  cases s.x with
  | index => simp
  | column name => simp [Table.numbers_eq_error_iff]

theorem points_eq_error_iff {e : TableError} : s.points t = .error e ↔ s.PointFault t e := by
  have hstep : s.points t = .error e ↔ s.abscissas t = .error e ∨
      (∃ xs, s.abscissas t = .ok xs) ∧ t.numbers s.y = .error e := by
    rw [SeriesDescription.points]
    cases s.abscissas t with
    | error e' => simp
    | ok xs => cases t.numbers s.y <;> simp
  rw [hstep, abscissas_eq_error_iff, exists_abscissas_iff, Table.numbers_eq_error_iff]
  constructor
  · intro h
    rcases h with ⟨name, hx, hfault⟩ | ⟨hx, hfault⟩
    · exact .x hx hfault
    · exact .y hx hfault
  · intro h
    cases h with
    | x hx hfault => exact .inl ⟨_, hx, hfault⟩
    | y hx hfault => exact .inr ⟨hx, hfault⟩

/-! ### Drafts of rows -/

variable {points : List Point} {c : Column}

/-- The draft of the rows of a series whose cell in a column passes a test. -/
def draftWhere (s : SeriesDescription) (label : String) (points : List Point)
    (test : Cell → Bool) (cells : List Cell) : Draft :=
  s.draft label (pick points.toArray (rowsPassing test 0 cells))

/-- The draft of a key: the rows that hold it. -/
def keyDraft (s : SeriesDescription) (points : List Point) (cells : List Cell) (k : Cell) : Draft :=
  s.draftWhere (s.labelOf k) points (fun cell => decide (cell = k)) cells

theorem groupDrafts_ofCells (cells : List Cell) :
    s.groupDrafts points.toArray (Groups.ofCells 0 cells) =
      (Groups.presentKeys (Groups.ofCells 0 cells)).map (s.keyDraft points cells) := by
  conv_lhs => rw [Groups.ofCells_eq_map]
  rw [groupDrafts, List.filter_map, List.map_map]
  rfl

/-- **What the drafts of a series are**, by the points of all rows: one draft for each key of its
column, one of the rows that pass its filter, or one of all rows. -/
inductive DraftsFrom (s : SeriesDescription) (t : Table) (points : List Point) : List Draft → Prop
  | grouped {column : String} {c : Column} : s.groupBy = some column → t.FirstNamed column c →
      c.cells ≠ [] → DraftsFrom s t points
        ((Groups.presentKeys (Groups.ofCells 0 c.cells)).map (s.keyDraft points c.cells))
  | filtered {f : RowFilter} {c : Column} : s.groupBy = none → s.filter = some f →
      t.FirstNamed f.column c → (∃ cell ∈ c.cells, cell.agrees (Cell.ofJson f.wanted) = true) →
      DraftsFrom s t points
        [s.draftWhere s.label points (·.agrees (Cell.ofJson f.wanted)) c.cells]
  | whole : s.groupBy = none → s.filter = none → DraftsFrom s t points [s.draft s.label points]

theorem isEmpty_ofCells {cells : List Cell} :
    (Groups.ofCells 0 cells).isEmpty = false ↔ cells ≠ [] := by
  rw [List.isEmpty_eq_false_iff]
  exact not_congr Groups.ofCells_eq_nil_iff

theorem isEmpty_rowsPassing {test : Cell → Bool} {cells : List Cell} :
    (rowsPassing test 0 cells).isEmpty = false ↔ ∃ cell ∈ cells, test cell = true := by
  rw [List.isEmpty_eq_false_iff, Ne, rowsPassing_eq_nil_iff]
  simp

theorem DraftsFrom.exists_drafts {drafts : List Draft} (hp : s.points t = .ok points)
    (h : s.DraftsFrom t points drafts) : ∃ skipped, s.drafts t = .ok ⟨drafts, skipped⟩ := by
  rw [SeriesDescription.drafts, hp]
  cases h with
  | grouped hg hc hne =>
    have hgroups := Table.groups_eq_ok_iff.2 ⟨_, hc, rfl⟩
    simp only [hg, hgroups, isEmpty_ofCells.2 hne, groupDrafts_ofCells]
    exact ⟨_, rfl⟩
  | @filtered f c hg hf hc hcell =>
    have hrows := (Table.rowsWhere_eq_ok_iff (Cell.ofJson f.wanted)).2 ⟨c, hc, rfl⟩
    simp only [hg, hf, hrows, isEmpty_rowsPassing.2 hcell]
    exact ⟨none, rfl⟩
  | whole hg hf =>
    rw [hg, hf]
    exact ⟨none, rfl⟩

theorem draftsFrom_of_groupBy {column : String} {drafts : List Draft}
    {skipped : Option (String × Nat)} (hp : s.points t = .ok points) (hg : s.groupBy = some column)
    (h : s.drafts t = .ok ⟨drafts, skipped⟩) : s.DraftsFrom t points drafts := by
  rw [SeriesDescription.drafts, hp] at h
  cases hgroups : t.groups column with
  | error e =>
    simp only [hg, hgroups] at h
    cases h
  | ok groups =>
    obtain ⟨c, hc, rfl⟩ := Table.groups_eq_ok_iff.1 hgroups
    by_cases hempty : (Groups.ofCells 0 c.cells).isEmpty = true
    · simp only [hg, hgroups, hempty] at h
      cases h
    · simp only [hg, hgroups, hempty, groupDrafts_ofCells] at h
      cases h
      exact .grouped hg hc (isEmpty_ofCells.1 (eq_false_of_ne_true hempty))

theorem draftsFrom_of_filter {f : RowFilter} {drafts : List Draft}
    {skipped : Option (String × Nat)} (hp : s.points t = .ok points) (hg : s.groupBy = none)
    (hf : s.filter = some f) (h : s.drafts t = .ok ⟨drafts, skipped⟩) :
    s.DraftsFrom t points drafts := by
  rw [SeriesDescription.drafts, hp] at h
  cases hrows : t.rowsWhere f.column (Cell.ofJson f.wanted) with
  | error e =>
    simp only [hg, hf, hrows] at h
    cases h
  | ok rows =>
    obtain ⟨c, hc, rfl⟩ := (Table.rowsWhere_eq_ok_iff _).1 hrows
    by_cases hempty : (rowsPassing (·.agrees (Cell.ofJson f.wanted)) 0 c.cells).isEmpty = true
    · simp only [hg, hf, hrows, hempty] at h
      cases h
    · simp only [hg, hf, hrows, hempty] at h
      cases h
      exact .filtered hg hf hc (isEmpty_rowsPassing.1 (eq_false_of_ne_true hempty))

/-- **The drafts of a series come from its points.** -/
theorem exists_draftsFrom {drafts : List Draft} {skipped : Option (String × Nat)}
    (h : s.drafts t = .ok ⟨drafts, skipped⟩) :
    ∃ points, s.points t = .ok points ∧ s.DraftsFrom t points drafts := by
  cases hp : s.points t with
  | error e =>
    rw [SeriesDescription.drafts, hp] at h
    cases h
  | ok points =>
    refine ⟨points, rfl, ?_⟩
    cases hg : s.groupBy with
    | some column => exact draftsFrom_of_groupBy hp hg h
    | none =>
      cases hf : s.filter with
      | some f => exact draftsFrom_of_filter hp hg hf h
      | none =>
        rw [SeriesDescription.drafts, hp, hg, hf] at h
        cases h
        exact .whole hg hf

end SeriesDescription

end LineChart
