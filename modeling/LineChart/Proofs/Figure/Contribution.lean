import LineChart.Description.Presets
import LineChart.Proofs.Figure.Parts

/-!
# What each series contributes

The series of a figure are the shares of the series of its description, one after the other. A share
is empty if its series is grouped by a column without a single key, and only then: such a series is
passed over with a warning, and no error is raised for it.

* `SeriesDescription.Contributes` : the share that a series of a description has in a figure.
* `SeriesDescription.GroupsMissing` : a series that is grouped by missing cells alone.
* `shares_empty_iff_groups_missing` : which shares are empty, and which figures.
-/

namespace LineChart

variable {t : Table}

/-! ### Shares -/

/-- Entries that belong to lists in a row fall into as many lists. -/
theorem exists_shares {α β : Type} {R : α → β → Prop} {lists : List (List α)} {entries : List β}
    (h : List.Forall₂ R lists.flatten entries) :
    ∃ shares : List (List β), entries = shares.flatten ∧
      List.Forall₂ (List.Forall₂ R) lists shares := by
  induction lists generalizing entries with
  | nil =>
    cases h
    exact ⟨[], rfl, .nil⟩
  | cons first rest ih =>
    rw [List.flatten_cons] at h
    -- the share of the first list is as long as that list
    have hfirst : List.Forall₂ R first (entries.take first.length) := by
      have htake := List.forall₂_take first.length h
      rw [List.take_left] at htake
      exact htake
    have hrest : List.Forall₂ R rest.flatten (entries.drop first.length) := by
      have hdrop := List.forall₂_drop first.length h
      rw [List.drop_left] at hdrop
      exact hdrop
    obtain ⟨shares, hentries, hshares⟩ := ih hrest
    refine ⟨entries.take first.length :: shares, ?_, .cons hfirst hshares⟩
    rw [List.flatten_cons, ← hentries, List.take_append_drop]

/-- Some series are the drafts of a series of a description, each with a colour to use if it asks
for none. -/
def SeriesDescription.Contributes (s : SeriesDescription) (t : Table) (share : List Series) : Prop :=
  ∃ expansion, s.drafts t = .ok expansion ∧
    List.Forall₂ (fun draft line => ∃ spare, draft.series spare = .ok line) expansion.drafts share

theorem forall₂_series_paintAll {drafts : List Draft}
    (hreadable : ∀ draft ∈ drafts, Readable draft.colour) :
    List.Forall₂ (fun draft line => ∃ spare, draft.series spare = .ok line) drafts
      (paintAll drafts) := by
  rw [paintAll, List.forall₂_map_right_iff]
  refine List.forall₂_iff_zip.2 ⟨?_, ?_⟩
  · rw [List.length_zip, length_palette, Nat.min_self]
  · intro draft pair hmem
    obtain ⟨i, hi, hpair⟩ := List.mem_iff_getElem.1 hmem
    rw [List.getElem_zip, List.getElem_zip, Prod.mk.injEq] at hpair
    obtain ⟨hdraft, rfl⟩ := hpair
    subst hdraft
    exact ⟨_, Draft.series_eq_ok (hreadable _ (List.getElem_mem _)) _⟩

/-! ### Series without keys -/

namespace SeriesDescription

variable {s : SeriesDescription}

/-- A series is grouped by a column in which every cell is missing. -/
def GroupsMissing (s : SeriesDescription) (t : Table) : Prop :=
  ∃ column, s.groupBy = some column ∧ ∀ row cell, t.CellAt column row cell → cell = .missing

theorem keys_nil_iff {column : String} {keys : List Cell} (h : t.Keys column keys) :
    keys = [] ↔ ∀ row cell, t.CellAt column row cell → cell = .missing := by
  rw [List.eq_nil_iff_forall_not_mem]
  constructor
  · intro hnone row cell hcell
    by_contra hne
    exact hnone cell ((h.2 cell).2 ⟨hne, row, hcell⟩)
  · intro hmissing k hk
    obtain ⟨hne, row, hcell⟩ := (h.2 k).1 hk
    exact hne (hmissing row k hcell)

/-- **A series has no parts if it groups missing cells alone**, and only then. -/
theorem Expands.eq_nil_iff {parts : List Part} (h : s.Expands t parts) :
    parts = [] ↔ s.GroupsMissing t := by
  cases h with
  | whole hg hf => simp [GroupsMissing, hg]
  | filtered hg hf hrows => simp [GroupsMissing, hg]
  | @grouped column keys _ hg hkeys hparts =>
    have hnil : parts = [] ↔ keys = [] := by
      rw [← List.length_eq_zero_iff, ← List.length_eq_zero_iff, hparts.length_eq]
    rw [hnil, keys_nil_iff hkeys, GroupsMissing, hg]
    simp

theorem Contributes.eq_nil_iff {share : List Series} (h : s.Contributes t share) :
    share = [] ↔ s.GroupsMissing t := by
  obtain ⟨expansion, hdrafts, hshare⟩ := h
  obtain ⟨parts, hexpands, hdrafted⟩ := expands_of_drafts hdrafts
  rw [← hexpands.eq_nil_iff, ← List.length_eq_zero_iff, ← List.length_eq_zero_iff,
    ← hshare.length_eq, hdrafted.length_eq]

end SeriesDescription

/-! ### Shares of a figure -/

/-- The series of some expansions fall into shares, one for each expansion. -/
theorem exists_shares_paintAll {expansions : List Expansion}
    (hreadable : ∀ draft ∈ expansions.flatMap Expansion.drafts, Readable draft.colour) :
    ∃ shares : List (List Series),
      paintAll (expansions.flatMap Expansion.drafts) = shares.flatten ∧
        List.Forall₂ (fun expansion share => List.Forall₂
          (fun draft line => ∃ spare, draft.series spare = .ok line) expansion.drafts share)
          expansions shares := by
  have hpainted := forall₂_series_paintAll hreadable
  rw [List.flatMap_def] at hpainted
  obtain ⟨shares, hflatten, hshares⟩ := exists_shares hpainted
  rw [← List.flatMap_def] at hflatten
  exact ⟨shares, hflatten, List.forall₂_map_left_iff.1 hshares⟩

/-- The series of a figure are what the series of its description contribute, in order. -/
theorem exists_contributions {d : FigureDescription} {f : Figure}
    (h : (resolve d t).outcome = .ok f) :
    ∃ shares : List (List Series), f.series = shares.flatten ∧
      List.Forall₂ (fun s share => s.Contributes t share) d.series shares := by
  obtain ⟨hcheck, drafts, hdrafts, rfl⟩ := outcome_eq_ok_iff.1 h
  obtain ⟨expansions, hall, rfl⟩ := allDrafts_eq_ok_iff.1 hdrafts
  obtain ⟨shares, hflatten, hshares⟩ := exists_shares_paintAll fun draft hmem =>
    readable_of_mem_allDrafts (FigureDescription.check_eq_ok_iff.1 hcheck).2.2 hdrafts hmem
  exact ⟨shares, hflatten, forall₂_comp_iff.2 ⟨expansions, hall, hshares⟩⟩

/-- **Which shares of a figure are empty.** A share is empty if its series groups missing cells
alone, and the figure has no series at all if each series of the description does. -/
theorem shares_empty_iff_groups_missing {d : FigureDescription} {f : Figure}
    (h : (resolve d t).outcome = .ok f) :
    ∃ shares : List (List Series), f.series = shares.flatten ∧
      List.Forall₂ (fun s share => s.Contributes t share ∧ (share = [] ↔ s.GroupsMissing t))
        d.series shares ∧
      (f.series = [] ↔ ∀ s ∈ d.series, s.GroupsMissing t) := by
  obtain ⟨shares, hflatten, hshares⟩ := exists_contributions h
  have hempty : List.Forall₂
      (fun s share => s.Contributes t share ∧ (share = [] ↔ s.GroupsMissing t)) d.series shares :=
    hshares.imp fun _ _ hshare => ⟨hshare, hshare.eq_nil_iff⟩
  refine ⟨shares, hflatten, hempty, ?_⟩
  rw [hflatten, List.flatten_eq_nil_iff]
  exact forall_mem_iff_of_forall₂ (hempty.imp fun _ _ hs => hs.2)

/-- Requests by queue, and all of them once more. -/
def requestOverview : FigureDescription :=
  Presets.requestTimes
    [{ Presets.requestSeries "Queue \x7bkey\x7d" with groupBy := some "queue_id" },
     Presets.requestSeries "all queues"]

/-- Without a single queue, the line of all requests is the only one. -/
theorem requestOverview_shares :
    ∃ f, (resolve requestOverview (requestTable [.missing, .missing])).outcome = .ok f ∧
      f.series.map Series.label = ["all queues"] ∧
      ∃ shares : List (List Series), f.series = shares.flatten ∧
        List.Forall₂ (fun s share => s.Contributes (requestTable [.missing, .missing]) share ∧
          (share = [] ↔ s.GroupsMissing (requestTable [.missing, .missing])))
          requestOverview.series shares ∧
        (f.series = [] ↔
          ∀ s ∈ requestOverview.series, s.GroupsMissing (requestTable [.missing, .missing])) := by
  have hlabels : (resolve requestOverview (requestTable [.missing, .missing])).outcome.toOption.map
      (fun f => f.series.map Series.label) = some ["all queues"] := by
    decide +kernel
  obtain ⟨f, hf, hseries⟩ := exists_ok_of_map hlabels
  exact ⟨f, hf, hseries, shares_empty_iff_groups_missing hf⟩

/-- A figure without series: requests by queue, where no request has a queue. -/
theorem exists_figure_without_series :
    ¬ ∀ (d : FigureDescription) (t : Table) (f : Figure), (resolve d t).outcome = .ok f →
      f.series ≠ [] := by
  intro h
  have hempty : (resolve (Presets.requestTimeByQueue []) (requestTable [.missing])).outcome.toOption.map
      (fun f => f.series) = some [] := by
    decide +kernel
  obtain ⟨f, hf, hseries⟩ := exists_ok_of_map hempty
  exact h _ _ f hf hseries

end LineChart
