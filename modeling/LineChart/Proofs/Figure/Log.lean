import LineChart.Proofs.Figure.Outcome

/-!
# The log of resolving

Behind an outcome without an error, the log has the warnings about all series of the description,
and after them one entry for each series of the figure.

* `expandAll_fst`, `finishAll_fst` : what the two loops of `resolve` add to the log.
* `log_of_check` : the log of a description that resolves.
* `SeriesDescription.skipped_of_groupBy`, `skipped_of_ungrouped` : the rows that a series passes over.
-/

namespace LineChart

variable {t : Table}

/-! ### The two loops -/

/-- Expanding series that have drafts notes the warnings about them, one series after the other. -/
theorem expandAll_fst {series : List SeriesDescription} {expansions : List Expansion}
    (h : List.Forall₂ (fun s expansion => s.drafts t = .ok expansion) series expansions)
    (log : List LogEntry) :
    (expandAll t log series).1 = log ++
      (series.zip expansions).flatMap fun entry => entry.2.warnings entry.1.label := by
  induction h generalizing log with
  | nil => exact (List.append_nil log).symm
  | cons hs _ ih =>
    rw [expandAll, hs]
    show (expandAll t _ _).1 = _
    rw [ih, List.zip_cons_cons, List.flatMap_cons, List.append_assoc]

/-- Finishing drafts whose colours can be read notes the series, one after the other. -/
theorem finishAll_fst {pairs : List (Draft × Colour)} (h : ∀ pair ∈ pairs, Readable pair.1.colour)
    (log : List LogEntry) :
    (finishAll log pairs).1 = log ++ pairs.map fun pair => (pair.1.painted pair.2).entry := by
  induction pairs generalizing log with
  | nil => exact (List.append_nil log).symm
  | cons pair rest ih =>
    obtain ⟨draft, spare⟩ := pair
    obtain ⟨hfirst, hrest⟩ := List.forall_mem_cons.1 h
    rw [finishAll, Draft.series_eq_ok hfirst]
    show (finishAll _ rest).1 = _
    rw [ih hrest, List.map_cons, List.append_assoc, List.singleton_append]

/-! ### The whole log -/

/-- **The log of a description that passes its check and whose series have drafts**: the warnings
about its series, and then an entry for each series of the figure. -/
theorem log_of_check {d : FigureDescription} {expansions : List Expansion} (h : d.check = .ok ())
    (hall : List.Forall₂ (fun s expansion => s.drafts t = .ok expansion) d.series expansions) :
    (resolve d t).log =
      ((d.series.zip expansions).flatMap fun entry => entry.2.warnings entry.1.label) ++
        (paintAll (expansions.flatMap Expansion.drafts)).map Series.entry := by
  have hdrafts : allDrafts t d.series = .ok (expansions.flatMap Expansion.drafts) :=
    allDrafts_eq_ok_iff.2 ⟨expansions, hall, rfl⟩
  rcases hpair : expandAll t [] d.series with ⟨log, expanded⟩
  have hexpanded : expanded = .ok (expansions.flatMap Expansion.drafts) := by
    rw [← hdrafts, ← expandAll_snd t [], hpair]
  have hlog : log = (d.series.zip expansions).flatMap fun entry =>
      entry.2.warnings entry.1.label := by
    rw [← List.nil_append (List.flatMap _ _), ← expandAll_fst hall [], hpair]
  rw [resolve, h]
  simp only [hpair, hexpanded]
  rw [finishAll_fst, hlog, paintAll, List.map_map]
  · rfl
  · intro pair hmem
    exact readable_of_mem_allDrafts (FigureDescription.check_eq_ok_iff.1 h).2.2 hdrafts
      (List.of_mem_zip hmem).1

/-! ### Rows that are passed over -/

namespace SeriesDescription

variable {s : SeriesDescription} {expansion : Expansion}

/-- A grouped series passes over the group of the missing cell, if there is one. -/
theorem skipped_of_groupBy {column : String} (hg : s.groupBy = some column)
    (h : s.drafts t = .ok expansion) : ∃ c, t.FirstNamed column c ∧ expansion.skipped =
      ((Groups.ofCells 0 c.cells).find? fun group => group.1 = .missing).map fun group =>
        (column, group.2.length) := by
  rw [drafts] at h
  split at h
  · cases h
  · simp only [hg] at h
    split at h
    · cases h
    next groups hgroups =>
    obtain ⟨c, hc, rfl⟩ := Table.groups_eq_ok_iff.1 hgroups
    split at h
    · cases h
    · cases h
      exact ⟨c, hc, rfl⟩

theorem skipped_of_ungrouped (hg : s.groupBy = none) (h : s.drafts t = .ok expansion) :
    expansion.skipped = none := by
  rw [drafts] at h
  split at h
  · cases h
  · simp only [hg] at h
    split at h
    · split at h
      · cases h
      · split at h
        · cases h
        · cases h
          rfl
    · cases h
      rfl

end SeriesDescription

end LineChart
