import LineChart.Proofs.Figure.Faults
import LineChart.Proofs.Figure.Outcome

/-!
# When a description resolves

A description resolves if it passes its check and each of its series can be drawn. Otherwise the
error is the one of the check, or the fault of the first series that has one.

* `allDrafts_eq_error_iff_fault` : the error of all drafts in terms of faults.
* `outcome_iff_drawable_or_first_fault` : both ways a description can come out, with their conditions.
-/

namespace LineChart

variable {t : Table} {series : List SeriesDescription}

theorem filter_or_groupBy_eq_none {s : SeriesDescription} (h : s.check = .ok ()) :
    s.filter = none ∨ s.groupBy = none :=
  (SeriesDescription.check_eq_ok_iff.1 h).2

theorem exists_allDrafts_iff_drawable (hcheck : ∀ s ∈ series, s.check = .ok ()) :
    (∃ drafts, allDrafts t series = .ok drafts) ↔ ∀ s ∈ series, s.Drawable t := by
  constructor
  · intro h s hs
    obtain ⟨drafts, hdrafts⟩ := h
    obtain ⟨expansions, hall, -⟩ := allDrafts_eq_ok_iff.1 hdrafts
    obtain ⟨i, hi, rfl⟩ := List.mem_iff_getElem.1 hs
    have hi' : i < expansions.length := by rw [← hall.length_eq]; exact hi
    have hdraw := SeriesDescription.exists_drafts_iff (t := t)
      (filter_or_groupBy_eq_none (hcheck _ hs))
    exact hdraw.1 ⟨_, hall.get hi hi'⟩
  · intro h
    cases hdrafts : allDrafts t series with
    | ok drafts => exact ⟨drafts, rfl⟩
    | error e =>
      obtain ⟨before, s, after, rfl, -, hs⟩ := allDrafts_eq_error_iff.1 hdrafts
      have hmem : s ∈ before ++ s :: after := List.mem_append_right _ List.mem_cons_self
      obtain ⟨expansion, hok⟩ := (h s hmem).exists_drafts
      rw [hs] at hok
      cases hok

/-- **The error of some series is the fault of the first that has one.** -/
theorem allDrafts_eq_error_iff_fault (hcheck : ∀ s ∈ series, s.check = .ok ()) {e : ResolveError} :
    allDrafts t series = .error e ↔ ∃ before s after, series = before ++ s :: after ∧
      (∀ b ∈ before, b.Drawable t) ∧ s.Fault t e := by
  rw [allDrafts_eq_error_iff]
  constructor
  · intro h
    obtain ⟨before, s, after, rfl, hbefore, hs⟩ := h
    obtain ⟨hcbefore, hcrest⟩ := List.forall_mem_append.1 hcheck
    obtain ⟨hcs, -⟩ := List.forall_mem_cons.1 hcrest
    refine ⟨before, s, after, rfl, ?_, ?_⟩
    · intro b hb
      exact (SeriesDescription.exists_drafts_iff
        (filter_or_groupBy_eq_none (hcbefore b hb))).1 (hbefore b hb)
    · exact (SeriesDescription.drafts_eq_error_iff (filter_or_groupBy_eq_none hcs)).1 hs
  · intro h
    obtain ⟨before, s, after, rfl, hbefore, hs⟩ := h
    obtain ⟨-, hcrest⟩ := List.forall_mem_append.1 hcheck
    obtain ⟨hcs, -⟩ := List.forall_mem_cons.1 hcrest
    exact ⟨before, s, after, rfl, fun b hb => (hbefore b hb).exists_drafts,
      hs.drafts_eq (filter_or_groupBy_eq_none hcs)⟩

/-- Behind the check, the error is the fault of the first series that has one. -/
theorem outcome_eq_error_iff_fault {d : FigureDescription} (hcheck : d.check = .ok ())
    {e : ResolveError} :
    (resolve d t).outcome = .error e ↔ ∃ before s after, d.series = before ++ s :: after ∧
      (∀ b ∈ before, b.Drawable t) ∧ s.Fault t e := by
  rw [outcome_of_check hcheck, map_eq_error_iff, allDrafts_eq_error_iff_fault
    (FigureDescription.check_eq_ok_iff.1 hcheck).2.2]

theorem SeriesDescription.Fault.ne_description {s : SeriesDescription} {e : ResolveError}
    (h : s.Fault t e) (cause : DescriptionError) : e ≠ .description cause := by
  intro he
  subst he
  cases h with
  | rows _ _ hrows => cases hrows

theorem SeriesDescription.Fault.ne_lostColour {s : SeriesDescription} {e : ResolveError}
    (h : s.Fault t e) (label colour : String) : e ≠ .lostColour label colour := by
  intro he
  subst he
  cases h with
  | rows _ _ hrows => cases hrows

/-- **When a description resolves, and with which error it fails otherwise.** It resolves if it
passes its check and every series can be drawn. It fails with the error of its check, or after the
check with the fault of the first series that has one. No colour fails after the check. -/
theorem outcome_iff_drawable_or_first_fault (d : FigureDescription) (t : Table) :
    ((∃ f, (resolve d t).outcome = .ok f) ↔ d.check = .ok () ∧ ∀ s ∈ d.series, s.Drawable t) ∧
      (∀ e, (resolve d t).outcome = .error e ↔
        (∃ cause, d.check = .error cause ∧ e = .description cause) ∨
          (d.check = .ok () ∧ ∃ before s after, d.series = before ++ s :: after ∧
            (∀ b ∈ before, b.Drawable t) ∧ s.Fault t e)) ∧
      ∀ label colour, (resolve d t).outcome ≠ .error (.lostColour label colour) := by
  cases hcheck : d.check with
  | error cause =>
    rw [outcome_of_check_error hcheck]
    refine ⟨by simp, ?_, by simp⟩
    intro e
    simp [eq_comm]
  | ok _ =>
    have hseries := (FigureDescription.check_eq_ok_iff.1 hcheck).2.2
    have herror : ∀ e, (resolve d t).outcome = .error e ↔ allDrafts t d.series = .error e := by
      intro e
      rw [outcome_of_check hcheck]
      cases allDrafts t d.series <;> simp [Except.map]
    refine ⟨?_, ?_, ?_⟩
    · rw [← exists_allDrafts_iff_drawable hseries, outcome_of_check hcheck]
      cases allDrafts t d.series <;> simp [Except.map]
    · intro e
      rw [herror, allDrafts_eq_error_iff_fault hseries]
      simp
    · intro label colour
      rw [ne_eq, herror, allDrafts_eq_error_iff_fault hseries]
      intro h
      obtain ⟨before, s, after, -, -, hs⟩ := h
      exact hs.ne_lostColour label colour rfl

end LineChart
