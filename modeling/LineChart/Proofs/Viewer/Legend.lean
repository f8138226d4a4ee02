import LineChart.Description.Presets
import LineChart.Proofs.Drawing.Strokes
import LineChart.Proofs.Figure.Parts
import LineChart.Proofs.Viewer.Switching
import LineChart.Viewer.Window
import Mathlib.Data.List.Nodup

/-!
# The legends of the window and of the drawing

The drawing of a figure lists every series. The window lists each label once, and only labels of
lines, so that a series without runs is not listed there.

* `Viewer.mem_legend_iff`, `Viewer.nodup_legend` : the legend of the window.
* `Viewer.legends_agree_iff` : both legends of a figure, and when they have the same entries.
-/

namespace LineChart

/-- No entry is left twice. -/
theorem nodup_eraseDups {α : Type} [DecidableEq α] (entries : List α) :
    entries.eraseDups.Nodup := by
  match entries with
  | [] =>
    rw [List.eraseDups_nil]
    exact List.nodup_nil
  | e :: rest =>
    rw [List.eraseDups_cons, List.nodup_cons, List.mem_eraseDups]
    exact ⟨by simp, nodup_eraseDups (rest.filter fun other => !other == e)⟩
termination_by entries.length
decreasing_by exact Nat.lt_succ_of_le (List.length_filter_le _ _)

namespace Viewer

/-! ### The legend of the window -/

/-- The window lists the labels of the series that are shown and have runs. -/
theorem mem_legend_iff {v : Viewer} {label : String} : label ∈ v.legend ↔
    v.figure.legend = true ∧ ∃ entry ∈ v.shown, entry.2.runs ≠ [] ∧ entry.2.label = label := by
  have hlines : label ∈ v.lineLabels ↔
      ∃ entry ∈ v.shown, entry.2.runs ≠ [] ∧ entry.2.label = label := by
    rw [lineLabels, List.mem_flatMap]
    refine exists_congr fun entry => and_congr_right fun _ => ?_
    rw [List.mem_map, exists_and_right]
    exact and_congr_left fun _ =>
      ⟨fun ⟨_, hrun⟩ => List.ne_nil_of_mem hrun, List.exists_mem_of_ne_nil _⟩
  rw [legend]
  cases v.figure.legend with
  | false => simp
  | true => rw [if_pos rfl, List.mem_eraseDups, hlines]; simp

/-- The window lists no label twice. -/
theorem nodup_legend (v : Viewer) : v.legend.Nodup := by
  rw [legend]
  split
  · exact nodup_eraseDups _
  · exact List.nodup_nil

variable (f : Figure) (savedTo : Option Path)

/-- At first every series is shown. -/
theorem exists_mem_shown_ofFigure (p : Series → Prop) :
    (∃ entry ∈ (ofFigure f savedTo).shown, p entry.2) ↔ ∃ s ∈ f.series, p s := by
  constructor
  · intro h
    obtain ⟨entry, hentry, hp⟩ := h
    exact ⟨entry.2, List.mem_of_getElem? (mem_shown_iff.1 hentry).1, hp⟩
  · intro h
    obtain ⟨s, hs, hp⟩ := h
    obtain ⟨j, hj⟩ := List.mem_iff_getElem?.1 hs
    refine ⟨(j, s), mem_shown_iff.2 ⟨hj, ?_⟩, hp⟩
    show ((f.series.map fun _ => true)[j]?).getD false = true
    rw [List.getElem?_map, hj]
    rfl

/-- At first the window lists the labels of the series that the drawing lists and that have runs. -/
theorem mem_legend_ofFigure {label : String} : label ∈ (ofFigure f savedTo).legend ↔
    ∃ s ∈ f.listed, s.runs ≠ [] ∧ s.label = label := by
  rw [mem_legend_iff,
    exists_mem_shown_ofFigure f savedTo fun s => s.runs ≠ [] ∧ s.label = label, Figure.listed]
  show f.legend = true ∧ _ ↔ _
  cases f.legend <;> simp

/-! ### Both legends -/

/-- **The two legends of a figure.** The drawing lists every series by its label. The window with all
series on lists a label once if a series with that label has runs, and not at all otherwise. So the
entries are the same if no two series share a label and each has runs, and only then. -/
theorem legends_agree_iff :
    f.scene.legendTexts.map Caption.text = f.listed.map Series.label ∧
      (∀ label, (ofFigure f savedTo).legend.count label =
        if ∃ s ∈ f.listed, s.runs ≠ [] ∧ s.label = label then 1 else 0) ∧
      ((ofFigure f savedTo).legend.Perm (f.scene.legendTexts.map Caption.text) ↔
        (f.listed.map Series.label).Nodup ∧ ∀ s ∈ f.listed, s.runs ≠ []) := by
  have hnodup := nodup_legend (ofFigure f savedTo)
  refine ⟨f.legendTexts_labels, ?_, ?_⟩
  · intro label
    rw [hnodup.count]
    exact if_congr (mem_legend_ofFigure f savedTo) rfl rfl
  · rw [f.legendTexts_labels]
    constructor
    · intro h
      have hlabels : (f.listed.map Series.label).Nodup := h.nodup_iff.1 hnodup
      refine ⟨hlabels, ?_⟩
      intro s hs
      obtain ⟨s', hs', hruns, hlabel⟩ := (mem_legend_ofFigure f savedTo).1
        (h.mem_iff.2 (List.mem_map_of_mem hs))
      obtain rfl := List.inj_on_of_nodup_map hlabels hs' hs hlabel
      exact hruns
    · intro h
      obtain ⟨hlabels, hruns⟩ := h
      rw [List.perm_ext_iff_of_nodup hnodup hlabels]
      intro label
      rw [mem_legend_ofFigure, List.mem_map]
      refine exists_congr fun s => and_congr_right fun hs => ?_
      exact and_iff_right (hruns s hs)

/-- The legends differ for requests by queue of which one queue has no elapsed time: the drawing
lists it, and the window does not. -/
theorem exists_unequal_legends :
    ¬ ∀ (f : Figure) (savedTo : Option Path), f.legend = true → f.series ≠ [] →
      (ofFigure f savedTo).legend.Perm (f.scene.legendTexts.map Caption.text) := by
  intro h
  have hqueues : (resolve (Presets.requestTimeByQueue []) twoQueues).outcome.toOption.map
      (fun f => (f.legend, f.series.map Series.label, (ofFigure f none).legend)) =
        some (true, ["Queue 0", "Queue 1"], ["Queue 1"]) := by
    decide +kernel
  obtain ⟨f, -, hf⟩ := exists_ok_of_map hqueues
  obtain ⟨hlegend, hlabels, hwindow⟩ : f.legend = true ∧
      f.series.map Series.label = ["Queue 0", "Queue 1"] ∧ (ofFigure f none).legend = ["Queue 1"] := by
    simpa using hf
  have hperm := h f none hlegend (by rintro hnone; simp [hnone] at hlabels)
  rw [f.legendTexts_labels, Figure.listed, hlegend, if_pos rfl, hlabels, hwindow] at hperm
  exact absurd hperm.length_eq (by decide)

end Viewer

end LineChart
