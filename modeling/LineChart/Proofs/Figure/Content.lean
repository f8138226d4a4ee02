import LineChart.Description.Presets
import LineChart.Proofs.Figure.Parts
import LineChart.Proofs.Figure.Runs

/-!
# The content of a figure

What a description that resolves draws: the parts of its series, one line each and in order, with
every point of every row that has one.

* `Part.DrawnAs` : a series of a figure draws a part.
* `series_drawn_of_parts` : the series of a figure draw the parts of the description, in order.
-/

namespace LineChart

variable {t : Table}

/-- The series at place `i` of `count` draws a part: it has its label and its style, its points are
those of the part's rows whose coordinates are both numbers, and its colour is the one asked for, or
else the one at its place in the palette. -/
structure Part.DrawnAs (t : Table) (count : Nat) (part : Part) (series : Series) (i : Nat) :
    Prop where
  label : series.label = part.label
  style : series.style = part.source.style
  points : ∃ all, List.Forall₂ (part.source.PointAt t) part.rows all ∧
    series.runs.flatten = all.filter fun p => !p.x.isNaN && !p.y.isNaN
  ownColour : ∀ text, part.source.colour = some text → Colour.read text = .colour series.colour
  spareColour : part.source.colour = none → (palette count)[i]? = some series.colour

/-- A draft of a part is painted as a series that draws the part. -/
theorem Part.Drafted.drawnAs {part : Part} {draft : Draft} (h : part.Drafted t draft)
    (hreadable : Readable draft.colour) {count i : Nat} {spare : Colour}
    (hspare : (palette count)[i]? = some spare) :
    part.DrawnAs t count (draft.painted spare) i := by
  refine ⟨h.label, h.style, ⟨draft.points, h.points, ?_⟩, ?_, ?_⟩
  · show (splitRuns draft.points).flatten = _
    rw [flatten_splitRuns]
    refine List.filter_congr ?_
    intro p _
    rw [Point.isGap, Bool.not_or]
  · intro text htext
    rw [← h.colour] at htext
    exact Draft.read_of_some hreadable htext spare
  · intro hnone
    rw [← h.colour] at hnone
    show _ = some (draft.paint spare)
    rw [Draft.paint_of_none hnone, hspare]

theorem forall₂_drawnAs_paintAll {parts : List Part} {drafts : List Draft}
    (h : List.Forall₂ (Part.Drafted t) parts drafts)
    (hreadable : ∀ draft ∈ drafts, Readable draft.colour) :
    List.Forall₂ (fun part entry => Part.DrawnAs t drafts.length part entry.1 entry.2) parts
      (paintAll drafts).zipIdx := by
  have hlen : (paintAll drafts).zipIdx.length = drafts.length := by
    rw [List.length_zipIdx, length_paintAll]
  refine List.forall₂_iff_get.2 ⟨by rw [h.length_eq, hlen], ?_⟩
  intro i hi hi'
  have hdraft : i < drafts.length := by omega
  have hspare : i < (palette drafts.length).length := by rw [length_palette]; exact hdraft
  have hentry : (paintAll drafts).zipIdx[i] =
      (drafts[i].painted (palette drafts.length)[i], i) := by
    rw [List.getElem_zipIdx, Nat.zero_add]
    simp only [paintAll, List.getElem_map, List.getElem_zip]
  rw [List.get_eq_getElem, List.get_eq_getElem, hentry]
  have hdrafted : (parts[i]).Drafted t drafts[i] := h.get hi hdraft
  exact hdrafted.drawnAs (hreadable _ (List.getElem_mem hdraft)) (List.getElem?_eq_getElem hspare)

/-- **The series of a figure draw the parts of its description, in order.** Each series of the
description stands for its parts, and each part is drawn by one series of the figure, at its place. -/
theorem series_drawn_of_parts {d : FigureDescription} {f : Figure}
    (h : (resolve d t).outcome = .ok f) :
    ∃ parts : List (List Part),
      List.Forall₂ (fun s parts => s.Expands t parts) d.series parts ∧
        List.Forall₂ (fun part entry => Part.DrawnAs t f.series.length part entry.1 entry.2)
          parts.flatten f.series.zipIdx := by
  obtain ⟨hcheck, drafts, hdrafts, rfl⟩ := outcome_eq_ok_iff.1 h
  have hseries := (FigureDescription.check_eq_ok_iff.1 hcheck).2.2
  obtain ⟨parts, hexpands, hdrafted⟩ := expands_of_allDrafts hdrafts
  refine ⟨parts, hexpands, ?_⟩
  show List.Forall₂ (fun part entry => Part.DrawnAs t (paintAll drafts).length part entry.1 entry.2)
    parts.flatten (paintAll drafts).zipIdx
  rw [length_paintAll]
  exact forall₂_drawnAs_paintAll hdrafted fun draft hmem =>
    readable_of_mem_allDrafts hseries hdrafts hmem

/-- Requests by queue, and those of the first queue once more, against the row number. -/
def requestLines : FigureDescription :=
  Presets.requestTimes
    [{ Presets.requestSeries "Queue \x7bkey\x7d" with groupBy := some "queue_id" },
     { y := "elapsed", label := "first queue", style := .solid, colour := some "#d62728",
       filter := some ⟨"queue_id", .ofInt 0⟩ }]

/-- Two queues, a request without one, and a request without an elapsed time. -/
theorem requestLines_drawn_of_parts :
    ∃ f, (resolve requestLines twoQueues).outcome = .ok f ∧
      f.series.map Series.label = ["Queue 0", "Queue 1", "first queue"] ∧
      ∃ parts : List (List Part),
        List.Forall₂ (fun s parts => s.Expands twoQueues parts) requestLines.series parts ∧
          List.Forall₂ (fun part entry =>
            Part.DrawnAs twoQueues f.series.length part entry.1 entry.2)
            parts.flatten f.series.zipIdx := by
  have hlabels : (resolve requestLines twoQueues).outcome.toOption.map
      (fun f => f.series.map Series.label) = some ["Queue 0", "Queue 1", "first queue"] := by
    decide +kernel
  obtain ⟨f, hf, hseries⟩ := exists_ok_of_map hlabels
  exact ⟨f, hf, hseries, series_drawn_of_parts hf⟩

end LineChart
