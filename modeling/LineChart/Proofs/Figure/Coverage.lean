import LineChart.Description.Presets
import LineChart.Proofs.Figure.Outcome
import LineChart.Proofs.Figure.Parts
import LineChart.Proofs.Figure.Runs
import LineChart.Proofs.Figure.Span

/-!
# Ranges that cover the data

The range of an axis covers all coordinates if they are all finite. A single infinite one sends the
axis to the range from zero to one, which leaves out the points of all series that lie elsewhere.

* `Interval.padded_covers` : finite coordinates are covered.
* `Figure.isNaN_of_mem_coordinates` : the coordinates of a figure are numbers, infinite ones included.
* `Figure.axisRange_covers_iff` : when the finite coordinates of a figure are covered.
-/

namespace LineChart

variable {d : FigureDescription} {t : Table} {f : Figure} {axis : Axis} {values : List Double}
  {v : Double}

namespace Interval

/-- A number lies between the ends of a range, or at one of them. -/
def Covers (range : Interval) (v : Double) : Prop :=
  range.low.atMost v = true ∧ v.atMost range.high = true

instance (range : Interval) (v : Double) : Decidable (range.Covers v) :=
  inferInstanceAs (Decidable (_ ∧ _))

/-- **The range around finite coordinates covers them**, even where its ends are out of range or
fall together. -/
theorem padded_covers (hfinite : ∀ v ∈ values, v.isFinite = true) (hv : v ∈ values) :
    (padded values).Covers v := by
  obtain ⟨low, high, hlow, hhigh, heq⟩ := padded_eq (List.ne_nil_of_mem hv) hfinite
  have hlowFinite := hfinite low hlow.mem
  have hhighFinite := hfinite high hhigh.mem
  have hends := hlow.place_le hhigh
  have hwidening := (widening_nonneg hlowFinite hhighFinite hends).1
  have hbelow := place_sub_widening_le hlowFinite hhighFinite hends
  have habove := le_place_add_widening hlowFinite hhighFinite hends
  have hv' := Binary.isNaN_of_isFinite (hfinite v hv)
  rw [heq, Covers, Binary.atMost_iff (Binary.isNaN_sub hlowFinite hwidening) hv',
    Binary.atMost_iff hv' (Binary.isNaN_add hhighFinite hwidening)]
  exact ⟨Int.le_trans hbelow (hlow.le v hv), Int.le_trans (hhigh.le v hv) habove⟩

/-- **Which finite numbers a range covers.** Where all numbers are finite, it covers them all;
otherwise those from zero to one. -/
theorem padded_covers_iff (hnan : ∀ v ∈ values, v.isNaN = false) :
    (∀ v ∈ values, v.isFinite = true → (padded values).Covers v) ↔
      (∀ v ∈ values, v.isFinite = true) ∨ ∀ v ∈ values, v.isFinite = true → unit.Covers v := by
  by_cases hfinite : ∀ v ∈ values, v.isFinite = true
  · exact ⟨fun _ => .inl hfinite, fun _ v hv _ => padded_covers hfinite hv⟩
  · have hinfinite : ∃ v ∈ values, v.isFinite = false := by
      by_contra hnone
      refine hfinite fun v hv => ?_
      rw [← Bool.not_eq_false]
      exact fun h => hnone ⟨v, hv, h⟩
    rw [padded_of_infinite hnan (.inr hinfinite)]
    exact ⟨.inr, fun h => h.resolve_left hfinite⟩

end Interval

/-! ### The coordinates of a figure -/

/-- A point that is in a run is no gap. -/
theorem Draft.isGap_of_mem_points {draft : Draft} {colour : Colour} {p : Point}
    (h : p ∈ (draft.painted colour).points) : p.isGap = false := by
  have hpoints : p ∈ (splitRuns draft.points).flatten := h
  rw [flatten_splitRuns, List.mem_filter, Bool.not_eq_true'] at hpoints
  exact hpoints.2

namespace Figure

theorem isGap_of_mem_points (h : (resolve d t).outcome = .ok f) {p : Point} (hp : p ∈ f.points) :
    p.isGap = false := by
  obtain ⟨-, drafts, -, rfl⟩ := outcome_eq_ok_iff.1 h
  obtain ⟨line, hline, hp⟩ := List.mem_flatMap.1 hp
  obtain ⟨⟨draft, colour⟩, -, rfl⟩ := List.mem_map.1 hline
  exact Draft.isGap_of_mem_points hp

/-- **The coordinates of a figure are numbers.** -/
theorem isNaN_of_mem_coordinates (h : (resolve d t).outcome = .ok f) (hv : v ∈ f.coordinates axis) :
    v.isNaN = false := by
  obtain ⟨p, hp, rfl⟩ := List.mem_map.1 hv
  have hgap := isGap_of_mem_points h hp
  rw [Point.isGap, Bool.or_eq_false_iff] at hgap
  cases axis with
  | x => exact hgap.1
  | y => exact hgap.2

/-- **When the finite coordinates of a figure are covered** by the range of an axis that has no
explicit one: if none is infinite, or if all the finite ones lie between zero and one. -/
theorem axisRange_covers_iff (h : (resolve d t).outcome = .ok f) (hauto : f.range? axis = none) :
    (∀ v ∈ f.coordinates axis, v.isFinite = true → (f.axisRange axis).Covers v) ↔
      (∀ v ∈ f.coordinates axis, v.isFinite = true) ∨
        ∀ v ∈ f.coordinates axis, v.isFinite = true → Interval.unit.Covers v := by
  rw [axisRange_eq hauto]
  exact Interval.padded_covers_iff fun v hv => isNaN_of_mem_coordinates h hv

/-- Requests of which the last one has an infinite elapsed time, as some file formats can have it. -/
def endlessRequest : Table :=
  timedRequests [(.integer 10, .integer 5), (.integer 20, .integer 7),
    (.integer 30, .number (.infinite false))]

/-- The start times of all requests are covered. -/
theorem endlessRequest_start_covered :
    ∃ f, (resolve (Presets.requestTime "all queues") endlessRequest).outcome = .ok f ∧
      f.range? .x = none ∧ f.coordinates .x = [.ofNat 10, .ofNat 20, .ofNat 30] ∧
      ∀ v ∈ f.coordinates .x, v.isFinite = true → (f.axisRange .x).Covers v := by
  have hstart : (resolve (Presets.requestTime "all queues") endlessRequest).outcome.toOption.map
      (fun f => (f.range? .x, f.coordinates .x)) =
        some (none, [.ofNat 10, .ofNat 20, .ofNat 30]) := by
    decide +kernel
  obtain ⟨f, hf, hvalues⟩ := exists_ok_of_map hstart
  obtain ⟨hauto, hcoordinates⟩ := Prod.mk.injEq _ _ _ _ ▸ hvalues
  refine ⟨f, hf, hauto, hcoordinates, (axisRange_covers_iff hf hauto).2 (.inl ?_)⟩
  rw [hcoordinates]
  decide +kernel

/-- The finite elapsed times are not: the range goes from zero to one. -/
theorem exists_finite_coordinate_left_out :
    ¬ ∀ (d : FigureDescription) (t : Table) (f : Figure) (axis : Axis),
      (resolve d t).outcome = .ok f → f.range? axis = none →
        ∀ v ∈ f.coordinates axis, v.isFinite = true → (f.axisRange axis).Covers v := by
  intro h
  have helapsed : (resolve (Presets.requestTime "all queues") endlessRequest).outcome.toOption.map
      (fun f => (f.range? .y, f.coordinates .y, f.axisRange .y)) =
        some (none, [.ofNat 5, .ofNat 7, .infinite false], .unit) := by
    decide +kernel
  obtain ⟨f, hf, hvalues⟩ := exists_ok_of_map helapsed
  simp only [Prod.mk.injEq] at hvalues
  obtain ⟨hauto, hcoordinates, hrange⟩ := hvalues
  have hcovered := h _ _ f .y hf hauto (.ofNat 5) (by simp [hcoordinates]) (by decide +kernel)
  rw [hrange] at hcovered
  exact absurd hcovered (by decide +kernel)

end Figure

end LineChart
