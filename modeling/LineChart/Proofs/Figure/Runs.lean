import LineChart.Figure.Resolution

/-!
# Runs

Cutting points into runs loses the gaps and nothing else.

* `flatten_splitRuns` : the runs, one after the other, are the points without the gaps.
-/

namespace LineChart

theorem flatten_closeRun (openRun : List Point) : (closeRun openRun).flatten = openRun.reverse := by
  cases openRun with
  | nil => rfl
  | cons p rest =>
    show [(p :: rest).reverse].flatten = _
    rw [List.flatten_singleton]

/-- What has been read and is not yet in a run stands in the open run, in reverse. -/
theorem flatten_runsBehind (openRun points : List Point) :
    (runsBehind openRun points).flatten =
      openRun.reverse ++ points.filter fun p => !p.isGap := by
  induction points generalizing openRun with
  | nil => rw [runsBehind, flatten_closeRun, List.filter_nil, List.append_nil]
  | cons p rest ih =>
    rw [runsBehind]
    cases hgap : p.isGap with
    | true =>
      rw [if_pos rfl, List.flatten_append, flatten_closeRun, ih,
        List.filter_cons_of_neg (by simp [hgap])]
      rfl
    | false =>
      rw [if_neg Bool.false_ne_true, ih, List.filter_cons_of_pos (by simp [hgap]),
        List.reverse_cons, List.append_assoc]
      rfl

/-- **The runs, one after the other, are the points without the gaps.** -/
theorem flatten_splitRuns (points : List Point) :
    (splitRuns points).flatten = points.filter fun p => !p.isGap :=
  flatten_runsBehind [] points

end LineChart
