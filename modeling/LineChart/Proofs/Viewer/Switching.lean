import LineChart.Viewer.Basic
import Mathlib.Algebra.GroupWithZero.Nat
import Mathlib.Data.List.Induction
import Mathlib.Logic.Function.Iterate

/-!
# Switching series on and off

What is on after some switches is told by the switches alone: every series is as the last switch
left it that concerned all of them, and toggled once for each time that it was named since.

* `Switch`, `Viewer.after` : the switches, and a viewer after a history of them.
* `Switch.flag` : whether a series is on after a history.
* `Viewer.switch_eq` : one switch changes the flags and nothing else.
* `Viewer.after_eq` : a viewer after a history.
* `Viewer.switched` : all that a viewer shows after a history.
-/

namespace LineChart

/-- The switches of a viewer: one series is toggled, whether it exists or not, or all are shown or
hidden. -/
inductive Switch where
  | toggle (i : Nat)
  | showAll
  | hideAll
deriving DecidableEq

/-! ### Histories -/

namespace Switch

/-- The switch concerns every series. -/
def concernsAll : Switch → Bool
  | toggle _ => false
  | showAll => true
  | hideAll => true

/-- The last switch of a history that concerned every series, if there is one. -/
def lastForAll? (history : List Switch) : Option Switch := history.reverse.find? concernsAll

/-- The switches behind that one, the latest one first. -/
def sinceForAll (history : List Switch) : List Switch :=
  history.reverse.takeWhile fun s => !s.concernsAll

/-- The series are on before they are toggled, unless all were hidden at last. -/
def base (history : List Switch) : Bool := decide (lastForAll? history ≠ some hideAll)

/-- Series `j` is on after a history. -/
def flag (history : List Switch) (j : Nat) : Bool :=
  not^[(sinceForAll history).count (toggle j)] (base history)

/-- What a switch makes of the flag of series `j`. -/
def act : Switch → Nat → Bool → Bool
  | toggle i, j, on => if i = j then !on else on
  | showAll, _, _ => true
  | hideAll, _, _ => false

variable (history : List Switch) (j : Nat)

theorem flag_nil : flag [] j = true := rfl

/-- One more switch makes of a flag what it makes of any. -/
theorem flag_concat (s : Switch) : flag (history ++ [s]) j = s.act j (flag history j) := by
  have hreverse : (history ++ [s]).reverse = s :: history.reverse := List.reverse_concat
  cases s with
  | toggle i =>
    have hbase : base (history ++ [toggle i]) = base history := by
      rw [base, base, lastForAll?, lastForAll?, hreverse, List.find?_cons_of_neg Bool.false_ne_true]
    have hsince : sinceForAll (history ++ [toggle i]) = toggle i :: sinceForAll history := by
      rw [sinceForAll, sinceForAll, hreverse, List.takeWhile_cons_of_pos rfl]
    rw [flag, hbase, hsince, act]
    by_cases h : i = j
    · rw [if_pos h, h, List.count_cons_self, Function.iterate_succ_apply', flag]
    · have hne : toggle i ≠ toggle j := by simpa using h
      rw [if_neg h, List.count_cons_of_ne hne, flag]
  | showAll =>
    rw [flag, sinceForAll, base, lastForAll?, hreverse]
    rfl
  | hideAll =>
    rw [flag, sinceForAll, base, lastForAll?, hreverse]
    rfl

/-- Toggles count from the last switch for all, so that only the first series is on here. -/
example : (List.range 3).map (flag [.toggle 1, .hideAll, .toggle 0, .toggle 2, .toggle 2]) =
    [true, false, false] := by
  decide

end Switch

/-! ### Runs of switches -/

namespace Viewer

/-- A viewer after one switch. -/
def switch (v : Viewer) : Switch → Viewer
  | .toggle i => v.toggle i
  | .showAll => v.showAll
  | .hideAll => v.hideAll

/-- A viewer after a history of switches. -/
def after (v : Viewer) (history : List Switch) : Viewer := history.foldl switch v

theorem after_concat (v : Viewer) (history : List Switch) (s : Switch) :
    v.after (history ++ [s]) = (v.after history).switch s := by
  rw [after, List.foldl_append, after]
  rfl

/-- **One switch changes the flags and nothing else.** -/
theorem switch_eq (v : Viewer) (s : Switch) :
    v.switch s = { v with visible := v.visible.mapIdx s.act } := by
  have hvisible : (v.switch s).visible = v.visible.mapIdx s.act := by
    refine List.ext_getElem? fun j => ?_
    cases s with
    | toggle i =>
      show (v.visible.modify i not)[j]? = _
      rw [List.getElem?_modify, List.getElem?_mapIdx]
      rfl
    | showAll =>
      show (v.visible.map fun _ => true)[j]? = _
      rw [List.getElem?_map, List.getElem?_mapIdx]
      rfl
    | hideAll =>
      show (v.visible.map fun _ => false)[j]? = _
      rw [List.getElem?_map, List.getElem?_mapIdx]
      rfl
  rw [← hvisible]
  cases s <;> rfl

/-- **A viewer after a history**: the flags are those of the history, and all else is as it was at
first. -/
theorem after_eq (f : Figure) (savedTo : Option Path) (history : List Switch) :
    (ofFigure f savedTo).after history =
      { ofFigure f savedTo with
        visible := (List.range f.series.length).map (Switch.flag history) } := by
  induction history using List.reverseRecOn with
  | nil =>
    have hall : (List.range f.series.length).map (Switch.flag []) =
        f.series.map fun _ => true := by
      rw [List.map_congr_left fun j _ => Switch.flag_nil j, List.map_const', List.map_const',
        List.length_range]
    rw [hall]
    rfl
  | append_singleton history s ih =>
    have hstep : ((List.range f.series.length).map (Switch.flag history)).mapIdx s.act =
        (List.range f.series.length).map (Switch.flag (history ++ [s])) := by
      refine List.ext_getElem ?_ ?_
      · rw [List.length_mapIdx, List.length_map, List.length_map]
      · intro j _ _
        rw [List.getElem_mapIdx, List.getElem_map, List.getElem_map, List.getElem_range,
          Switch.flag_concat]
    rw [after_concat, ih, switch_eq]
    exact congrArg (fun visible => { ofFigure f savedTo with visible }) hstep

/-! ### What is in view -/

/-- A series is shown if it stands at its position in the figure and is on. -/
theorem mem_shown_iff {v : Viewer} {entry : Nat × Series} : entry ∈ v.shown ↔
    v.figure.series[entry.1]? = some entry.2 ∧ v.isVisible entry.1 = true := by
  obtain ⟨j, s⟩ := entry
  rw [shown, List.mem_filter, List.mem_mapIdx]
  refine and_congr_left fun _ => ?_
  rw [List.getElem?_eq_some_iff]
  constructor
  · intro h
    obtain ⟨i, hi, hentry⟩ := h
    obtain ⟨rfl, hs⟩ := Prod.mk.inj hentry
    exact ⟨hi, hs⟩
  · intro h
    obtain ⟨hj, hs⟩ := h
    exact ⟨j, hj, by rw [hs]⟩

/-- The series that are shown stand in the order of the figure. -/
theorem pairwise_shown (v : Viewer) : (v.shown.map Prod.fst).Pairwise (· < ·) := by
  have hpositions : (v.figure.series.mapIdx fun i s => (i, s)).map Prod.fst =
      List.range v.figure.series.length := by
    refine List.ext_getElem ?_ ?_
    · rw [List.length_map, List.length_mapIdx, List.length_range]
    · intro i _ _
      rw [List.getElem_map, List.getElem_mapIdx, List.getElem_range]
  have hsublist : (v.shown.map Prod.fst).Sublist (List.range v.figure.series.length) := by
    rw [← hpositions]
    exact List.filter_sublist.map Prod.fst
  exact List.pairwise_lt_range.sublist hsublist

/-- The points in view are those of the series that are shown. -/
theorem pointCount_eq (v : Viewer) :
    v.pointCount = (v.shown.map fun entry => entry.2.pointCount).sum := by
  rw [pointCount, List.length_flatMap]
  rfl

/-- **What a viewer shows after a history of switches.** Each series is as the last switch left it
that concerned all, and toggled once for each time since that it was named; a switch of a series that
does not exist does nothing. The figure, its file and the remark stay. The series in view are those
that are on, in the order of the figure, and their points are counted. -/
theorem switched (f : Figure) (savedTo : Option Path) (history : List Switch) :
    ((ofFigure f savedTo).after history).visible =
        (List.range f.series.length).map (Switch.flag history) ∧
      ((ofFigure f savedTo).after history).figure = f ∧
      ((ofFigure f savedTo).after history).savedTo = savedTo ∧
      ((ofFigure f savedTo).after history).status = (ofFigure f savedTo).status ∧
      (∀ j s, (j, s) ∈ ((ofFigure f savedTo).after history).shown ↔
        f.series[j]? = some s ∧ Switch.flag history j = true) ∧
      (((ofFigure f savedTo).after history).shown.map Prod.fst).Pairwise (· < ·) ∧
      ((ofFigure f savedTo).after history).pointCount =
        (((ofFigure f savedTo).after history).shown.map fun entry => entry.2.pointCount).sum := by
  refine ⟨?_, ?_, ?_, ?_, ?_, pairwise_shown _, pointCount_eq _⟩
  · rw [after_eq]
  · rw [after_eq]; rfl
  · rw [after_eq]; rfl
  · rw [after_eq]
  · intro j s
    rw [mem_shown_iff, after_eq]
    refine and_congr_right fun hs => ?_
    have hj : j < f.series.length := (List.getElem?_eq_some_iff.1 hs).1
    rw [isVisible, List.getElem?_map, List.getElem?_range hj]
    rfl

end Viewer

end LineChart
