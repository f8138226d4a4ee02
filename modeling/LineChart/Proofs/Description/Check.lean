import LineChart.Description.Basic

/-!
# Descriptions that pass their check

What a description that passes its check looks like, and what the check says of its series.

* `SeriesDescription.check_eq_ok_iff` : a series passes if its colour can be read and it is not grouped
  and filtered at once.
* `checkSeries_eq_error_iff` : the error of some series is the one of the first that does not pass.
* `FigureDescription.check_of_soundFrame`, `FigureDescription.check_of_unsoundFrame` : the check of a
  description with series and a sound frame, and of any other.
* `FigureDescription.check_eq_ok_iff` : a description passes if it has series, its frame is sound and
  every series passes.
* `FigureDescription.Sound`, `FigureDescription.check_eq_ok_iff_sound` : the same, told field by field.
-/

namespace LineChart

/-- The first entry behind passing ones is the first of all, or that one passes and the entry is the
first among the rest. -/
theorem exists_first_cons_iff {α : Type} {passes fails : α → Prop} {x : α} {rest : List α} :
    (∃ before y after, x :: rest = before ++ y :: after ∧ (∀ b ∈ before, passes b) ∧ fails y) ↔
      fails x ∨ passes x ∧
        ∃ before y after, rest = before ++ y :: after ∧ (∀ b ∈ before, passes b) ∧ fails y := by
  constructor
  · intro h
    obtain ⟨before, y, after, hsplit, hbefore, hy⟩ := h
    cases before with
    | nil =>
      obtain ⟨rfl, -⟩ := List.cons.inj hsplit
      exact .inl hy
    | cons b before =>
      obtain ⟨rfl, rfl⟩ := List.cons.inj hsplit
      obtain ⟨hb, hbefore⟩ := List.forall_mem_cons.1 hbefore
      exact .inr ⟨hb, before, y, after, rfl, hbefore, hy⟩
  · intro h
    obtain hx | ⟨hx, before, y, after, rfl, hbefore, hy⟩ := h
    · exact ⟨[], x, rest, rfl, by simp, hx⟩
    · exact ⟨x :: before, y, after, rfl, List.forall_mem_cons.2 ⟨hx, hbefore⟩, hy⟩

/-- A colour, if there is one, can be read. -/
def Readable (colour : Option String) : Prop :=
  ∀ text, colour = some text → ∃ c, Colour.read text = .colour c

namespace SeriesDescription

/-- A series passes if its colour can be read and it is not grouped and filtered at once. -/
theorem check_eq_ok_iff {s : SeriesDescription} :
    s.check = .ok () ↔ Readable s.colour ∧ (s.filter = none ∨ s.groupBy = none) := by
  have hcombined : ((if s.filter.isSome && s.groupBy.isSome then .error (.groupAndFilter s.label)
      else .ok ()) : Except DescriptionError Unit) = .ok () ↔ s.filter = none ∨ s.groupBy = none := by
    cases s.filter <;> cases s.groupBy <;> simp
  rw [check, ← hcombined]
  cases hcolour : s.colour with
  | none => simp [Readable]
  | some text =>
    cases hread : Colour.read text with
    | colour c => simp [Readable, hread]
    | notColour => simp [Readable, hread]
    | cutCharacter => simp [Readable, hread]

end SeriesDescription

theorem checkSeries_eq_ok_iff {series : List SeriesDescription} :
    checkSeries series = .ok () ↔ ∀ s ∈ series, s.check = .ok () := by
  induction series with
  | nil => simp [checkSeries]
  | cons s rest ih =>
    rw [checkSeries, List.forall_mem_cons, ← ih]
    cases s.check with
    | error e => simp
    | ok _ => simp

theorem checkSeries_cons_eq_error_iff {s : SeriesDescription} {rest : List SeriesDescription}
    {e : DescriptionError} : checkSeries (s :: rest) = .error e ↔
      s.check = .error e ∨ s.check = .ok () ∧ checkSeries rest = .error e := by
  rw [checkSeries]
  cases s.check <;> simp

/-- **The error of some series is the one of the first that does not pass.** -/
theorem checkSeries_eq_error_iff {series : List SeriesDescription} {e : DescriptionError} :
    checkSeries series = .error e ↔ ∃ before s after, series = before ++ s :: after ∧
      (∀ b ∈ before, b.check = .ok ()) ∧ s.check = .error e := by
  induction series with
  | nil => simp [checkSeries]
  | cons s rest ih => rw [checkSeries_cons_eq_error_iff, ih, exists_first_cons_iff]

/-! ### Descriptions -/

/-- The label of the series that an error is about, if it is about one. -/
def DescriptionError.label? : DescriptionError → Option String
  | badColour label _ => some label
  | cutColour label _ => some label
  | groupAndFilter label => some label
  | _ => none

theorem Interval.label?_of_check {axis : Axis} {range : Option Interval} {e : DescriptionError}
    (h : Interval.check axis range = .error e) : e.label? = none := by
  cases range with
  | none => cases h
  | some range =>
    rw [Interval.check] at h
    split at h
    · cases h
    · cases h
      rfl

theorem Interval.check_eq_ok_iff {axis : Axis} {range : Option Interval} :
    Interval.check axis range = .ok () ↔ ∀ r, range = some r → r.low.less r.high = true := by
  cases range with
  | none => simp [Interval.check]
  | some r => by_cases h : r.low.less r.high <;> simp [Interval.check, h]

namespace FigureDescription

/-- The size and the resolution are positive and the ranges ascend. -/
structure SoundFrame (d : FigureDescription) : Prop where
  width : Binary.zero.less d.width = true
  height : Binary.zero.less d.height = true
  dpi : d.dpi ≠ 0
  xRange : Interval.check .x d.xRange = .ok ()
  yRange : Interval.check .y d.yRange = .ok ()

variable {d : FigureDescription}

/-- Behind a sound frame, the check of a description is that of its series. -/
theorem check_of_soundFrame (hseries : d.series ≠ []) (hframe : d.SoundFrame) :
    d.check = checkSeries d.series := by
  rw [check, if_neg (by simpa using hseries),
    if_neg (Decidable.not_not.2 ⟨hframe.width, hframe.height⟩), if_neg hframe.dpi, hframe.xRange,
    hframe.yRange]

/-- Without series or a sound frame, a description has an error that is about no series. -/
theorem check_of_unsoundFrame (h : ¬ (d.series ≠ [] ∧ d.SoundFrame)) :
    ∃ e, d.check = .error e ∧ e.label? = none := by
  rw [check]
  split
  · exact ⟨_, rfl, rfl⟩
  split
  · exact ⟨_, rfl, rfl⟩
  split
  · exact ⟨_, rfl, rfl⟩
  split
  · next hx => exact ⟨_, rfl, Interval.label?_of_check hx⟩
  split
  · next hy => exact ⟨_, rfl, Interval.label?_of_check hy⟩
  rename_i hseries hsize hdpi _ hx _ hy
  obtain ⟨hwidth, hheight⟩ := Decidable.not_not.1 hsize
  exact absurd ⟨by simpa using hseries, ⟨hwidth, hheight, hdpi, hx, hy⟩⟩ h

/-- **A description passes if it has series, its frame is sound and every series passes.** -/
theorem check_eq_ok_iff :
    d.check = .ok () ↔ d.series ≠ [] ∧ d.SoundFrame ∧ ∀ s ∈ d.series, s.check = .ok () := by
  rw [← checkSeries_eq_ok_iff, ← and_assoc]
  by_cases hsound : d.series ≠ [] ∧ d.SoundFrame
  · rw [check_of_soundFrame hsound.1 hsound.2, and_iff_right hsound]
  · obtain ⟨e, he, -⟩ := check_of_unsoundFrame hsound
    exact iff_of_false (by simp [he]) fun h => hsound h.1

/-- A description that passes still does with other series that pass. -/
theorem check_with_series (h : d.check = .ok ())
    {series : List SeriesDescription} (hne : series ≠ []) (hall : ∀ s ∈ series, s.check = .ok ()) :
    { d with series }.check = .ok () := by
  obtain ⟨-, hframe, -⟩ := check_eq_ok_iff.1 h
  exact check_eq_ok_iff.2
    ⟨hne, ⟨hframe.width, hframe.height, hframe.dpi, hframe.xRange, hframe.yRange⟩, hall⟩

/-- A description with nothing wrong in any of its fields. -/
structure Sound (d : FigureDescription) : Prop where
  series : d.series ≠ []
  width : Binary.zero.less d.width = true
  height : Binary.zero.less d.height = true
  dpi : 0 < d.dpi
  xRange : ∀ r, d.xRange = some r → r.low.less r.high = true
  yRange : ∀ r, d.yRange = some r → r.low.less r.high = true
  colours : ∀ s ∈ d.series, Readable s.colour
  rows : ∀ s ∈ d.series, s.filter = none ∨ s.groupBy = none

/-- **The descriptions that pass are those with nothing wrong in any of their fields.** -/
theorem check_eq_ok_iff_sound : d.check = .ok () ↔ d.Sound := by
  rw [check_eq_ok_iff]
  constructor
  · rintro ⟨hseries, hframe, hall⟩
    exact
      { series := hseries
        width := hframe.width
        height := hframe.height
        dpi := UInt32.pos_iff_ne_zero.2 hframe.dpi
        xRange := Interval.check_eq_ok_iff.1 hframe.xRange
        yRange := Interval.check_eq_ok_iff.1 hframe.yRange
        colours := fun s hs => (SeriesDescription.check_eq_ok_iff.1 (hall s hs)).1
        rows := fun s hs => (SeriesDescription.check_eq_ok_iff.1 (hall s hs)).2 }
  · intro h
    refine ⟨h.series, ?_, fun s hs => ?_⟩
    · exact ⟨h.width, h.height, UInt32.pos_iff_ne_zero.1 h.dpi, Interval.check_eq_ok_iff.2 h.xRange,
        Interval.check_eq_ok_iff.2 h.yRange⟩
    · exact SeriesDescription.check_eq_ok_iff.2 ⟨h.colours s hs, h.rows s hs⟩

/-- What is left unsaid about a figure is sound: it is enough to look at the series. -/
theorem sound_of_defaults (input output : Path) (xLabel yLabel : String)
    {series : List SeriesDescription} (hne : series ≠ [])
    (hall : ∀ s ∈ series, s.colour = none ∧ (s.filter = none ∨ s.groupBy = none)) :
    Sound { input, output, xLabel, yLabel, series } where
  series := hne
  width := show Binary.zero.less (.ofNat 11 : Double) = true by decide +kernel
  height := show Binary.zero.less (.ofDecimal false ⟨85, -1⟩ : Double) = true by decide +kernel
  dpi := show 0 < (1200 : UInt32) by decide
  xRange := nofun
  yRange := nofun
  colours := fun s hs text htext => by simp [(hall s hs).1] at htext
  rows := fun s hs => (hall s hs).2

end FigureDescription

end LineChart
