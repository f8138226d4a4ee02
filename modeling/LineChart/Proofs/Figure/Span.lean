import LineChart.Figure.Basic
import LineChart.Proofs.Number.Sides

/-!
# The span of some coordinates

The range around some coordinates goes from the lowest one to the highest one, and beyond both by one
widening that is never negative. One coordinate that is not finite sends the whole range to the one
from zero to one.

* `Interval.lowest_spanOf`, `Interval.highest_spanOf` : the ends of the span.
* `Interval.padded_eq` : the range around finite coordinates.
* `Interval.padded_of_infinite` : the range around all others.
* `Interval.place_sub_widening_le`, `Interval.le_place_add_widening` : the ends of the range are not
  inside the span.
* `Figure.axisRange_eq` : the range of an axis that has no explicit one.
-/

namespace LineChart.Interval

variable {values : List Double} {low high v : Double}

/-! ### Lowest and highest -/

/-- One of some numbers that no other is below. -/
structure Lowest (low : Double) (values : List Double) : Prop where
  mem : low ∈ values
  le : ∀ v ∈ values, low.place ≤ v.place

/-- One of some numbers that no other is above. -/
structure Highest (high : Double) (values : List Double) : Prop where
  mem : high ∈ values
  le : ∀ v ∈ values, v.place ≤ high.place

theorem Lowest.place_eq {other : Double} (h : Lowest low values) (h' : Lowest other values) :
    low.place = other.place :=
  Int.le_antisymm (h.le other h'.mem) (h'.le low h.mem)

theorem Highest.place_eq {other : Double} (h : Highest high values) (h' : Highest other values) :
    high.place = other.place :=
  Int.le_antisymm (h'.le high h.mem) (h.le other h'.mem)

theorem Lowest.place_le (h : Lowest low values) (h' : Highest high values) :
    low.place ≤ high.place := h.le high h'.mem

/-- A fold that keeps one of two numbers each time, the one of lower rank, finds one of the lowest
rank. -/
theorem foldl_pick {pick : Double → Double → Double} (rank : Double → Int)
    (hpick : ∀ x y : Double, x.isNaN = false → y.isNaN = false →
      (pick x y = x ∨ pick x y = y) ∧ rank (pick x y) ≤ rank x ∧ rank (pick x y) ≤ rank y)
    {start : Double} (hstart : start.isNaN = false) (hnan : ∀ v ∈ values, v.isNaN = false) :
    values.foldl pick start ∈ start :: values ∧
      ∀ v ∈ start :: values, rank (values.foldl pick start) ≤ rank v := by
  induction values generalizing start with
  | nil => simp
  | cons v rest ih =>
    have hv : v.isNaN = false := hnan v (.head _)
    obtain ⟨hchoice, hlestart, hlev⟩ := hpick start v hstart hv
    have hnext : (pick start v).isNaN = false := by
      rcases hchoice with h | h <;> rw [h] <;> assumption
    obtain ⟨hmem, hle⟩ := ih hnext fun w hw => hnan w (.tail _ hw)
    rw [List.foldl_cons]
    have hfirst := hle _ (.head _)
    refine ⟨?_, ?_⟩
    · rcases List.mem_cons.1 hmem with h | h
      · rcases hchoice with hc | hc <;> rw [h, hc] <;> simp
      · exact .tail _ (.tail _ h)
    · intro w hw
      rcases List.mem_cons.1 hw with rfl | hw
      · omega
      rcases List.mem_cons.1 hw with rfl | hw
      · omega
      · exact hle w (.tail _ hw)

theorem smaller_spec (x y : Double) (hx : x.isNaN = false) (hy : y.isNaN = false) :
    (x.smaller y = x ∨ x.smaller y = y) ∧
      (x.smaller y).place ≤ x.place ∧ (x.smaller y).place ≤ y.place := by
  simp only [Binary.smaller, hx, hy, Bool.false_eq_true, if_false, Binary.less_iff hy hx]
  split
  · exact ⟨.inr rfl, by omega, Int.le_refl _⟩
  · exact ⟨.inl rfl, Int.le_refl _, by omega⟩

theorem larger_spec (x y : Double) (hx : x.isNaN = false) (hy : y.isNaN = false) :
    (x.larger y = x ∨ x.larger y = y) ∧
      -(x.larger y).place ≤ -x.place ∧ -(x.larger y).place ≤ -y.place := by
  simp only [Binary.larger, hx, hy, Bool.false_eq_true, if_false, Binary.less_iff hx hy]
  split
  · exact ⟨.inr rfl, by omega, Int.le_refl _⟩
  · exact ⟨.inl rfl, Int.le_refl _, by omega⟩

/-! ### The span -/

theorem spanOf_eq (values : List Double) :
    spanOf values = (values.foldl Binary.smaller (.infinite false),
      values.foldl Binary.larger (.infinite true)) := by
  rw [spanOf]
  generalize (Binary.infinite false : Double) = low
  generalize (Binary.infinite true : Double) = high
  induction values generalizing low high with
  | nil => rfl
  | cons v rest ih => exact ih _ _

/-- Any number is below the infinity that the fold starts with, or is that infinity itself. -/
theorem smaller_infinite (hv : v.isNaN = false) :
    (Binary.infinite false : Double).smaller v = v := by
  have hinfinite : (Binary.infinite false : Double).isNaN = false := rfl
  have hbound := (Binary.place_le_infinity hv).2
  simp only [Binary.smaller, hv, hinfinite, Bool.false_eq_true, if_false,
    Binary.less_iff hv hinfinite]
  split
  · rfl
  · rename_i hle
    exact Binary.eq_of_place_eq (Int.le_antisymm (Int.not_lt.1 hle) hbound) (by decide)

theorem larger_infinite (hv : v.isNaN = false) :
    (Binary.infinite true : Double).larger v = v := by
  have hinfinite : (Binary.infinite true : Double).isNaN = false := rfl
  have hbound := (Binary.place_le_infinity hv).1
  simp only [Binary.larger, hv, hinfinite, Bool.false_eq_true, if_false,
    Binary.less_iff hinfinite hv]
  split
  · rfl
  · rename_i hle
    exact Binary.eq_of_place_eq (Int.le_antisymm hbound (Int.not_lt.1 hle)) (by decide)

theorem lowest_spanOf (hne : values ≠ []) (hnan : ∀ v ∈ values, v.isNaN = false) :
    Lowest (spanOf values).1 values := by
  obtain ⟨v, rest, rfl⟩ := List.exists_cons_of_ne_nil hne
  have hv := hnan v (.head _)
  obtain ⟨hmem, hle⟩ := foldl_pick Binary.place smaller_spec hv fun w hw => hnan w (.tail _ hw)
  rw [spanOf_eq, List.foldl_cons, smaller_infinite hv]
  exact ⟨hmem, hle⟩

theorem highest_spanOf (hne : values ≠ []) (hnan : ∀ v ∈ values, v.isNaN = false) :
    Highest (spanOf values).2 values := by
  obtain ⟨v, rest, rfl⟩ := List.exists_cons_of_ne_nil hne
  have hv := hnan v (.head _)
  obtain ⟨hmem, hle⟩ := foldl_pick (fun w => -w.place) larger_spec hv
    fun w hw => hnan w (.tail _ hw)
  rw [spanOf_eq, List.foldl_cons, List.foldl_cons, larger_infinite hv]
  exact ⟨hmem, fun w hw => Int.neg_le_neg_iff.1 (hle w hw)⟩

theorem Lowest.isFinite_iff (hlow : Lowest low values) (hhigh : Highest high values) :
    (low.isFinite = true ∧ high.isFinite = true) ↔ ∀ v ∈ values, v.isFinite = true := by
  constructor
  · rintro ⟨hl, hh⟩ v hv
    have habove := hlow.le v hv
    have hbelow := hhigh.le v hv
    rw [Binary.isFinite_iff] at hl hh ⊢
    omega
  · intro h
    exact ⟨h low hlow.mem, h high hhigh.mem⟩

/-! ### The range around a span -/

/-- The bound of the spans that count as flat, for a highest coordinate. -/
def flatBound (high : Double) : Double := .epsilon * high.abs.larger (.ofNat 1)

/-- The span is so small that the coordinates count as equal. -/
def Flat (low high : Double) : Prop := (high - low).atMost (flatBound high) = true

instance (low high : Double) : Decidable (Flat low high) := instDecidableEqBool _ _

/-- How far the range goes beyond the span on each side. -/
def widening (low high : Double) : Double :=
  if Flat low high then half else (high - low) * margin

theorem widening_of_flat (h : Flat low high) : widening low high = half := if_pos h

theorem widening_of_not_flat (h : ¬ Flat low high) :
    widening low high = (high - low) * margin := if_neg h

/-- The range without coordinates and the one around coordinates that are not all finite. -/
def unit : Interval := ⟨.zero, .ofNat 1⟩

theorem padded_of_infinite (hnan : ∀ v ∈ values, v.isNaN = false)
    (h : values = [] ∨ ∃ v ∈ values, v.isFinite = false) : padded values = unit := by
  have hends : ¬ ((spanOf values).1.isFinite = true ∧ (spanOf values).2.isFinite = true) := by
    rcases h with rfl | ⟨v, hv, hinfinite⟩
    · decide
    · have hne : values ≠ [] := List.ne_nil_of_mem hv
      rw [(lowest_spanOf hne hnan).isFinite_iff (highest_spanOf hne hnan)]
      intro hall
      rw [hall v hv] at hinfinite
      exact Bool.noConfusion hinfinite
  simp only [padded, if_pos hends]
  rfl

/-- **The range around finite coordinates** goes one widening beyond the span on each side. -/
theorem padded_eq (hne : values ≠ []) (hfinite : ∀ v ∈ values, v.isFinite = true) :
    ∃ low high, Lowest low values ∧ Highest high values ∧
      padded values = ⟨low - widening low high, high + widening low high⟩ := by
  have hnan : ∀ v ∈ values, v.isNaN = false := fun v hv => Binary.isNaN_of_isFinite (hfinite v hv)
  have hlow := lowest_spanOf hne hnan
  have hhigh := highest_spanOf hne hnan
  refine ⟨(spanOf values).1, (spanOf values).2, hlow, hhigh, ?_⟩
  have hends := (hlow.isFinite_iff hhigh).2 hfinite
  simp only [padded, if_neg (not_not_intro hends)]
  by_cases hflat : Flat (spanOf values).1 (spanOf values).2
  · rw [widening_of_flat hflat]
    exact if_pos hflat
  · rw [widening_of_not_flat hflat]
    exact if_neg hflat

/-! ### The widening -/

theorem margin_spec : margin.isFinite = true ∧ margin.negative = false ∧ margin.isZero = false ∧
    16 * margin.units ≤ FloatFormat.double.one := by decide +kernel

section

variable (hlow : low.isFinite = true) (hhigh : high.isFinite = true) (h : low.place ≤ high.place)

include hlow hhigh h in
theorem mul_margin_nonneg :
    ((high - low) * margin).isNaN = false ∧ 0 ≤ ((high - low) * margin).place := by
  obtain ⟨hmargin, hsign, hzero, -⟩ := margin_spec
  have hnan := Binary.isNaN_sub hhigh (Binary.isNaN_of_isFinite hlow)
  have hnonneg := Binary.place_sub_nonneg hhigh hlow h
  exact ⟨Binary.isNaN_mul hnan hmargin hzero,
    Binary.place_mul_nonneg hnan hnonneg hmargin hsign hzero⟩

include hlow hhigh h in
/-- A widening is not negative. -/
theorem widening_nonneg : (widening low high).isNaN = false ∧ 0 ≤ (widening low high).place := by
  by_cases hflat : Flat low high
  · rw [widening_of_flat hflat]
    decide +kernel
  · rw [widening_of_not_flat hflat]
    exact mul_margin_nonneg hlow hhigh h

include hlow hhigh h in
theorem place_sub_widening_le : (low - widening low high).place ≤ low.place :=
  have hw := widening_nonneg hlow hhigh h
  Binary.place_sub_le hlow hw.1 hw.2

include hlow hhigh h in
theorem le_place_add_widening : high.place ≤ (high + widening low high).place :=
  have hw := widening_nonneg hlow hhigh h
  Binary.le_place_add hhigh hw.1 hw.2

end

end LineChart.Interval

namespace LineChart

/-! ### The axes of a figure -/

def Point.coordinate (p : Point) : Axis → Double
  | .x => p.x
  | .y => p.y

namespace Figure

variable {f : Figure} {axis : Axis}

/-- The coordinates of all points of all series along an axis. -/
def coordinates (f : Figure) (axis : Axis) : List Double := f.points.map (·.coordinate axis)

/-- The explicit range of an axis. -/
def range? (f : Figure) : Axis → Option Interval
  | .x => f.xRange
  | .y => f.yRange

def axisRange (f : Figure) : Axis → Interval
  | .x => f.bounds.1
  | .y => f.bounds.2

theorem axisRange_eq (h : f.range? axis = none) :
    f.axisRange axis = .padded (f.coordinates axis) := by
  cases axis with
  | x => exact congrArg (Option.getD · _) h
  | y => exact congrArg (Option.getD · _) h

end Figure

end LineChart
