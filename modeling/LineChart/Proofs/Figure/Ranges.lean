import LineChart.Description.Presets
import LineChart.Proofs.Figure.Parts
import LineChart.Proofs.Figure.Span
import LineChart.Proofs.Number.Halves

/-!
# Ranges that numbers can be placed in

A range is well formed if its ends are finite and the low one is below the high one. The range around
finite coordinates is so, with two exceptions. A half more and a half less do not move an even integer
beyond `2 ^ 52`, so coordinates that are all one such integer get a range without width. And the span
or its margins can be out of the range of numbers.

* `Interval.Stuck`, `Interval.OutOfRange` : the two exceptions.
* `Interval.wellFormed_around_iff` : the range from one widening below to one widening above.
* `Interval.padded_wellFormed_iff` : the range around some numbers.
* `Interval.WellFormed.width` : what places in a well-formed range are divided by.
* `Interval.padded_of_units_le` : numbers of ordinary size.
* `Figure.axisRange_wellFormed_iff` : the axes of a figure.
-/

namespace LineChart

open FloatFormat (double)
open Binary (Held)
open Double (halfSteps Unmoved)

namespace Interval

variable {low high : Double} {values : List Double} {range : Interval}

/-- A range with finite ends, the low end below the high end. -/
structure WellFormed (range : Interval) : Prop where
  low : range.low.isFinite = true
  high : range.high.isFinite = true
  less : range.low.less range.high = true

instance (range : Interval) : Decidable range.WellFormed :=
  decidable_of_iff (range.low.isFinite = true ∧ range.high.isFinite = true ∧
    range.low.less range.high = true)
    ⟨fun h => ⟨h.1, h.2.1, h.2.2⟩, fun h => ⟨h.low, h.high, h.less⟩⟩

theorem wellFormed_iff (hlow : range.low.isFinite = true) (hhigh : range.high.isFinite = true) :
    range.WellFormed ↔ range.low.signedUnits < range.high.signedUnits := by
  have hless := Binary.less_iff (Binary.isNaN_of_isFinite hlow) (Binary.isNaN_of_isFinite hhigh)
  rw [Binary.place_lt_iff] at hless
  exact ⟨fun h => hless.1 h.less, fun h => ⟨hlow, hhigh, hless.2 h⟩⟩

/-! ### The two exceptions -/

/-- All numbers are one even integer beyond `2 ^ 52`, on either side of zero. -/
def Stuck (values : List Double) : Prop :=
  ∃ v ∈ values, (∀ w ∈ values, w.signedUnits = v.signedUnits) ∧
    2 ^ 52 * double.one < v.units ∧ 2 * double.one ∣ v.units

/-- The margin on each side of a span, both rounded, in finest steps. -/
def marginSteps (span : Int) : Int := ((.ofUnits false span : Double) * margin).signedUnits

/-- A span is too wide for a number, or there is no number one margin beyond one of its ends. -/
def Exceeds (low high : Int) : Prop :=
  Double.overflow ≤ high - low ∨ Double.overflow ≤ high + marginSteps (high - low) ∨
    Double.overflow ≤ marginSteps (high - low) - low

instance (low high : Int) : Decidable (Exceeds low high) :=
  inferInstanceAs (Decidable (_ ∨ _ ∨ _))

/-- The span of some numbers or its margins are out of range. -/
def OutOfRange (values : List Double) : Prop :=
  ∃ low high, Lowest low values ∧ Highest high values ∧ Exceeds low.signedUnits high.signedUnits

theorem not_outOfRange_nil : ¬ OutOfRange [] := by
  rintro ⟨low, high, hlow, -⟩
  exact absurd hlow.mem List.not_mem_nil

theorem stuck_iff (hlow : Lowest low values) (hhigh : Highest high values) :
    Stuck values ↔ low.signedUnits = high.signedUnits ∧ 2 ^ 52 * double.one < low.units ∧
      2 * double.one ∣ low.units := by
  constructor
  · rintro ⟨v, -, hall, hbeyond, heven⟩
    have hvlow := hall low hlow.mem
    have hunits : low.units = v.units := by
      rw [← Binary.natAbs_signedUnits, hvlow, Binary.natAbs_signedUnits]
    rw [hunits]
    exact ⟨hvlow.trans (hall high hhigh.mem).symm, hbeyond, heven⟩
  · rintro ⟨heq, hsize⟩
    refine ⟨low, hlow.mem, fun w hw => ?_, hsize⟩
    have hbelow := Binary.place_le_iff.1 (hlow.le w hw)
    have habove := Binary.place_le_iff.1 (hhigh.le w hw)
    omega

theorem outOfRange_iff (hlow : Lowest low values) (hhigh : Highest high values) :
    OutOfRange values ↔ Exceeds low.signedUnits high.signedUnits := by
  constructor
  · rintro ⟨low', high', hlow', hhigh', hexceeds⟩
    rwa [Binary.place_eq_iff.1 (hlow'.place_eq hlow),
      Binary.place_eq_iff.1 (hhigh'.place_eq hhigh)] at hexceeds
  · intro hexceeds
    exact ⟨low, high, hlow, hhigh, hexceeds⟩

/-! ### Margins -/

/-- A margin is at most one sixteenth of the span. -/
theorem mul_margin_le {span : Double} (hspan : span.isFinite = true) (hpos : 0 ≤ span.place)
    {bound : Int} (hbound : Held double bound) (hle : span.signedUnits ≤ 16 * bound) :
    (span * margin).isFinite = true ∧ 0 ≤ (span * margin).signedUnits ∧
      (span * margin).signedUnits ≤ bound := by
  obtain ⟨b, hb, rfl⟩ := hbound
  obtain ⟨hmargin, hsign, hzero, hsmall⟩ := margin_spec
  have hsteps := Binary.place_nonneg_iff.1 hpos
  have hbpos : 0 ≤ b.place := Binary.place_nonneg_iff.2 (by omega)
  have habs := b.natAbs_signedUnits
  have habs' := span.natAbs_signedUnits
  have hproduct : span.units * margin.units ≤ b.units * double.one :=
    calc span.units * margin.units ≤ 16 * b.units * margin.units :=
          Nat.mul_le_mul_right _ (by omega)
      _ = b.units * (16 * margin.units) := by rw [Nat.mul_comm 16, Nat.mul_assoc]
      _ ≤ b.units * double.one := Nat.mul_le_mul_left _ hsmall
  have hnonneg := Binary.place_mul_nonneg (Binary.isNaN_of_isFinite hspan) hpos hmargin hsign hzero
  have hplace := Binary.place_mul_le hspan hmargin hpos hsign hbpos hproduct
  refine ⟨?_, Binary.place_nonneg_iff.1 hnonneg, Binary.place_le_iff.1 hplace⟩
  rw [Binary.isFinite_iff] at hb ⊢
  omega

/-- The margin of a span that is not empty. -/
theorem marginSteps_eq (hlow : low.isFinite = true) (hhigh : high.isFinite = true)
    (hlt : low.signedUnits < high.signedUnits) :
    marginSteps (high.signedUnits - low.signedUnits) = ((high - low) * margin).signedUnits := by
  have hne : high.signedUnits - low.signedUnits ≠ 0 := by omega
  rw [marginSteps, Binary.sub_eq hhigh hlow, Binary.ofUnits, Binary.ofUnits, if_neg hne, if_neg hne]

/-- Ends with room for a bound of their margin are within the range of numbers. -/
theorem not_exceeds (hlow : low.isFinite = true) (hhigh : high.isFinite = true)
    (h : low.place ≤ high.place) (hspan : (high - low).isFinite = true) {bound : Int}
    (hmargin : ((high - low) * margin).signedUnits ≤ bound) (hpos : 0 ≤ bound)
    (habove : high.signedUnits + bound < Double.overflow)
    (hbelow : bound - low.signedUnits < Double.overflow) :
    ¬ Exceeds low.signedUnits high.signedUnits := by
  have hrange := (Double.isFinite_sub_iff hhigh hlow).1 hspan
  rcases Int.lt_or_eq_of_le (Binary.place_le_iff.1 h) with hlt | heq
  · rw [Exceeds, marginSteps_eq hlow hhigh hlt]
    omega
  · have hzero : marginSteps 0 = 0 := by decide +kernel
    rw [Exceeds, heq, Int.sub_self, hzero]
    omega

/-! ### Flat spans -/

theorem larger_abs_one (hhigh : high.isFinite = true) :
    (high.abs.larger (.ofNat 1)).isFinite = true ∧
      (high.abs.larger (.ofNat 1)).negative = false := by
  have hnan : high.abs.isNaN = false := Binary.isNaN_of_isFinite (x := high.abs) hhigh
  rcases (larger_spec high.abs (.ofNat 1) hnan (by decide +kernel)).1 with h | h <;> rw [h]
  · exact ⟨hhigh, rfl⟩
  · decide +kernel

/-- Flat spans are smaller by fifty-two digits than the greatest numbers. -/
theorem flatBound_spec (hhigh : high.isFinite = true) :
    (flatBound high).isFinite = true ∧ 0 ≤ (flatBound high).signedUnits ∧
      (flatBound high).signedUnits ≤ 4 * (2 ^ 2044 : Nat) := by
  have hepsilon : (.epsilon : Double).isFinite = true ∧ 0 ≤ (.epsilon : Double).place ∧
      double.one = (.epsilon : Double).units * 2 ^ 52 := by
    decide +kernel
  obtain ⟨e, he⟩ : ∃ e : Double, e = .epsilon := ⟨_, rfl⟩
  obtain ⟨m, hm⟩ : ∃ m, m = high.abs.larger (.ofNat 1) := ⟨_, rfl⟩
  rw [← he] at hepsilon
  have hsize : m.isFinite = true ∧ m.negative = false := hm ▸ larger_abs_one hhigh
  obtain ⟨bound, hbound, hvalue⟩ := Double.held_mul_two_pow 4 2044 (by decide)
    (by decide)
  have hbpos : 0 ≤ bound.place := Binary.place_nonneg_iff.2 (by omega)
  have habs := bound.natAbs_signedUnits
  have hoverflow := Double.overflow_eq
  have hproduct : e.units * m.units ≤ bound.units * double.one := by
    have hm' := Double.natAbs_add_le_overflow hsize.1
    rw [Binary.natAbs_signedUnits] at hm'
    calc e.units * m.units ≤ e.units * (2 ^ 52 * bound.units) :=
          Nat.mul_le_mul_left _ (by omega)
      _ = bound.units * double.one := by
          rw [hepsilon.2.2, Nat.mul_comm, Nat.mul_assoc, Nat.mul_left_comm, Nat.mul_comm (2 ^ 52)]
  have hplace := Binary.place_mul_le hepsilon.1 hsize.1 hepsilon.2.1 hsize.2 hbpos hproduct
  have hnonneg := Binary.place_mul hepsilon.1 hsize.1 hepsilon.2.1 hsize.2
  rw [flatBound, ← hm, ← he]
  refine ⟨?_, Binary.place_nonneg_iff.1 (by omega), ?_⟩
  · rw [Binary.isFinite_iff] at hbound ⊢
    omega
  · have hsteps := Binary.place_le_iff.1 hplace
    omega

section

variable (hlow : low.isFinite = true) (hhigh : high.isFinite = true) (h : low.place ≤ high.place)

include hlow hhigh in
theorem flat_iff : Flat low high ↔ (high - low).place ≤ (flatBound high).place :=
  Binary.atMost_iff (Binary.isNaN_sub hhigh (Binary.isNaN_of_isFinite hlow))
    (Binary.isNaN_of_isFinite (flatBound_spec hhigh).1)

include hlow hhigh h in
/-- Equal ends are flat, so ends that are not flat are different. -/
theorem lt_of_not_flat (hflat : ¬ Flat low high) : low.signedUnits < high.signedUnits := by
  have hnonneg := Binary.place_nonneg_iff.2 (flatBound_spec hhigh).2.1
  rw [flat_iff hlow hhigh] at hflat
  rw [← Binary.place_lt_iff]
  by_contra hlt
  have hzero := Binary.place_sub_eq_zero hhigh hlow (Int.le_antisymm (Int.not_lt.1 hlt) h)
  omega

include hlow hhigh h in
/-- A flat span and its margins are within the range of numbers. -/
theorem not_exceeds_of_flat (hflat : Flat low high) :
    ¬ Exceeds low.signedUnits high.signedUnits := by
  obtain ⟨hfinite, -, hbound⟩ := flatBound_spec hhigh
  rw [flat_iff hlow hhigh] at hflat
  have hpos := Binary.place_sub_nonneg hhigh hlow h
  have hspan : (high - low).isFinite = true := by
    rw [Binary.isFinite_iff] at hfinite ⊢
    omega
  have hsteps := Binary.place_le_iff.1 hflat
  have hsixteen : 4 * 2 ^ 2044 = 16 * 2 ^ 2042 ∧ 2 ^ 2042 < 2 ^ 2044 := by decide +kernel
  obtain ⟨-, -, hmargin⟩ := mul_margin_le hspan hpos
    (Double.held_mul_two_pow 1 2042 (by decide) (by decide)) (by omega)
  have hlow' := Double.natAbs_add_le_overflow hlow
  have hhigh' := Double.natAbs_add_le_overflow hhigh
  exact not_exceeds hlow hhigh h hspan hmargin (by omega) (by omega) (by omega)

end

/-! ### The range around finite coordinates -/

theorem half_spec : half.isFinite = true ∧ half.signedUnits = halfSteps := by decide +kernel

section

variable (hlow : low.isFinite = true) (hhigh : high.isFinite = true) (h : low.place ≤ high.place)

include hlow hhigh in
/-- A half is too small to leave the range of numbers. -/
theorem isFinite_sub_add_half : (low - half).isFinite = true ∧ (high + half).isFinite = true := by
  have hsmall : halfSteps < 2 ^ 2044 := by decide +kernel
  have hlow' := Double.natAbs_add_le_overflow hlow
  have hhigh' := Double.natAbs_add_le_overflow hhigh
  rw [Double.isFinite_sub_iff hlow half_spec.1, Double.isFinite_add_iff hhigh half_spec.1,
    half_spec.2]
  omega

include hlow hhigh h in
/-- **A half on each side makes a width**, unless both ends are one number that it does not move. -/
theorem lt_half_iff : (low - half).signedUnits < (high + half).signedUnits ↔
    ¬ (low.signedUnits = high.signedUnits ∧ Unmoved low) := by
  obtain ⟨hless, hmore⟩ := isFinite_sub_add_half hlow hhigh
  have hless := Double.nearestTo_sub hlow half_spec.1 hless
  have hmore := Double.nearestTo_add hhigh half_spec.1 hmore
  rw [half_spec.2] at hless hmore
  have hbelow := hless.mono (Binary.nearestTo_self hlow) (by omega)
  have habove := (Binary.nearestTo_self hhigh).mono hmore (by omega)
  have hends := Binary.place_le_iff.1 h
  constructor
  · rintro hlt ⟨heq, hunmoved, hunmoved'⟩
    rw [heq] at hunmoved
    have hsame := hunmoved.unique hmore
    have hsame' := hunmoved'.unique hless
    omega
  · intro hmoved
    by_contra hle
    refine hmoved ⟨by omega, ?_, ?_⟩
    · have heq : low.signedUnits = high.signedUnits := by omega
      rw [heq]
      exact hmore.of_place_eq (Binary.place_eq_iff.2 (by omega))
    · exact hless.of_place_eq (Binary.place_eq_iff.2 (by omega))

include hlow hhigh in
/-- The margin of an infinite span is infinite, and so is the high end of the range. -/
theorem not_wellFormed_of_infinite (hspan : (high - low).isFinite = false) :
    ¬ (⟨low - (high - low) * margin, high + (high - low) * margin⟩ : Interval).WellFormed := by
  intro hformed
  have hinfinite := (Binary.isInfinite_iff
    (Binary.isNaN_sub hhigh (Binary.isNaN_of_isFinite hlow))).2 hspan
  have hmargin := Binary.mul_of_isInfinite hinfinite margin_spec.1 margin_spec.2.2.1
  have hend : (high + (high - low) * margin).isFinite = true := hformed.high
  rw [hmargin, Binary.add_of_isInfinite hhigh rfl] at hend
  exact Bool.noConfusion hend

include hlow hhigh h in
/-- The ends one margin beyond a span are finite if they are within the range of numbers. -/
theorem isFinite_margins_iff (hlt : low.signedUnits < high.signedUnits)
    (hspan : (high - low).isFinite = true) :
    ((low - (high - low) * margin).isFinite = true ∧
      (high + (high - low) * margin).isFinite = true) ↔
      ¬ Exceeds low.signedUnits high.signedUnits := by
  have hspan' := Double.natAbs_add_le_overflow hspan
  have hoverflow := Double.overflow_eq
  obtain ⟨hmargin, hnonneg, -⟩ := mul_margin_le hspan (Binary.place_sub_nonneg hhigh hlow h)
    (Double.held_mul_two_pow (2 ^ 50) 2044 (by decide) (by decide)) (by omega)
  have hrange := (Double.isFinite_sub_iff hhigh hlow).1 hspan
  have hlow' := Double.natAbs_add_le_overflow hlow
  have hhigh' := Double.natAbs_add_le_overflow hhigh
  rw [Double.isFinite_sub_iff hlow hmargin, Double.isFinite_add_iff hhigh hmargin, Exceeds,
    marginSteps_eq hlow hhigh hlt]
  omega

include hlow hhigh h in
/-- **The margins leave a width**, unless they are out of range. -/
theorem wellFormed_margins_iff (hlt : low.signedUnits < high.signedUnits) :
    (⟨low - (high - low) * margin, high + (high - low) * margin⟩ : Interval).WellFormed ↔
      ¬ Exceeds low.signedUnits high.signedUnits := by
  cases hspan : (high - low).isFinite with
  | false =>
    have hrange := Double.isFinite_sub_iff hhigh hlow
    rw [hspan, Bool.false_eq_true, false_iff] at hrange
    have hout : Exceeds low.signedUnits high.signedUnits := .inl (by omega)
    exact ⟨fun hformed => absurd hformed (not_wellFormed_of_infinite hlow hhigh hspan),
      fun hwithin => absurd hout hwithin⟩
  | true =>
    rw [← isFinite_margins_iff hlow hhigh h hlt hspan]
    refine ⟨fun hformed => ⟨hformed.low, hformed.high⟩, fun ⟨hless, hmore⟩ => ?_⟩
    obtain ⟨hmargin, hpos⟩ := mul_margin_nonneg hlow hhigh h
    have hbelow := Binary.place_le_iff.1 (Binary.place_sub_le hlow hmargin hpos)
    have habove := Binary.place_le_iff.1 (Binary.le_place_add hhigh hmargin hpos)
    rw [wellFormed_iff hless hmore]
    exact Int.lt_of_le_of_lt hbelow (Int.lt_of_lt_of_le hlt habove)

include hlow hhigh h in
/-- **The range from one widening below to one widening above** is well formed, unless a half does
not move the only coordinate, or the span or its margins are out of range. -/
theorem wellFormed_around_iff :
    (⟨low - widening low high, high + widening low high⟩ : Interval).WellFormed ↔
      ¬ (low.signedUnits = high.signedUnits ∧ Unmoved low) ∧
        ¬ Exceeds low.signedUnits high.signedUnits := by
  by_cases hflat : Flat low high
  · obtain ⟨hless, hmore⟩ := isFinite_sub_add_half hlow hhigh
    rw [widening_of_flat hflat, wellFormed_iff hless hmore, lt_half_iff hlow hhigh h]
    exact ⟨fun hmoved => ⟨hmoved, not_exceeds_of_flat hlow hhigh h hflat⟩, And.left⟩
  · have hlt := lt_of_not_flat hlow hhigh h hflat
    rw [widening_of_not_flat hflat, wellFormed_margins_iff hlow hhigh h hlt]
    exact ⟨fun hrange => ⟨fun hstuck => by omega, hrange⟩, And.right⟩

end

/-- **The range around finite numbers is well formed** but for the two exceptions. -/
theorem padded_wellFormed_iff (hfinite : ∀ v ∈ values, v.isFinite = true) :
    (padded values).WellFormed ↔ ¬ Stuck values ∧ ¬ OutOfRange values := by
  by_cases hne : values = []
  · rw [hne]
    refine ⟨fun _ => ⟨?_, not_outOfRange_nil⟩, fun _ => by decide +kernel⟩
    rintro ⟨v, hv, -⟩
    exact absurd hv List.not_mem_nil
  obtain ⟨low, high, hlow, hhigh, heq⟩ := padded_eq hne hfinite
  have hlowFinite := hfinite low hlow.mem
  have hends := hlow.place_le hhigh
  rw [heq, wellFormed_around_iff hlowFinite (hfinite high hhigh.mem) hends,
    Double.unmoved_iff hlowFinite, stuck_iff hlow hhigh, outOfRange_iff hlow hhigh]

/-- The span of these two is out of range, and both ends are infinite. -/
example : padded [.ofDecimal false ⟨1, 308⟩, .ofDecimal true ⟨1, 308⟩] =
    ⟨.infinite true, .infinite false⟩ := by
  decide +kernel

/-! ### The width of a range -/

/-- What places on an axis are divided by. -/
def width (range : Interval) : Double := range.high - range.low

/-- The width of a well-formed range is not zero. It is infinite if the ends are too far apart. -/
theorem WellFormed.width (h : range.WellFormed) : range.width.isZero = false ∧
    (range.width.isFinite = true ↔
      range.high.signedUnits - range.low.signedUnits < Double.overflow) := by
  have hlt := (wellFormed_iff h.low h.high).1 h
  have hfinite := Double.isFinite_sub_iff h.high h.low
  refine ⟨?_, by rw [Interval.width, hfinite]; omega⟩
  rw [Interval.width, Binary.sub_eq h.high h.low, ← Bool.not_eq_true,
    Binary.isZero_ofUnits (by decide)]
  omega

/-- With their margins, these two are farther apart than the greatest number. -/
example : (padded [.ofDecimal false ⟨85, 306⟩, .ofDecimal true ⟨85, 306⟩]).WellFormed ∧
    (padded [.ofDecimal false ⟨85, 306⟩, .ofDecimal true ⟨85, 306⟩]).width.isFinite = false := by
  decide +kernel

/-! ### Numbers of ordinary size -/

section

variable (hlow : low.isFinite = true) (hhigh : high.isFinite = true) (h : low.place ≤ high.place)
  (hlow' : low.signedUnits.natAbs ≤ 2 ^ 52 * 2 ^ 2044)
  (hhigh' : high.signedUnits.natAbs ≤ 2 ^ 52 * 2 ^ 2044)

include hlow hhigh h hlow' hhigh' in
/-- The span of two numbers of ordinary size, and its margin. -/
theorem mul_margin_le_of_units_le : (high - low).isFinite = true ∧
    ((high - low) * margin).isFinite = true ∧ 0 ≤ ((high - low) * margin).signedUnits ∧
      ((high - low) * margin).signedUnits ≤ (2 ^ 49 : Nat) * (2 ^ 2044 : Nat) := by
  have hoverflow := Double.overflow_eq
  have hspan := (Double.isFinite_sub_iff hhigh hlow).2 (by omega)
  have hsize := (Double.held_mul_two_pow (2 ^ 53 : Nat) 2044 (by decide)
    (by decide)).signedUnits_le (Double.nearestTo_sub hhigh hlow hspan) (by omega)
  exact ⟨hspan, mul_margin_le hspan (Binary.place_sub_nonneg hhigh hlow h)
    (Double.held_mul_two_pow (2 ^ 49 : Nat) 2044 (by decide) (by decide))
    (by omega)⟩

include hlow hhigh h hlow' hhigh' in
theorem not_exceeds_of_units_le : ¬ Exceeds low.signedUnits high.signedUnits := by
  have hoverflow := Double.overflow_eq
  obtain ⟨hspan, -, -, hmargin⟩ := mul_margin_le_of_units_le hlow hhigh h hlow' hhigh'
  exact not_exceeds hlow hhigh h hspan hmargin (by omega) (by omega) (by omega)

include hlow hhigh h hlow' hhigh' in
theorem widening_le_of_units_le : (widening low high).isFinite = true ∧
    0 ≤ (widening low high).signedUnits ∧
      (widening low high).signedUnits ≤ (2 ^ 49 : Nat) * (2 ^ 2044 : Nat) := by
  by_cases hflat : Flat low high
  · rw [widening_of_flat hflat]
    decide +kernel
  · rw [widening_of_not_flat hflat]
    exact (mul_margin_le_of_units_le hlow hhigh h hlow' hhigh').2

include hlow hhigh h hlow' hhigh' in
/-- The ends of the range are one eighth farther out than numbers of ordinary size at most. -/
theorem isFinite_width_around :
    (width ⟨low - widening low high, high + widening low high⟩).isFinite = true := by
  have hoverflow := Double.overflow_eq
  obtain ⟨hfinite, hpos, hle⟩ := widening_le_of_units_le hlow hhigh h hlow' hhigh'
  have hless := (Double.isFinite_sub_iff hlow hfinite).2 (by omega)
  have hmore := (Double.isFinite_add_iff hhigh hfinite).2 (by omega)
  have hfar : Held double ((2 ^ 52 + 2 ^ 49 : Nat) * (2 ^ 2044 : Nat)) :=
    Double.held_mul_two_pow _ _ (by decide) (by decide)
  have hnear : Held double (-(2 ^ 52 + 2 ^ 49 : Nat) * (2 ^ 2044 : Nat)) :=
    Double.held_mul_two_pow _ _ (by decide) (by decide)
  have hbelow := hnear.le_signedUnits (Double.nearestTo_sub hlow hfinite hless) (by omega)
  have habove := hfar.signedUnits_le (Double.nearestTo_add hhigh hfinite hmore) (by omega)
  have hends := Binary.place_le_iff.1 (place_sub_widening_le hlow hhigh h)
  have hends' := Binary.place_le_iff.1 (le_place_add_widening hlow hhigh h)
  have horder := Binary.place_le_iff.1 h
  rw [width, Double.isFinite_sub_iff hmore hless]
  omega

end

/-- **Numbers up to `2 ^ 1022`**, on either side of zero, have a range with a finite width, and it is
well formed unless they are all one even integer beyond `2 ^ 52`. -/
theorem padded_of_units_le (hfinite : ∀ v ∈ values, v.isFinite = true)
    (hsize : ∀ v ∈ values, v.units ≤ 2 ^ 1022 * double.one) :
    ((padded values).WellFormed ↔ ¬ Stuck values) ∧ (padded values).width.isFinite = true := by
  have hunits : 2 ^ 1022 * double.one = 2 ^ 52 * 2 ^ 2044 := by decide +kernel
  simp only [hunits, ← Binary.natAbs_signedUnits] at hsize
  rw [padded_wellFormed_iff hfinite]
  by_cases hne : values = []
  · rw [hne]
    exact ⟨and_iff_left not_outOfRange_nil, by decide +kernel⟩
  · obtain ⟨low, high, hlow, hhigh, heq⟩ := padded_eq hne hfinite
    have hends := hlow.place_le hhigh
    have hlow' := hsize low hlow.mem
    have hhigh' := hsize high hhigh.mem
    have hlowFinite := hfinite low hlow.mem
    have hhighFinite := hfinite high hhigh.mem
    rw [outOfRange_iff hlow hhigh, heq]
    exact ⟨and_iff_left (not_exceeds_of_units_le hlowFinite hhighFinite hends hlow' hhigh'),
      isFinite_width_around hlowFinite hhighFinite hends hlow' hhigh'⟩

end Interval

namespace Figure

/-- **Which axes get a range that numbers can be placed in.** Where all coordinates are finite, the
range of an axis without an explicit one is well formed, unless the coordinates are all one even
integer beyond `2 ^ 52`, or their span or its margins are out of range. Its width is not zero then, and
it is finite if the ends are not too far apart. -/
theorem axisRange_wellFormed_iff {f : Figure} {axis : Axis} (hauto : f.range? axis = none)
    (hfinite : ∀ v ∈ f.coordinates axis, v.isFinite = true) :
    ((f.axisRange axis).WellFormed ↔
      ¬ Interval.Stuck (f.coordinates axis) ∧ ¬ Interval.OutOfRange (f.coordinates axis)) ∧
    ((f.axisRange axis).WellFormed → (f.axisRange axis).width.isZero = false ∧
      ((f.axisRange axis).width.isFinite = true ↔
        (f.axisRange axis).high.signedUnits - (f.axisRange axis).low.signedUnits <
          Double.overflow)) := by
  rw [axisRange_eq hauto]
  exact ⟨Interval.padded_wellFormed_iff hfinite, Interval.WellFormed.width⟩

/-- Requests that all start at one time, in nanoseconds since 1970. -/
def lateRequests (elapsed : List Int64) : Table :=
  timedRequests (elapsed.map fun time => (.integer 1700000000000000000, .integer time))

/-- The elapsed times of late requests get a range. -/
theorem lateRequests_elapsed_range :
    ∃ f, (resolve (Presets.requestTime "all queues") (lateRequests [5, 7])).outcome = .ok f ∧
      f.range? .y = none ∧ f.coordinates .y = [.ofNat 5, .ofNat 7] ∧
      (∀ v ∈ f.coordinates .y, v.isFinite = true) ∧ (f.axisRange .y).WellFormed ∧
      (f.axisRange .y).width.isZero = false ∧ (f.axisRange .y).width.isFinite = true := by
  have htimes : (resolve (Presets.requestTime "all queues")
      (lateRequests [5, 7])).outcome.toOption.map (fun f => (f.range? .y, f.coordinates .y)) =
        some (none, [.ofNat 5, .ofNat 7]) := by
    decide +kernel
  obtain ⟨f, hf, hvalues⟩ := exists_ok_of_map htimes
  obtain ⟨hauto, hcoordinates⟩ := Prod.mk.injEq _ _ _ _ ▸ hvalues
  have hfinite : ∀ v ∈ f.coordinates .y, v.isFinite = true := by
    rw [hcoordinates]
    decide +kernel
  obtain ⟨hformed, hwidth⟩ := axisRange_wellFormed_iff hauto hfinite
  have hlow : Interval.Lowest (.ofNat 5) (f.coordinates .y) := by
    rw [hcoordinates]
    exact ⟨by simp, by decide +kernel⟩
  have hhigh : Interval.Highest (.ofNat 7) (f.coordinates .y) := by
    rw [hcoordinates]
    exact ⟨by simp, by decide +kernel⟩
  have hwell := hformed.2 ⟨by rw [Interval.stuck_iff hlow hhigh]; decide +kernel,
    by rw [Interval.outOfRange_iff hlow hhigh]; decide +kernel⟩
  refine ⟨f, hf, hauto, hcoordinates, hfinite, hwell, (hwidth hwell).1, (hwidth hwell).2.2 ?_⟩
  rw [axisRange_eq hauto, hcoordinates]
  decide +kernel

/-- The start times of late requests do not: half a nanosecond more or less makes no difference. -/
theorem exists_range_without_width :
    ¬ ∀ (f : Figure) (axis : Axis), f.range? axis = none →
      (∀ v ∈ f.coordinates axis, v.isFinite = true) → (f.axisRange axis).WellFormed := by
  intro h
  have hrange : (resolve (Presets.requestTime "all queues")
      (lateRequests [5, 7])).outcome.toOption.map (fun f => (f.range? .x, f.coordinates .x,
        decide (f.axisRange .x).WellFormed)) =
      some (none, [.ofNat 1700000000000000000, .ofNat 1700000000000000000], false) := by
    decide +kernel
  obtain ⟨f, -, hf⟩ := exists_ok_of_map hrange
  simp only [Prod.mk.injEq, decide_eq_false_iff_not] at hf
  obtain ⟨hauto, hcoordinates, hflat⟩ := hf
  refine hflat (h f .x hauto fun v hv => ?_)
  rw [hcoordinates] at hv
  simp only [List.mem_cons, List.not_mem_nil, or_false, or_self] at hv
  rw [hv]
  decide +kernel

end Figure

end LineChart
