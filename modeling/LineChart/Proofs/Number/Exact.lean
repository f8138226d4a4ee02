import LineChart.Number.Rounding
import Mathlib.Algebra.Order.Ring.Nat

/-!
# Exact conversions

Rounding loses nothing where the binary digits that it drops are all zero. The integers that a format
has digits for are such numbers, so they keep their value, and different ones stay different.

* `Binary.units_eq` : the value of a number from the parts of its magnitude.
* `Binary.signedUnits_ofUnits` : a whole number of steps without digits to lose is kept.
* `Binary.signedUnits_ofUnits_mul` : digits that a format has room for are kept, at any place.
* `Binary.signedUnits_ofInt` : the integers up to `2 ^ (fractionBits + 1)` keep their value.
* `Binary.equal_ofInt_iff` : these integers are equal as numbers only if they are equal.
-/

namespace LineChart

theorem roundHalfEven_of_dvd {num den : Nat} (h : den ∣ num) (hpos : 0 < den) :
    roundHalfEven num den = num / den := by
  obtain ⟨quotient, rfl⟩ := h
  rw [Nat.mul_comm, roundHalfEven_mul_right _ _ hpos, Nat.mul_div_cancel _ hpos]

namespace FloatFormat

variable {F : FloatFormat}

/-- A format has the range for all integers that its fraction has digits for. -/
def HoldsIntegers (F : FloatFormat) : Prop := F.fractionBits + 2 ≤ 2 ^ (F.exponentBits - 1)

theorem holdsIntegers_double : double.HoldsIntegers := by
  show 54 ≤ 2 ^ 10
  decide

theorem infinity_eq (F : FloatFormat) :
    F.infinity = (2 ^ F.exponentBits - 1) * 2 ^ F.fractionBits := by
  rw [infinity, Nat.shiftLeft_eq, Nat.one_shiftLeft]

theorem one_eq (F : FloatFormat) : F.one = 2 ^ F.scale := by rw [one, Nat.one_shiftLeft]

theorem one_pos (F : FloatFormat) : 0 < F.one := by
  rw [F.one_eq]
  exact Nat.two_pow_pos _

theorem scale_eq (F : FloatFormat) :
    F.scale = 2 ^ (F.exponentBits - 1) - 2 + F.fractionBits := by rw [scale, Nat.one_shiftLeft]

theorem HoldsIntegers.two_pow_exponentBits (hF : F.HoldsIntegers) :
    2 ^ F.exponentBits = 2 ^ (F.exponentBits - 1) * 2 := by
  rw [← Nat.pow_succ]
  congr 1
  by_contra hne
  have hzero : F.exponentBits - 1 = 0 := by omega
  rw [HoldsIntegers, hzero] at hF
  omega

/-- Nothing is rounded where the dropped digits are zero. -/
theorem nearest_of_dvd {num : Nat} (h : 2 ^ (num.log2 - F.fractionBits) ∣ num) :
    F.nearest num 1 = (num.log2 - F.fractionBits) * 2 ^ F.fractionBits +
      num / 2 ^ (num.log2 - F.fractionBits) := by
  have hround := roundHalfEven_of_dvd h (Nat.two_pow_pos _)
  simp only [nearest, Nat.div_one, Nat.shiftLeft_eq, Nat.one_mul, hround]

end FloatFormat

/-- The digits that are kept are one more than the digits dropped at most. -/
theorem div_two_pow_lt (num bits : Nat) : num / 2 ^ (num.log2 - bits) < 2 ^ (bits + 1) := by
  refine Nat.div_lt_of_lt_mul ?_
  rw [← Nat.pow_add]
  refine Nat.lt_of_lt_of_le Nat.lt_log2_self (Nat.pow_le_pow_right (by decide) ?_)
  omega

/-- Where digits are dropped, the first digit that is kept is not zero. -/
theorem two_pow_le_div {num bits : Nat} (h : bits < num.log2) :
    2 ^ bits ≤ num / 2 ^ (num.log2 - bits) := by
  have hne : num ≠ 0 := by
    intro hzero
    rw [hzero, Nat.log2_zero] at h
    omega
  rw [Nat.le_div_iff_mul_le (Nat.two_pow_pos _), ← Nat.pow_add, Nat.add_sub_cancel' h.le]
  exact Nat.log2_self_le hne

namespace Binary

variable {F : FloatFormat}

/-! ### Values and magnitudes -/

/-- The value of a number whose magnitude is made of the digits kept and the number of those dropped. -/
theorem units_eq {x : Binary F} {dropped kept : Nat}
    (hm : x.magnitude = dropped * 2 ^ F.fractionBits + kept)
    (hlow : dropped = 0 ∨ 2 ^ F.fractionBits ≤ kept) (hhigh : kept < 2 ^ (F.fractionBits + 1)) :
    x.units = kept * 2 ^ dropped := by
  have hpos : 0 < 2 ^ F.fractionBits := Nat.two_pow_pos _
  rw [Nat.pow_succ] at hhigh
  simp only [units, hm, Nat.shiftRight_eq_div_pow, Nat.shiftLeft_eq, Nat.one_mul]
  by_cases hkept : kept < 2 ^ F.fractionBits
  · -- a number below the first power of two with a full fraction
    have hzero : dropped = 0 := by omega
    simp [hzero, Nat.div_eq_of_lt hkept, Nat.mod_eq_of_lt hkept]
  · obtain ⟨rest, rfl⟩ := Nat.exists_eq_add_of_le (Nat.le_of_not_lt hkept)
    have hrest : rest < 2 ^ F.fractionBits := by omega
    have hsplit : dropped * 2 ^ F.fractionBits + (2 ^ F.fractionBits + rest) =
        rest + 2 ^ F.fractionBits * (dropped + 1) := by
      rw [Nat.mul_add, Nat.mul_comm dropped]
      omega
    rw [hsplit, Nat.add_mul_div_left _ _ hpos, Nat.add_mul_mod_self_left, Nat.div_eq_of_lt hrest,
      Nat.mod_eq_of_lt hrest]
    simp

theorem units_congr {x y : Binary F} (h : x.magnitude = y.magnitude) : x.units = y.units := by
  rw [units, units, h]

theorem units_of_magnitude_eq_zero {x : Binary F} (h : x.magnitude = 0) : x.units = 0 := by
  have hparts : x.magnitude = 0 * 2 ^ F.fractionBits + 0 := by omega
  rw [units_eq hparts (.inl rfl) (Nat.two_pow_pos _), Nat.zero_mul]

/-- Numbers at one place have one value. -/
theorem signedUnits_eq_of_place_eq {x y : Binary F} (h : x.place = y.place) :
    x.signedUnits = y.signedUnits := by
  rw [place, place] at h
  by_cases hm : x.magnitude = y.magnitude
  · have hu := units_congr hm
    by_cases hzero : y.magnitude = 0
    · have hy := units_of_magnitude_eq_zero hzero
      simp [signedUnits, hu, hy]
    · have hs : x.negative = y.negative := by
        cases hx : x.negative <;> cases hy : y.negative <;> simp [hx, hy] at h ⊢ <;> omega
      rw [signedUnits, signedUnits, hu, hs]
  · exfalso
    cases hx : x.negative <;> cases hy : y.negative <;> simp [hx, hy] at h <;> omega

/-! ### Rounding without loss -/

theorem isNaN_ofMagnitude (negative : Bool) (magnitude : Nat) :
    (ofMagnitude negative magnitude : Binary F).isNaN = false := by
  rw [isNaN, ofMagnitude, decide_eq_false_iff_not, Nat.not_lt]
  exact Nat.min_le_right _ _

theorem units_ofMagnitude (negative : Bool) {dropped kept : Nat}
    (hlow : dropped = 0 ∨ 2 ^ F.fractionBits ≤ kept) (hhigh : kept < 2 ^ (F.fractionBits + 1))
    (hrange : dropped + 3 ≤ 2 ^ F.exponentBits) :
    (ofMagnitude negative (dropped * 2 ^ F.fractionBits + kept) : Binary F).units =
      kept * 2 ^ dropped := by
  refine units_eq ?_ hlow hhigh
  have hbound : (dropped + 2) * 2 ^ F.fractionBits ≤ F.infinity := by
    rw [F.infinity_eq]
    exact Nat.mul_le_mul_right _ (by omega)
  rw [Nat.pow_succ] at hhigh
  rw [Nat.add_mul] at hbound
  exact Nat.min_eq_left (by omega)

/-- **A whole number of steps is kept**, if the digits that are dropped are zero and it is not out of
range. -/
theorem signedUnits_ofUnits {steps : Int} (zeroSign : Bool)
    (hexact : 2 ^ (steps.natAbs.log2 - F.fractionBits) ∣ steps.natAbs)
    (hrange : steps.natAbs.log2 - F.fractionBits + 3 ≤ 2 ^ F.exponentBits) :
    (ofUnits zeroSign steps : Binary F).signedUnits = steps := by
  have hlow : steps.natAbs.log2 - F.fractionBits = 0 ∨ 2 ^ F.fractionBits ≤
      steps.natAbs / 2 ^ (steps.natAbs.log2 - F.fractionBits) := by
    by_cases hlog : F.fractionBits < steps.natAbs.log2
    · exact .inr (two_pow_le_div hlog)
    · exact .inl (by omega)
  have hunits : (ofUnits zeroSign steps : Binary F).units = steps.natAbs := by
    rw [ofUnits, ofRatio, FloatFormat.nearest_of_dvd hexact,
      units_ofMagnitude _ hlow (div_two_pow_lt _ _) hrange, Nat.div_mul_cancel hexact]
  have hnegative : (ofUnits zeroSign steps : Binary F).negative =
      if steps = 0 then zeroSign else decide (steps < 0) := rfl
  rw [signedUnits, hunits, hnegative]
  by_cases hzero : steps = 0
  · rw [hzero]
    cases zeroSign <;> rfl
  · rw [if_neg hzero]
    by_cases hneg : steps < 0
    · rw [if_pos (decide_eq_true hneg)]
      omega
    · rw [if_neg (by simp [hneg])]
      omega

/-! ### Integers -/

theorem log2_mul_two_pow {n : Nat} (hn : n ≠ 0) (k : Nat) : (n * 2 ^ k).log2 = n.log2 + k := by
  obtain ⟨hlow, hhigh⟩ := (Nat.log2_eq_iff hn).1 rfl
  refine (Nat.log2_eq_iff (Nat.mul_ne_zero hn (Nat.two_pow_pos k).ne')).2 ⟨?_, ?_⟩
  · rw [Nat.pow_add]
    exact Nat.mul_le_mul_right _ hlow
  · rw [Nat.add_right_comm, Nat.pow_add]
    exact Nat.mul_lt_mul_of_pos_right hhigh (Nat.two_pow_pos k)

/-- A number that fits into `bits + 1` digits, or the first that does not, has no other digits to
drop than zeros. -/
theorem two_pow_dvd_of_le {n bits : Nat} (h : n ≤ 2 ^ (bits + 1)) : 2 ^ (n.log2 - bits) ∣ n := by
  by_cases hn : n = 0
  · rw [hn]
    exact Nat.dvd_zero _
  by_cases hlog : n.log2 ≤ bits
  · rw [Nat.sub_eq_zero_of_le hlog, Nat.pow_zero]
    exact Nat.one_dvd n
  · have hle : 2 ^ (bits + 1) ≤ n :=
      Nat.le_trans (Nat.pow_le_pow_right (by decide) (by omega)) (Nat.log2_self_le hn)
    have heq : n = 2 ^ (bits + 1) := Nat.le_antisymm h hle
    rw [heq, Nat.log2_two_pow]
    exact Nat.pow_dvd_pow 2 (by omega)

theorem natAbs_mul_one (n : Int) : (n * F.one).natAbs = n.natAbs * 2 ^ F.scale := by
  rw [Int.natAbs_mul, Int.natAbs_natCast, F.one_eq]

/-- **What a format has digits for is kept**, with any number of zeros behind the digits that is
within its range. -/
theorem signedUnits_ofUnits_mul (zeroSign : Bool) {n : Int} {places : Nat}
    (hn : n.natAbs ≤ 2 ^ (F.fractionBits + 1)) (hplaces : places + 4 ≤ 2 ^ F.exponentBits) :
    (ofUnits zeroSign (n * (2 ^ places : Nat)) : Binary F).signedUnits = n * (2 ^ places : Nat) := by
  have hmul : (n * (2 ^ places : Nat)).natAbs = n.natAbs * 2 ^ places := by
    rw [Int.natAbs_mul, Int.natAbs_natCast]
  by_cases hzero : n = 0
  · refine signedUnits_ofUnits zeroSign ?_ ?_
    · simp [hzero]
    · simp [hzero]
      omega
  have habs : n.natAbs ≠ 0 := Int.natAbs_ne_zero.2 hzero
  have hlog : (n * (2 ^ places : Nat)).natAbs.log2 = n.natAbs.log2 + places := by
    rw [hmul, log2_mul_two_pow habs]
  refine signedUnits_ofUnits zeroSign ?_ ?_
  · -- the digits dropped are zeros of the integer and zeros behind it
    rw [hlog, hmul]
    have hdvd : 2 ^ (n.natAbs.log2 - F.fractionBits) * 2 ^ places ∣ n.natAbs * 2 ^ places :=
      Nat.mul_dvd_mul_right (two_pow_dvd_of_le hn) _
    rw [← Nat.pow_add] at hdvd
    exact Nat.dvd_trans (Nat.pow_dvd_pow 2 (by omega)) hdvd
  · have hlogle : n.natAbs.log2 < F.fractionBits + 2 :=
      (Nat.log2_lt habs).2 (Nat.lt_of_le_of_lt hn (Nat.pow_lt_pow_right (by decide) (by omega)))
    rw [hlog]
    omega

/-- **The integers that a format has digits for keep their value.** -/
theorem signedUnits_ofInt (hF : F.HoldsIntegers) {n : Int}
    (hn : n.natAbs ≤ 2 ^ (F.fractionBits + 1)) : (ofInt n : Binary F).signedUnits = n * F.one := by
  have hscale := F.scale_eq
  have hexponent := hF.two_pow_exponentBits
  rw [FloatFormat.HoldsIntegers] at hF
  rw [ofInt, F.one_eq]
  exact signedUnits_ofUnits_mul false hn (by omega)

/-- **Integers are told apart as numbers**, as far as the format has digits for them. -/
theorem equal_ofInt_iff (hF : F.HoldsIntegers) {a b : Int}
    (ha : a.natAbs ≤ 2 ^ (F.fractionBits + 1)) (hb : b.natAbs ≤ 2 ^ (F.fractionBits + 1)) :
    (ofInt a : Binary F).equal (ofInt b) = true ↔ a = b := by
  have hnan : ∀ n : Int, (ofInt n : Binary F).isNaN = false := fun n => isNaN_ofMagnitude _ _
  simp only [equal, hnan, Bool.not_false, Bool.true_and, decide_eq_true_eq]
  constructor
  · intro hplace
    have hsteps := signedUnits_eq_of_place_eq hplace
    rw [signedUnits_ofInt hF ha, signedUnits_ofInt hF hb] at hsteps
    have hone : (F.one : Int) ≠ 0 := by
      rw [F.one_eq, Ne, Int.natCast_eq_zero]
      exact (Nat.two_pow_pos _).ne'
    exact Int.eq_of_mul_eq_mul_right hone hsteps
  · intro h
    rw [h]

end Binary

end LineChart
