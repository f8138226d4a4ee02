import LineChart.Number.Arithmetic
import LineChart.Proofs.Number.Nearest
import Mathlib.Data.Nat.Log

/-!
# Order and rounding

Rounding keeps the order of exact values, and it keeps the numbers of the format as they are. So a
rounded result stays on the side of a number that its exact value is on.

* `FloatFormat.nearest_mono` : rounding is monotone.
* `Binary.nearest_units`, `Binary.place_ofUnits_signedUnits` : the numbers of a format are kept.
* `Binary.place_le_iff` : numbers are in the order of their values.
* `Binary.place_ofUnits_le_of_le`, `Binary.le_place_ofUnits_of_le` : a result and a number.
* `Double.isFinite_ofUnits_iff` : from which value on a result is out of range.
-/

namespace LineChart

/-! ### Rounding is monotone -/

theorem roundHalfEven_mono {num num' den : Nat} (h : num ≤ num') :
    roundHalfEven num den ≤ roundHalfEven num' den := by
  have hdiv : num / den ≤ num' / den := Nat.div_le_div_right h
  rcases Nat.lt_or_eq_of_le hdiv with hlt | heq
  · rcases roundHalfEven_eq num den with hround | hround <;>
      rcases roundHalfEven_eq num' den with hround' | hround' <;> rw [hround, hround'] <;> omega
  · -- within one quotient, the greater rest is rounded up if the smaller one is
    have hsplit := Nat.div_add_mod num den
    have hsplit' := Nat.div_add_mod num' den
    rw [heq] at hsplit
    simp only [roundHalfEven, heq]
    split_ifs <;> omega

namespace FloatFormat

variable {F : FloatFormat} {num num' den : Nat}

theorem nearest_zero (F : FloatFormat) : F.nearest 0 1 = 0 := by
  rw [F.nearest_of_dvd (Nat.dvd_zero _)]
  simp

theorem nearest_mono (hpos : 0 < den) (h : num ≤ num') : F.nearest num den ≤ F.nearest num' den := by
  have hdropped : F.dropped num den ≤ F.dropped num' den := by
    rw [dropped, dropped, Nat.log2_eq_log_two, Nat.log2_eq_log_two]
    exact Nat.sub_le_sub_right (Nat.log_mono_right (Nat.div_le_div_right h)) _
  rw [nearest_eq, nearest_eq]
  rcases Nat.lt_or_eq_of_le hdropped with hlt | heq
  · -- the digits kept of the greater one are at least a full fraction
    have hkept := F.kept_le num den
    have hkept' : 2 ^ F.fractionBits ≤ F.kept num' den := F.two_pow_le_kept (by omega) hpos
    have hstep : (F.dropped num den + 1) * 2 ^ F.fractionBits ≤
        F.dropped num' den * 2 ^ F.fractionBits := Nat.mul_le_mul_right _ hlt
    rw [Nat.pow_succ] at hkept
    rw [Nat.add_mul, Nat.one_mul] at hstep
    omega
  · rw [kept, kept, heq]
    exact Nat.add_le_add_left (roundHalfEven_mono h) _

end FloatFormat

namespace Binary

variable {F : FloatFormat} {x y : Binary F}

/-! ### Magnitudes and values -/

/-- **Rounding keeps the numbers of the format.** -/
theorem nearest_units (x : Binary F) : F.nearest x.units 1 = x.magnitude := by
  have hpos : 0 < 2 ^ F.fractionBits := Nat.two_pow_pos _
  have hsplit := Nat.div_add_mod x.magnitude (2 ^ F.fractionBits)
  have hrest : x.magnitude % 2 ^ F.fractionBits < 2 ^ F.fractionBits := Nat.mod_lt _ hpos
  cases hfield : x.magnitude / 2 ^ F.fractionBits with
  | zero =>
    rw [hfield, Nat.mul_zero, Nat.zero_add] at hsplit
    rw [hsplit] at hrest
    have hparts : x.magnitude = 0 * 2 ^ F.fractionBits + x.magnitude := by omega
    have hunits : x.units = x.magnitude := by
      rw [units_eq hparts (.inl rfl)
        (Nat.lt_of_lt_of_le hrest (Nat.pow_le_pow_right (by decide) (by omega))), Nat.pow_zero,
        Nat.mul_one]
    have hlog : x.units.log2 - F.fractionBits = 0 := by
      by_cases hzero : x.magnitude = 0
      · simp [hunits, hzero]
      · rw [hunits, Nat.sub_eq_zero_iff_le]
        exact Nat.le_of_lt ((Nat.log2_lt hzero).2 hrest)
    rw [F.nearest_of_dvd (by rw [hlog]; exact Nat.one_dvd _), hlog, hunits]
    simp
  | succ dropped =>
    rw [hfield, Nat.mul_comm, Nat.add_mul, Nat.one_mul] at hsplit
    have hunits : x.units =
        (2 ^ F.fractionBits + x.magnitude % 2 ^ F.fractionBits) * 2 ^ dropped := by
      refine units_eq (by omega) (.inr (Nat.le_add_right _ _)) ?_
      rw [Nat.pow_succ]
      omega
    have hlead : (2 ^ F.fractionBits + x.magnitude % 2 ^ F.fractionBits).log2 = F.fractionBits := by
      refine (Nat.log2_eq_iff (by omega)).2 ⟨Nat.le_add_right _ _, ?_⟩
      rw [Nat.pow_succ]
      omega
    have hlog : x.units.log2 - F.fractionBits = dropped := by
      rw [hunits, log2_mul_two_pow (by omega), hlead]
      omega
    rw [F.nearest_of_dvd (by rw [hlog, hunits]; exact Nat.dvd_mul_left _ _), hlog, hunits,
      Nat.mul_div_cancel _ (Nat.two_pow_pos _)]
    omega

theorem units_le_iff : x.units ≤ y.units ↔ x.magnitude ≤ y.magnitude := by
  have hmono : ∀ {x y : Binary F}, x.units ≤ y.units → x.magnitude ≤ y.magnitude := by
    intro x y h
    rw [← nearest_units x, ← nearest_units y]
    exact F.nearest_mono Nat.one_pos h
  refine ⟨hmono, fun h => ?_⟩
  by_contra hlt
  have heq : x.magnitude = y.magnitude := Nat.le_antisymm h (hmono (by omega))
  exact hlt (units_congr heq).le

theorem units_eq_zero_iff : x.units = 0 ↔ x.magnitude = 0 := by
  have hzero : (zero : Binary F).units = 0 := units_of_magnitude_eq_zero (Nat.zero_min _)
  have hmagnitude : (zero : Binary F).magnitude = 0 := Nat.zero_min _
  have hle : x.units ≤ (zero : Binary F).units ↔ x.magnitude ≤ (zero : Binary F).magnitude :=
    units_le_iff
  rw [hzero, hmagnitude] at hle
  omega

/-- **Numbers are in the order of their values.** -/
theorem place_le_iff : x.place ≤ y.place ↔ x.signedUnits ≤ y.signedUnits := by
  have hxy : x.units ≤ y.units ↔ x.magnitude ≤ y.magnitude := units_le_iff
  have hyx : y.units ≤ x.units ↔ y.magnitude ≤ x.magnitude := units_le_iff
  have hx : x.units = 0 ↔ x.magnitude = 0 := units_eq_zero_iff
  have hy : y.units = 0 ↔ y.magnitude = 0 := units_eq_zero_iff
  cases hsx : x.negative <;> cases hsy : y.negative <;>
    simp only [place, signedUnits, hsx, hsy, if_true, Bool.false_eq_true, if_false] <;> omega

theorem place_eq_iff : x.place = y.place ↔ x.signedUnits = y.signedUnits := by
  rw [Int.le_antisymm_iff, Int.le_antisymm_iff, place_le_iff, place_le_iff]

theorem isNaN_of_isFinite (h : x.isFinite = true) : x.isNaN = false := by
  have hlt : x.magnitude < F.infinity := of_decide_eq_true h
  rw [isNaN, decide_eq_false_iff_not]
  omega

theorem atMost_iff (hx : x.isNaN = false) (hy : y.isNaN = false) :
    x.atMost y = true ↔ x.place ≤ y.place := by
  simp [atMost, hx, hy]

theorem less_iff (hx : x.isNaN = false) (hy : y.isNaN = false) :
    x.less y = true ↔ x.place < y.place := by
  simp [less, hx, hy]

theorem equal_iff (hx : x.isNaN = false) (hy : y.isNaN = false) :
    x.equal y = true ↔ x.place = y.place := by
  simp [equal, hx, hy]

theorem equal_comm (x y : Binary F) : x.equal y = y.equal x := by
  rw [equal, equal, Bool.and_comm (!x.isNaN)]
  congr 1
  exact decide_eq_decide.2 eq_comm

/-- A number is finite if it stands between the two infinities. -/
theorem isFinite_iff : x.isFinite = true ↔ -(F.infinity : Int) < x.place ∧ x.place < F.infinity := by
  rw [isFinite, decide_eq_true_eq, place]
  split <;> omega

/-- A number that is not finite equals no finite one. -/
theorem equal_of_isFinite_ne (hx : x.isFinite = false) (hy : y.isFinite = true) :
    x.equal y = false := by
  cases hnan : x.isNaN with
  | true => simp [equal, hnan]
  | false =>
    rw [← Bool.not_eq_true, equal_iff hnan (isNaN_of_isFinite hy)]
    intro hplace
    rw [← Bool.not_eq_true, isFinite_iff, hplace, ← isFinite_iff] at hx
    exact hx hy

/-! ### Results and numbers -/

/-- The place of a rounded value has the sign of the value. -/
theorem place_ofUnits (zeroSign : Bool) (steps : Int) :
    (ofUnits zeroSign steps : Binary F).place =
      if steps < 0 then -((min (F.nearest steps.natAbs 1) F.infinity : Nat) : Int)
      else (min (F.nearest steps.natAbs 1) F.infinity : Nat) := by
  have hmagnitude : (ofUnits zeroSign steps : Binary F).magnitude =
      min (F.nearest steps.natAbs 1) F.infinity := rfl
  have hnegative : (ofUnits zeroSign steps : Binary F).negative =
      if steps = 0 then zeroSign else decide (steps < 0) := rfl
  rw [place, hmagnitude, hnegative]
  by_cases hzero : steps = 0
  · simp [hzero, F.nearest_zero]
  · simp [hzero]

/-- **Rounding keeps the order of values.** -/
theorem place_ofUnits_mono {a b : Int} (h : a ≤ b) (s s' : Bool) :
    (ofUnits s a : Binary F).place ≤ (ofUnits s' b : Binary F).place := by
  have hmono : ∀ {m n : Nat}, m ≤ n → F.nearest m 1 ≤ F.nearest n 1 :=
    fun hmn => F.nearest_mono Nat.one_pos hmn
  rw [place_ofUnits, place_ofUnits]
  by_cases ha : a < 0
  · by_cases hb : b < 0
    · have hle : F.nearest b.natAbs 1 ≤ F.nearest a.natAbs 1 := hmono (by omega)
      rw [if_pos ha, if_pos hb]
      omega
    · rw [if_pos ha, if_neg hb]
      omega
  · have hle : F.nearest a.natAbs 1 ≤ F.nearest b.natAbs 1 := hmono (by omega)
    rw [if_neg ha, if_neg (by omega)]
    omega

/-- The value of a number is rounded to the number. -/
theorem place_ofUnits_signedUnits (hx : x.isFinite = true) (s : Bool) :
    (ofUnits s x.signedUnits : Binary F).place = x.place := by
  have hlt : x.magnitude < F.infinity := of_decide_eq_true hx
  have habs : x.signedUnits.natAbs = x.units := by
    rw [signedUnits]
    split <;> omega
  have hzero : x.units = 0 ↔ x.magnitude = 0 := units_eq_zero_iff
  rw [place_ofUnits, habs, nearest_units, Nat.min_eq_left hlt.le, place, signedUnits]
  cases x.negative
  · rw [if_neg Bool.false_ne_true, if_neg (by omega), if_neg Bool.false_ne_true]
  · simp
    omega

theorem place_ofUnits_le_of_le (hx : x.isFinite = true) {n : Int} (h : n ≤ x.signedUnits)
    (s : Bool) : (ofUnits s n : Binary F).place ≤ x.place := by
  rw [← place_ofUnits_signedUnits hx s]
  exact place_ofUnits_mono h s s

theorem le_place_ofUnits_of_le (hx : x.isFinite = true) {n : Int} (h : x.signedUnits ≤ n)
    (s : Bool) : x.place ≤ (ofUnits s n : Binary F).place := by
  rw [← place_ofUnits_signedUnits hx s]
  exact place_ofUnits_mono h s s

theorem isNaN_ofUnits (s : Bool) (n : Int) : (ofUnits s n : Binary F).isNaN = false :=
  isNaN_ofMagnitude _ _

theorem isFinite_ofUnits (s : Bool) (n : Int) :
    (ofUnits s n : Binary F).isFinite = true ↔ F.nearest n.natAbs 1 < F.infinity := by
  have hmagnitude : (ofUnits s n : Binary F).magnitude =
      min (F.nearest n.natAbs 1) F.infinity := rfl
  rw [isFinite, decide_eq_true_eq, hmagnitude]
  omega

end Binary

/-! ### The range of doubles -/

namespace Double

/-- The first value, in finest steps, that is rounded to infinity: it lies midway between the greatest
finite number and the power of two behind it. -/
def overflow : Nat := (2 ^ 54 - 1) * 2 ^ 2044

/-- **A result is in range** up to the midpoint behind the greatest finite number. -/
theorem isFinite_ofUnits_iff (s : Bool) (n : Int) :
    (Binary.ofUnits s n : Double).isFinite = true ↔ n.natAbs < overflow := by
  rw [Binary.isFinite_ofUnits]
  constructor
  · intro h
    by_contra hle
    have hmono : FloatFormat.double.nearest overflow 1 ≤ FloatFormat.double.nearest n.natAbs 1 :=
      FloatFormat.nearest_mono Nat.one_pos (by omega)
    have hout : FloatFormat.double.nearest overflow 1 = FloatFormat.double.infinity := by
      decide +kernel
    omega
  · intro h
    have hmono : FloatFormat.double.nearest n.natAbs 1 ≤
        FloatFormat.double.nearest (overflow - 1) 1 :=
      FloatFormat.nearest_mono Nat.one_pos (by omega)
    have hin : FloatFormat.double.nearest (overflow - 1) 1 < FloatFormat.double.infinity := by
      decide +kernel
    omega

end Double

end LineChart
