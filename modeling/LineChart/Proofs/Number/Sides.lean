import LineChart.Proofs.Number.NearestTo

/-!
# On which side a result lies

Rounding keeps a result on the side that its exact value is on. So a number is not above its sum with
a number that is not negative, even where the sum is rounded to infinity, and not below its
difference with one.

* `Binary.le_place_add`, `Binary.place_sub_le` : a number, and a sum and a difference.
* `Binary.place_mul_nonneg`, `Binary.place_mul_le` : a product, and a bound of its exact value.
* `Double.isFinite_add_iff`, `Double.isFinite_sub_iff` : which sums and differences are in range.
-/

namespace LineChart

/-! ### Quotients with a common factor -/

theorem roundHalfEven_mul_mul (num den : Nat) {factor : Nat} (hpos : 0 < factor) :
    roundHalfEven (num * factor) (den * factor) = roundHalfEven num den := by
  have hless : ∀ a b : Nat, a * factor < b * factor ↔ a < b :=
    fun a b => Nat.mul_lt_mul_right hpos
  simp only [roundHalfEven, Nat.mul_div_mul_right _ _ hpos, Nat.mul_mod_mul_right,
    ← Nat.mul_assoc, hless]

theorem FloatFormat.nearest_mul (F : FloatFormat) (n : Nat) {den : Nat} (hpos : 0 < den) :
    F.nearest (n * den) den = F.nearest n 1 := by
  rw [F.nearest_eq, F.nearest_eq, kept, kept, dropped, dropped, Nat.mul_div_cancel _ hpos,
    Nat.div_one, roundHalfEven_mul_mul _ _ hpos, Nat.mul_one]

namespace Binary

variable {F : FloatFormat} {x y z : Binary F}

/-! ### Places -/

theorem place_le_infinity (h : x.isNaN = false) :
    -(F.infinity : Int) ≤ x.place ∧ x.place ≤ F.infinity := by
  have hle : ¬ F.infinity < x.magnitude := of_decide_eq_false h
  rw [place]
  split <;> omega

/-- Only the two zeros share their place. -/
theorem eq_of_place_eq (h : x.place = y.place) (hne : x.magnitude ≠ 0) : x = y := by
  have hmagnitude : x.magnitude = y.magnitude := by rw [← natAbs_place, ← natAbs_place, h]
  refine ext_fields ?_ hmagnitude
  rw [place, place] at h
  cases hx : x.negative <;> cases hy : y.negative <;> simp [hx, hy] at h ⊢ <;> omega

theorem place_nonneg_iff : 0 ≤ x.place ↔ 0 ≤ x.signedUnits := by
  have hplace : (zero : Binary F).place = 0 := by
    simp [place, zero, ofMagnitude]
  have hunits : (zero : Binary F).signedUnits = 0 := by
    simp [signedUnits, units_of_magnitude_eq_zero (x := zero) (Nat.zero_min _)]
  have hle : (zero : Binary F).place ≤ x.place ↔ (zero : Binary F).signedUnits ≤ x.signedUnits :=
    place_le_iff
  rwa [hplace, hunits] at hle

theorem isInfinite_iff (h : x.isNaN = false) : x.isInfinite = true ↔ x.isFinite = false := by
  have hle : ¬ F.infinity < x.magnitude := of_decide_eq_false h
  rw [isInfinite, isFinite, decide_eq_true_eq, decide_eq_false_iff_not]
  omega

theorem isNaN_of_isInfinite (h : x.isInfinite = true) : x.isNaN = false := by
  have heq : x.magnitude = F.infinity := of_decide_eq_true h
  rw [isNaN, decide_eq_false_iff_not]
  omega

theorem place_of_isInfinite (h : x.isInfinite = true) (hpos : 0 ≤ x.place) :
    x.place = F.infinity := by
  have heq : x.magnitude = F.infinity := of_decide_eq_true h
  have habs := x.natAbs_place
  omega

/-! ### Sums and differences -/

/-- An infinite term is the sum. -/
theorem add_of_isInfinite (hx : x.isFinite = true) (hy : y.isInfinite = true) : x + y = y := by
  show add x y = y
  simp [add, isNaN_of_isFinite hx, isNaN_of_isInfinite hy, isInfinite_of_isFinite hx, hy]

theorem isNaN_add (hx : x.isFinite = true) (hy : y.isNaN = false) : (x + y).isNaN = false := by
  cases hfinite : y.isFinite with
  | true =>
    rw [add_eq hx hfinite]
    exact isNaN_ofUnits _ _
  | false =>
    rw [add_of_isInfinite hx ((isInfinite_iff hy).2 hfinite)]
    exact hy

/-- **A number is not above its sum** with a number that is not negative. -/
theorem le_place_add (hx : x.isFinite = true) (hy : y.isNaN = false) (hpos : 0 ≤ y.place) :
    x.place ≤ (x + y).place := by
  cases hfinite : y.isFinite with
  | true =>
    rw [add_eq hx hfinite]
    have hunits := place_nonneg_iff.1 hpos
    exact le_place_ofUnits_of_le hx (by omega) _
  | false =>
    have hinfinite := (isInfinite_iff hy).2 hfinite
    rw [add_of_isInfinite hx hinfinite, place_of_isInfinite hinfinite hpos]
    exact (isFinite_iff.1 hx).2.le

theorem isNaN_sub (hx : x.isFinite = true) (hy : y.isNaN = false) : (x - y).isNaN = false :=
  isNaN_add hx ((isNaN_neg y).trans hy)

/-- **A number is not below its difference** with a number that is not negative. -/
theorem place_sub_le (hx : x.isFinite = true) (hy : y.isNaN = false) (hpos : 0 ≤ y.place) :
    (x - y).place ≤ x.place := by
  cases hfinite : y.isFinite with
  | true =>
    rw [sub_eq hx hfinite]
    have hunits := place_nonneg_iff.1 hpos
    exact place_ofUnits_le_of_le hx (by omega) _
  | false =>
    have hinfinite := (isInfinite_iff hy).2 hfinite
    have hsub : x - y = x + -y := rfl
    rw [hsub, add_of_isInfinite hx (y := -y) hinfinite, place_neg,
      place_of_isInfinite hinfinite hpos]
    exact (isFinite_iff.1 hx).1.le

/-- A difference is not negative if the number taken away is not greater. -/
theorem place_sub_nonneg (hx : x.isFinite = true) (hy : y.isFinite = true)
    (h : y.place ≤ x.place) : 0 ≤ (x - y).place := by
  have hunits := place_le_iff.1 h
  rw [sub_eq hx hy, place_ofUnits, if_neg (by omega)]
  omega

theorem place_sub_eq_zero (hx : x.isFinite = true) (hy : y.isFinite = true)
    (h : x.place = y.place) : (x - y).place = 0 := by
  have hunits := place_eq_iff.1 h
  rw [sub_eq hx hy, hunits, Int.sub_self, place_ofUnits, if_neg (by omega), Int.natAbs_zero,
    F.nearest_zero]
  simp

/-- Only nothing is rounded to zero. -/
theorem isZero_ofUnits (hpos : 0 < F.infinity) (s : Bool) (n : Int) :
    (ofUnits s n : Binary F).isZero = true ↔ n = 0 := by
  have hmagnitude : (ofUnits s n : Binary F).magnitude = min (F.nearest n.natAbs 1) F.infinity := rfl
  rw [isZero, decide_eq_true_eq, hmagnitude]
  constructor
  · intro h
    by_contra hne
    have hlog : Nat.log2 1 = 0 := by decide
    have hone : F.nearest 1 1 = 1 := by
      rw [F.nearest_of_dvd (by simp [hlog]), hlog]
      simp
    have hmono : F.nearest 1 1 ≤ F.nearest n.natAbs 1 := F.nearest_mono Nat.one_pos (by omega)
    omega
  · rintro rfl
    simp [F.nearest_zero]

/-! ### Products -/

theorem mul_eq (hx : x.isFinite = true) (hy : y.isFinite = true) :
    x * y = ofRatio (x.negative != y.negative) (x.units * y.units) F.one := by
  show mul x y = _
  simp [mul, isNaN_of_isFinite hx, isNaN_of_isFinite hy, isInfinite_of_isFinite hx,
    isInfinite_of_isFinite hy]

theorem mul_of_isInfinite (hx : x.isInfinite = true) (hy : y.isFinite = true)
    (hzero : y.isZero = false) : x * y = infinite (x.negative != y.negative) := by
  have hlt : y.magnitude < F.infinity := of_decide_eq_true hy
  have heq : x.magnitude = F.infinity := of_decide_eq_true hx
  have hx0 : x.isZero = false := decide_eq_false (by omega)
  show mul x y = _
  simp [mul, isNaN_of_isInfinite hx, isNaN_of_isFinite hy, hx, hx0, hzero]

theorem isNaN_mul (hx : x.isNaN = false) (hy : y.isFinite = true) (hzero : y.isZero = false) :
    (x * y).isNaN = false := by
  cases hfinite : x.isFinite with
  | true =>
    rw [mul_eq hfinite hy]
    exact isNaN_ofMagnitude _ _
  | false =>
    rw [mul_of_isInfinite ((isInfinite_iff hx).2 hfinite) hy hzero]
    simp [isNaN, infinite]

/-- The place of a product of numbers that are not negative is that of its size. -/
theorem place_mul (hx : x.isFinite = true) (hy : y.isFinite = true) (hpos : 0 ≤ x.place)
    (hsign : y.negative = false) :
    (x * y).place = (min (F.nearest (x.units * y.units) F.one) F.infinity : Nat) := by
  have hmagnitude : (x * y).magnitude = min (F.nearest (x.units * y.units) F.one) F.infinity := by
    rw [mul_eq hx hy]
    rfl
  have hnegative : (x * y).negative = x.negative := by
    rw [mul_eq hx hy, hsign]
    exact Bool.xor_false _
  rw [place, hmagnitude, hnegative]
  cases hx' : x.negative with
  | false => rfl
  | true =>
    -- a negative zero
    have hzero : x.magnitude = 0 := by
      rw [place, if_pos hx'] at hpos
      omega
    have hnearest := F.nearest_mul 0 F.one_pos
    rw [Nat.zero_mul, F.nearest_zero] at hnearest
    simp [units_of_magnitude_eq_zero hzero, hnearest]

/-- **A product of numbers that are not negative is not negative.** -/
theorem place_mul_nonneg (hx : x.isNaN = false) (hpos : 0 ≤ x.place) (hy : y.isFinite = true)
    (hsign : y.negative = false) (hzero : y.isZero = false) : 0 ≤ (x * y).place := by
  cases hfinite : x.isFinite with
  | true =>
    rw [place_mul hfinite hy hpos hsign]
    omega
  | false =>
    have hinfinite := (isInfinite_iff hx).2 hfinite
    have hlt : y.magnitude < F.infinity := of_decide_eq_true hy
    have heq : x.magnitude = F.infinity := of_decide_eq_true hinfinite
    have hx' : x.negative = false := by
      rw [← Bool.not_eq_true]
      intro hneg
      rw [place, if_pos hneg] at hpos
      omega
    rw [mul_of_isInfinite hinfinite hy hzero, hx', hsign, place, if_neg (by simp [infinite])]
    omega

/-- **A number that bounds the exact value of a product bounds the product.** -/
theorem place_mul_le (hx : x.isFinite = true) (hy : y.isFinite = true) (hpos : 0 ≤ x.place)
    (hsign : y.negative = false) (hz : 0 ≤ z.place) (hle : x.units * y.units ≤ z.units * F.one) :
    (x * y).place ≤ z.place := by
  have hmono := F.nearest_mono F.one_pos hle
  rw [F.nearest_mul _ F.one_pos, nearest_units] at hmono
  have habs := z.natAbs_place
  rw [place_mul hx hy hpos hsign]
  omega

end Binary

/-! ### Results in range -/

namespace Double

open FloatFormat (double)

variable {x y : Double}

theorem isFinite_add_iff (hx : x.isFinite = true) (hy : y.isFinite = true) :
    (x + y).isFinite = true ↔ (x.signedUnits + y.signedUnits).natAbs < overflow := by
  rw [Binary.add_eq hx hy, isFinite_ofUnits_iff]

theorem isFinite_sub_iff (hx : x.isFinite = true) (hy : y.isFinite = true) :
    (x - y).isFinite = true ↔ (x.signedUnits - y.signedUnits).natAbs < overflow := by
  rw [Binary.sub_eq hx hy, isFinite_ofUnits_iff]

theorem nearestTo_add (hx : x.isFinite = true) (hy : y.isFinite = true)
    (h : (x + y).isFinite = true) : (x + y).NearestTo (x.signedUnits + y.signedUnits) := by
  rw [Binary.add_eq hx hy] at h ⊢
  exact Binary.nearestTo_ofUnits (by decide) h

theorem nearestTo_sub (hx : x.isFinite = true) (hy : y.isFinite = true)
    (h : (x - y).isFinite = true) : (x - y).NearestTo (x.signedUnits - y.signedUnits) := by
  rw [Binary.sub_eq hx hy] at h ⊢
  exact Binary.nearestTo_ofUnits (by decide) h

theorem overflow_eq : overflow = (2 ^ 54 - 1) * 2 ^ 2044 := rfl

/-- The greatest finite number is half a step of its own size below what is rounded to infinity. -/
theorem natAbs_add_le_overflow (hx : x.isFinite = true) :
    x.signedUnits.natAbs + 2 ^ 2044 ≤ overflow := by
  let greatest : Double := ⟨false, double.infinity - 1, by
    have hlt := double.infinity_lt
    omega⟩
  have hunits : greatest.units + 2 ^ 2044 = overflow := by decide +kernel
  have hlt : x.magnitude < double.infinity := of_decide_eq_true hx
  have hle : x.units ≤ greatest.units := Binary.units_le_iff.2 (Nat.le_sub_one_of_lt hlt)
  rw [Binary.natAbs_signedUnits]
  omega

end Double

end LineChart
