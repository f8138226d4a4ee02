import LineChart.Proofs.Number.Sides

/-!
# Whole parts and fractions

Cutting a number off at its point keeps it on its side of every natural number, and so does keeping the
result between two bounds. A quotient of numbers of which the first is not the greater one is a fraction,
and a fraction of a number is not above that number.

* `Double.units_ofNat`, `Double.isFinite_ofNat` : the natural numbers that doubles have exactly.
* `Double.le_clampTo_truncate`, `Double.clampTo_truncate_le` : a bounded whole part and a natural number.
* `Binary.place_larger` : the greater of two numbers is on the side of the second one.
* `Double.IsFraction` : numbers from zero to one, with `isFraction_div` and `IsFraction.place_mul_le`.
-/

namespace LineChart

namespace Binary

variable {F : FloatFormat} {x y : Binary F}

/-! ### Whole parts -/

theorem le_truncate {n : Nat} (h : (n : Int) * F.one ≤ x.signedUnits) : (n : Int) ≤ x.truncate := by
  have hone : (0 : Int) < F.one := Int.natCast_pos.2 F.one_pos
  rw [signedUnits] at h
  rw [truncate]
  cases hsign : x.negative with
  | false =>
    rw [hsign, if_neg Bool.false_ne_true] at h
    have hle : n * F.one ≤ x.units := by exact_mod_cast h
    exact Int.ofNat_le.2 ((Nat.le_div_iff_mul_le F.one_pos).2 hle)
  | true =>
    -- a number that is not above zero is not below a natural number unless both are zero
    rw [hsign, if_pos rfl] at h
    have hprod : 0 ≤ (n : Int) * F.one := Int.mul_nonneg (Int.natCast_nonneg n) hone.le
    have hzero : x.units = 0 := by omega
    have hn : n = 0 := by
      rw [hzero] at h
      have hprod' : (n : Int) * F.one = 0 := by omega
      rcases Int.mul_eq_zero.1 hprod' with hn | hn <;> omega
    simp [hzero, hn]

theorem truncate_le {n : Nat} (h : x.signedUnits ≤ (n : Int) * F.one) : x.truncate ≤ n := by
  rw [signedUnits] at h
  rw [truncate]
  cases hsign : x.negative with
  | false =>
    rw [hsign, if_neg Bool.false_ne_true] at h
    have hle : x.units ≤ F.one * n := by
      rw [Nat.mul_comm]
      exact_mod_cast h
    exact Int.ofNat_le.2 (Nat.div_le_of_le_mul hle)
  | true =>
    have hquotient : (0 : Int) ≤ ((x.units / F.one : Nat) : Int) := Int.natCast_nonneg _
    have hn : (0 : Int) ≤ n := Int.natCast_nonneg n
    rw [if_pos rfl]
    omega

/-! ### The greater number -/

/-- **The greater of two numbers is not below the second one**, whatever the first one is. -/
theorem place_larger (x : Binary F) (hy : y.isNaN = false) :
    (x.larger y).isNaN = false ∧ y.place ≤ (x.larger y).place := by
  rw [larger]
  cases hx : x.isNaN with
  | true => exact ⟨hy, Int.le_refl _⟩
  | false =>
    have hless := less_iff hx hy
    rw [if_neg Bool.false_ne_true, hy, if_neg Bool.false_ne_true]
    split
    · exact ⟨hy, Int.le_refl _⟩
    · next h =>
      rw [hless] at h
      exact ⟨hx, by omega⟩

/-! ### Quotients -/

theorem div_eq (hx : x.isFinite = true) (hy : y.isFinite = true) (hzero : y.isZero = false) :
    x / y = ofRatio (x.negative != y.negative) (x.units * F.one) y.units := by
  show div x y = _
  simp [div, isNaN_of_isFinite hx, isNaN_of_isFinite hy, isInfinite_of_isFinite hx,
    isInfinite_of_isFinite hy, hzero]

end Binary

namespace Double

open FloatFormat (double)

variable {x y : Double}

/-! ### Natural numbers -/

/-- **Doubles have the natural numbers up to `2 ^ 53` exactly.** -/
theorem signedUnits_ofNat {n : Nat} (h : n ≤ 2 ^ 53) :
    (Binary.ofNat n : Double).signedUnits = n * double.one :=
  Binary.signedUnits_ofInt FloatFormat.holdsIntegers_double (by
    have hbits : double.fractionBits + 1 = 53 := rfl
    rwa [hbits, Int.natAbs_natCast])

theorem isFinite_ofNat {n : Nat} (h : n ≤ 2 ^ 53) :
    (Binary.ofNat n : Double).isFinite = true :=
  (Binary.isRounded_ofNat_double (Nat.lt_of_le_of_lt h (by decide))).isNearest.isFinite

theorem negative_ofNat (n : Nat) : (Binary.ofNat n : Double).negative = false := by
  rw [Binary.ofNat_eq_ofRatio]
  rfl

theorem units_ofNat {n : Nat} (h : n ≤ 2 ^ 53) :
    (Binary.ofNat n : Double).units = n * double.one := by
  have hvalue := signedUnits_ofNat h
  rw [Binary.signedUnits, negative_ofNat, if_neg Bool.false_ne_true] at hvalue
  exact_mod_cast hvalue

theorem place_ofNat_nonneg (n : Nat) : 0 ≤ (Binary.ofNat n : Double).place := by
  rw [Binary.place, negative_ofNat, if_neg Bool.false_ne_true]
  exact Int.natCast_nonneg _

/-! ### Bounded whole parts -/

/-- **The whole part of a number that is not below a natural number is not below it either.** -/
theorem le_clampTo_truncate {low high : Int} {n : Nat} (hn : n ≤ 2 ^ 53) (hx : x.isNaN = false)
    (hle : (Binary.ofNat n : Double).place ≤ x.place) (hhigh : (n : Int) ≤ high) :
    (n : Int) ≤ x.clampTo low high Binary.truncate := by
  rw [Binary.clampTo, hx, if_neg Bool.false_ne_true]
  split
  · next hinfinite =>
    -- the negative infinity is below every natural number
    have hpos := place_ofNat_nonneg n
    have hplace := Binary.place_of_isInfinite hinfinite (by omega)
    have hsign : x.negative = false := by
      rw [← Bool.not_eq_true]
      intro hnegative
      have hinfinity : 0 < double.infinity := by decide
      rw [Binary.place, if_pos hnegative] at hplace
      omega
    rwa [hsign]
  · have hvalue := Binary.place_le_iff.1 hle
    rw [signedUnits_ofNat hn] at hvalue
    have htruncate := Binary.le_truncate hvalue
    omega

/-- **The whole part of a number that is not above a natural number is not above it either.** -/
theorem clampTo_truncate_le {low high : Int} {n : Nat} (hn : n ≤ 2 ^ 53)
    (hle : x.place ≤ (Binary.ofNat n : Double).place) (hlow : low ≤ n) :
    x.clampTo low high Binary.truncate ≤ n := by
  rw [Binary.clampTo]
  split
  · exact Int.natCast_nonneg n
  · split
    · next hinfinite =>
      -- the positive infinity is above every natural number
      have hsign : x.negative = true := by
        rw [← Bool.not_eq_false]
        intro hpositive
        have hmagnitude : x.magnitude = double.infinity := of_decide_eq_true hinfinite
        have hfinite := Binary.isFinite_iff.1 (isFinite_ofNat hn)
        rw [Binary.place, hpositive, if_neg Bool.false_ne_true] at hle
        omega
      rwa [hsign]
    · have hvalue := Binary.place_le_iff.1 hle
      rw [signedUnits_ofNat hn] at hvalue
      have htruncate := Binary.truncate_le hvalue
      omega

/-! ### Fractions -/

/-- A number from zero to one. -/
structure IsFraction (x : Double) : Prop where
  isFinite : x.isFinite = true
  nonneg : 0 ≤ x.place
  units_le : x.units ≤ double.one

/-- **A quotient of natural numbers is a fraction** if the first one is not the greater one. -/
theorem isFraction_div {m n : Nat} (hle : m ≤ n) (hn : n ≤ 2 ^ 53) (hpos : 0 < n) :
    (Binary.ofNat m / Binary.ofNat n : Double).IsFraction := by
  have hm : m ≤ 2 ^ 53 := hle.trans hn
  have hden : 0 < n * double.one := Nat.mul_pos hpos double.one_pos
  have hzero : (Binary.ofNat n : Double).isZero = false := by
    rw [Binary.isZero, decide_eq_false_iff_not, ← Binary.units_eq_zero_iff, units_ofNat hn]
    omega
  have hquotient : (Binary.ofNat m / Binary.ofNat n : Double) =
      Binary.ofRatio false (m * double.one * double.one) (n * double.one) := by
    rw [Binary.div_eq (isFinite_ofNat hm) (isFinite_ofNat hn) hzero, negative_ofNat,
      negative_ofNat, units_ofNat hm, units_ofNat hn]
    rfl
  -- the quotient is at most that of the second number and itself, which is one
  have hmagnitude : (Binary.ofNat m / Binary.ofNat n : Double).magnitude ≤
      (Binary.ofNat 1 : Double).magnitude := by
    have hmono : double.nearest (m * double.one * double.one) (n * double.one) ≤
        double.nearest (1 * double.one) 1 := by
      rw [Nat.one_mul, ← double.nearest_mul double.one hden]
      refine double.nearest_mono hden ?_
      rw [Nat.mul_comm]
      exact Nat.mul_le_mul_left _ (Nat.mul_le_mul_right _ hle)
    rw [hquotient, Binary.ofNat_eq_ofRatio]
    exact Nat.le_min.2 ⟨Nat.le_trans (Nat.min_le_left _ _) hmono, Nat.min_le_right _ _⟩
  have hone : (Binary.ofNat 1 : Double).isFinite = true := isFinite_ofNat (by decide)
  refine ⟨decide_eq_true (Nat.lt_of_le_of_lt hmagnitude (of_decide_eq_true hone)), ?_, ?_⟩
  · rw [hquotient]
    exact Int.natCast_nonneg _
  · have hunits := Binary.units_le_iff.2 hmagnitude
    rwa [units_ofNat (by decide), Nat.one_mul] at hunits

/-- A fraction of a natural number is not negative. -/
theorem IsFraction.place_mul_nonneg (h : x.IsFraction) {n : Nat} (hn : n ≤ 2 ^ 53) (hpos : 0 < n) :
    (x * .ofNat n).isNaN = false ∧ 0 ≤ (x * .ofNat n).place := by
  have hnan := Binary.isNaN_of_isFinite h.isFinite
  have hfinite := isFinite_ofNat hn
  have hzero : (Binary.ofNat n : Double).isZero = false := by
    rw [Binary.isZero, decide_eq_false_iff_not, ← Binary.units_eq_zero_iff, units_ofNat hn]
    exact (Nat.mul_pos hpos double.one_pos).ne'
  exact ⟨Binary.isNaN_mul hnan hfinite hzero,
    Binary.place_mul_nonneg hnan h.nonneg hfinite (negative_ofNat n) hzero⟩

/-- **A fraction of a natural number is not above the number.** -/
theorem IsFraction.place_mul_le (h : x.IsFraction) {n : Nat} (hn : n ≤ 2 ^ 53) :
    (x * .ofNat n).place ≤ (Binary.ofNat n : Double).place := by
  refine Binary.place_mul_le h.isFinite (isFinite_ofNat hn) h.nonneg (negative_ofNat n)
    (place_ofNat_nonneg n) ?_
  rw [Nat.mul_comm]
  exact Nat.mul_le_mul_left _ h.units_le

end Double

end LineChart
