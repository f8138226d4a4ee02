import LineChart.Proofs.Number.Sides

/-!
# Numbers of thirty-two bits as numbers of sixty-four

Every number of thirty-two bits is also one of sixty-four: conversion keeps its value exactly.

* `Binary.exists_units_eq` : the steps of a finite number, as digits of the format and zeros.
* `Binary.SameNumber` : one number in two formats.
* `Single.sameNumber_convert` : conversion keeps the number.
-/

namespace LineChart

namespace Binary

variable {F G : FloatFormat}

/-- The steps of a finite number are as many digits as the format has, with zeros behind them. -/
theorem exists_units_eq {x : Binary F} (h : x.isFinite = true) :
    ∃ digits zeros, x.units = digits * 2 ^ zeros ∧ digits < 2 ^ (F.fractionBits + 1) ∧
      zeros + 2 ≤ 2 ^ F.exponentBits := by
  have hlt : x.magnitude < F.infinity := of_decide_eq_true h
  rw [F.infinity_eq] at hlt
  have hfield : x.magnitude / 2 ^ F.fractionBits < 2 ^ F.exponentBits - 1 :=
    Nat.div_lt_of_lt_mul (by rwa [Nat.mul_comm])
  have hfraction : x.magnitude % 2 ^ F.fractionBits < 2 ^ F.fractionBits :=
    Nat.mod_lt _ (Nat.two_pow_pos _)
  simp only [units, Nat.shiftRight_eq_div_pow, Nat.shiftLeft_eq, Nat.one_mul]
  rw [Nat.pow_succ]
  by_cases hzero : x.magnitude / 2 ^ F.fractionBits = 0
  · rw [hzero] at hfield
    exact ⟨x.magnitude % 2 ^ F.fractionBits, 0, by simp [hzero], by omega, by omega⟩
  · have hpos := Nat.pos_of_ne_zero hzero
    refine ⟨2 ^ F.fractionBits + x.magnitude % 2 ^ F.fractionBits,
      x.magnitude / 2 ^ F.fractionBits - 1, by simp [hzero], by omega, by omega⟩

/-- The same number in two formats: not a number, infinite with the same sign, or finite with the same
sign and value. -/
structure SameNumber (x : Binary F) (y : Binary G) : Prop where
  negative : y.negative = x.negative
  isNaN : y.isNaN = x.isNaN
  isFinite : y.isFinite = x.isFinite
  value : x.isFinite = true → y.units * F.one = x.units * G.one

end Binary

/-- The powers of two within the range of doubles. -/
theorem Double.two_pow_le_overflow {n : Nat} (h : n ≤ 2044) : 2 ^ n ≤ Double.overflow := by
  -- with the exponent as a variable, no such power is ever computed
  have hpower : ∀ places, n ≤ places → 2 ^ n ≤ (2 ^ 54 - 1) * 2 ^ places := fun places hplaces =>
    Nat.le_trans (Nat.pow_le_pow_right (by decide) hplaces) (Nat.le_mul_of_pos_left _ (by decide))
  exact hpower 2044 h

namespace Single

open Binary FloatFormat

/-- The value of a finite number stays. -/
theorem ofRatio_units_exact {x : Single} (h : x.isFinite = true) :
    (ofRatio x.negative (x.units * double.one) single.one : Double).isFinite = true ∧
      (ofRatio x.negative (x.units * double.one) single.one : Double).units * single.one =
        x.units * double.one := by
  obtain ⟨digits, zeros, hunits, hdigits, hzeros⟩ := exists_units_eq h
  have hdigits : digits < 2 ^ 24 := hdigits
  have hzeros : zeros + 2 ≤ 256 := hzeros
  obtain ⟨places, hplaces, hscale⟩ : ∃ places, places ≤ 925 ∧ double.scale = places + single.scale :=
    ⟨925, Nat.le_refl _, by decide⟩
  have hone : double.one = 2 ^ places * single.one := by
    rw [double.one_eq, single.one_eq, hscale, Nat.pow_add]
  have hpos : 0 < single.one := by
    rw [single.one_eq]
    exact Nat.two_pow_pos _
  -- the quotient is a whole number of steps, and sixty-four bits have room for its digits
  have hsteps : x.units * double.one = digits * 2 ^ (zeros + places) * single.one := by
    rw [hunits, hone, Nat.pow_add, Nat.mul_assoc, Nat.mul_assoc, Nat.mul_assoc]
  have hnatAbs : ((digits : Int) * (2 ^ (zeros + places) : Nat)).natAbs =
      digits * 2 ^ (zeros + places) := by
    rw [Int.natAbs_mul, Int.natAbs_natCast, Int.natAbs_natCast]
  have hmagnitude : (ofRatio x.negative (x.units * double.one) single.one : Double).magnitude =
      (ofUnits false ((digits : Int) * (2 ^ (zeros + places) : Nat)) : Double).magnitude := by
    show min (double.nearest (x.units * double.one) single.one) double.infinity = min _ _
    rw [hsteps, double.nearest_mul _ hpos, hnatAbs]
  have hexact : (ofUnits false ((digits : Int) * (2 ^ (zeros + places) : Nat)) : Double).signedUnits =
      (digits : Int) * (2 ^ (zeros + places) : Nat) := by
    refine signedUnits_ofUnits_mul false ?_ ?_
    · show digits ≤ 2 ^ 53
      omega
    · show zeros + places + 4 ≤ 2048
      omega
  have hfinite : (ofUnits false ((digits : Int) * (2 ^ (zeros + places) : Nat)) : Double).isFinite =
      true := by
    rw [Double.isFinite_ofUnits_iff, hnatAbs]
    calc digits * 2 ^ (zeros + places)
        < 2 ^ 24 * 2 ^ (zeros + places) := Nat.mul_lt_mul_of_pos_right hdigits (Nat.two_pow_pos _)
      _ = 2 ^ (24 + (zeros + places)) := (Nat.pow_add _ _ _).symm
      _ ≤ Double.overflow := Double.two_pow_le_overflow (by omega)
  constructor
  · rw [isFinite, hmagnitude]
    exact hfinite
  · rw [units_congr hmagnitude, ← natAbs_signedUnits, hexact, hnatAbs, hsteps]

/-- **Conversion keeps the number.** -/
theorem sameNumber_convert (x : Single) : x.SameNumber (x.convert : Double) := by
  cases hfinite : x.isFinite with
  | true =>
    have hnan : x.isNaN = false := isNaN_of_isFinite hfinite
    have hconvert : (x.convert : Double) =
        ofRatio x.negative (x.units * double.one) single.one := by
      rw [convert, hnan, isInfinite_of_isFinite hfinite]
      rfl
    obtain ⟨hstays, hvalue⟩ := ofRatio_units_exact hfinite
    rw [hconvert]
    refine ⟨rfl, ?_, ?_, fun _ => hvalue⟩
    · rw [hnan, isNaN_of_isFinite hstays]
    · rw [hfinite, hstays]
  | false =>
    have hno : x.isFinite = true → (x.convert : Double).units * single.one = x.units * double.one := by
      intro hx
      rw [hfinite] at hx
      cases hx
    cases hnan : x.isNaN with
    | true =>
      have hconvert : (x.convert : Double) =
          ⟨x.negative, (nan : Double).magnitude, (nan : Double).magnitude_lt⟩ := by
        rw [convert, if_pos hnan]
      refine ⟨by rw [hconvert], ?_, ?_, hno⟩
      · rw [hnan, hconvert]
        exact (by decide : (nan : Double).isNaN = true)
      · rw [hfinite, hconvert]
        exact (by decide : (nan : Double).isFinite = false)
    | false =>
      have hconvert : (x.convert : Double) = infinite x.negative := by
        rw [convert, hnan, (isInfinite_iff hnan).2 hfinite]
        rfl
      refine ⟨by rw [hconvert]; rfl, ?_, ?_, hno⟩
      · rw [hnan, hconvert]
        exact isNaN_of_isInfinite (decide_eq_true rfl)
      · rw [hfinite, hconvert]
        exact decide_eq_false (Nat.lt_irrefl _)

end Single

end LineChart
