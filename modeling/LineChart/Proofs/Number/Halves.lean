import LineChart.Proofs.Number.NearestTo

/-!
# A half more or less

Doubles beyond `2 ^ 52` are integers. A half more or less leaves the even ones of them where they are,
and no other number.

* `Double.held_mul_two_pow` : the values of up to fifty-three digits.
* `Double.magnitude_eq` : the magnitudes of the integers from `2 ^ 52` to `2 ^ 53`.
* `Double.Unmoved` : a number that a half more or less is rounded back to.
* `Double.unmoved_iff` : these are the even integers beyond `2 ^ 52`.
-/

namespace LineChart.Double

open FloatFormat (double)
open Binary (Held)

/-- The number of finest steps to a half. -/
def halfSteps : Nat := 2 ^ (double.scale - 1)

theorem halfSteps_pos : 0 < halfSteps := Nat.two_pow_pos _

theorem one_eq_two_mul : double.one = 2 * halfSteps := by
  rw [double.one_eq, halfSteps, Nat.mul_comm, Nat.two_pow_pred_mul_two (by decide)]

/-! ### Values of few digits -/

/-- **Values of fifty-three digits are held**, with any number of zeros behind them that is within
the range. -/
theorem held_mul_two_pow (n : Int) (places : Nat) (hn : n.natAbs ≤ 2 ^ 53)
    (hplaces : places ≤ 2044) : Held double (n * (2 ^ places : Nat)) := by
  refine ⟨.ofUnits false (n * (2 ^ places : Nat)), ?_, Binary.signedUnits_ofUnits_mul false hn ?_⟩
  · rw [isFinite_ofUnits_iff, Int.natAbs_mul, Int.natAbs_natCast]
    refine Nat.lt_of_le_of_lt (Nat.mul_le_mul hn (Nat.pow_le_pow_right (by decide) hplaces)) ?_
    decide +kernel
  · show places + 4 ≤ 2 ^ 11
    omega

theorem held_mul_one {n : Int} (hn : n.natAbs ≤ 2 ^ 53) : Held double (n * double.one) := by
  rw [double.one_eq]
  exact held_mul_two_pow n _ hn (by decide)

theorem held_mul_halfSteps {n : Int} (hn : n.natAbs ≤ 2 ^ 53) : Held double (n * halfSteps) :=
  held_mul_two_pow n _ hn (by decide)

/-! ### Integers among doubles -/

variable {x : Double}

/-- From `2 ^ 52` on doubles are integers. -/
theorem one_dvd_units (h : 2 ^ 52 * double.one ≤ x.units) : double.one ∣ x.units := by
  have hor := x.two_pow_dvd_units_or double.scale
  rw [← double.one_eq] at hor
  exact hor.resolve_right (Nat.not_lt.2 h)

/-- From `2 ^ 53` on they are even. -/
theorem two_mul_one_dvd_units (h : 2 ^ 53 * double.one ≤ x.units) : 2 * double.one ∣ x.units := by
  have hor := x.two_pow_dvd_units_or (double.scale + 1)
  have htwo : 2 ^ (double.scale + 1) = 2 * double.one := by rw [double.one_eq, Nat.pow_add_one']
  rw [htwo] at hor
  refine hor.resolve_right (Nat.not_lt.2 (Nat.le_trans (Nat.le_of_eq ?_) h))
  show 2 ^ 52 * (2 * double.one) = 2 ^ 53 * double.one
  omega

/-- Between `2 ^ 52` and `2 ^ 53`, magnitudes ascend with the integers. -/
theorem magnitude_eq {n : Nat} (hlow : 2 ^ 52 ≤ n) (hhigh : n ≤ 2 ^ 53)
    (hx : x.units = n * double.one) : x.magnitude = double.scale * 2 ^ 52 + n := by
  let y : Double := ⟨false, double.scale * 2 ^ 52 + n, by
    show 1074 * 2 ^ 52 + n < 1 <<< 63
    omega⟩
  have hy : y.units = n * 2 ^ double.scale := Binary.units_eq_of_le rfl (.inr hlow) hhigh
  rw [← double.one_eq] at hy
  have hle := Binary.units_le_iff (x := x) (y := y)
  have hge := Binary.units_le_iff (x := y) (y := x)
  have hmagnitude : y.magnitude = double.scale * 2 ^ 52 + n := rfl
  omega

theorem even_magnitude_iff {n : Nat} (hlow : 2 ^ 52 ≤ n) (hhigh : n ≤ 2 ^ 53)
    (hx : x.units = n * double.one) : x.magnitude % 2 = 0 ↔ n % 2 = 0 := by
  rw [magnitude_eq hlow hhigh hx]
  omega

/-! ### Numbers that a half does not move -/

/-- A number that a half more and a half less are rounded back to. -/
def Unmoved (x : Double) : Prop :=
  x.NearestTo (x.signedUnits + halfSteps) ∧ x.NearestTo (x.signedUnits - halfSteps)

theorem Unmoved.neg (h : Unmoved x) : Unmoved (-x) := by
  have hmore := h.2.neg
  have hless := h.1.neg
  rw [Int.neg_sub, Int.sub_eq_add_neg, Int.add_comm] at hmore
  rw [Int.neg_add, ← Int.sub_eq_add_neg] at hless
  rw [Unmoved, Binary.signedUnits_neg]
  exact ⟨hmore, hless⟩

/-- Numbers up to `2 ^ 52` are moved: the next multiple of a half is a number as well. -/
theorem Unmoved.two_pow_lt (h : Unmoved x) (hpos : 0 ≤ x.signedUnits) :
    2 ^ 52 * double.one < x.units := by
  have hhalf := halfSteps_pos
  have hone := one_eq_two_mul
  have habs := x.natAbs_signedUnits
  by_contra hle
  -- the last multiple of a half below the number
  obtain ⟨k, hk⟩ : ∃ k : Int, k = (x.signedUnits - 1) / halfSteps := ⟨_, rfl⟩
  have hbelow : k * halfSteps ≤ x.signedUnits - 1 := by
    rw [hk]
    exact Int.ediv_mul_le _ (by omega)
  have habove : x.signedUnits - 1 < k * halfSteps + halfSteps := by
    have hlt := Int.lt_ediv_add_one_mul_self (x.signedUnits - 1) (b := halfSteps) (by omega)
    rwa [← hk, Int.add_mul, Int.one_mul] at hlt
  have hdigits : k.natAbs ≤ 2 ^ 53 := by
    have hlow : -1 ≤ k := hk ▸ Int.le_ediv_of_mul_le (by omega) (by omega)
    have hhigh : k ≤ 2 ^ 53 := hk ▸ Int.ediv_le_of_le_mul (by omega) (by omega)
    omega
  have hstay := (held_mul_halfSteps hdigits).signedUnits_le h.2 (by omega)
  omega

/-- Odd numbers between `2 ^ 52` and `2 ^ 53` are moved: a half away is the middle to the even
neighbour. -/
theorem Unmoved.two_mul_one_dvd (h : Unmoved x) (hpos : 0 ≤ x.signedUnits) :
    2 * double.one ∣ x.units := by
  have hhalf := halfSteps_pos
  have hone := one_eq_two_mul
  have habs := x.natAbs_signedUnits
  have hlow := h.two_pow_lt hpos
  by_cases hhigh : 2 ^ 53 * double.one ≤ x.units
  · exact two_mul_one_dvd_units hhigh
  obtain ⟨n, hn⟩ := one_dvd_units hlow.le
  rw [Nat.mul_comm] at hn
  have hnlow : 2 ^ 52 < n := Nat.lt_of_mul_lt_mul_right (hn ▸ hlow)
  have hnhigh : n < 2 ^ 53 := Nat.lt_of_mul_lt_mul_right (hn ▸ Nat.lt_of_not_le hhigh)
  obtain ⟨y, hy, hvalue⟩ : Held double ((n + 1 : Nat) * double.one) := held_mul_one (by omega)
  have hnext : y.signedUnits = x.signedUnits + double.one := by
    rw [hvalue]
    push_cast
    rw [Int.add_mul]
    have hcast : (n : Int) * double.one = (n * double.one : Nat) := by push_cast; rfl
    omega
  have heven := h.1.even y hy (by omega) (by omega)
  rw [even_magnitude_iff hnlow.le hnhigh.le hn] at heven
  rw [hn]
  exact Nat.mul_dvd_mul_right (Nat.dvd_of_mod_eq_zero heven) _

/-- No number but an even integer beyond `2 ^ 52` itself is less than one away from it. -/
theorem one_le_natAbs_sub {y : Double} (hlow : 2 ^ 52 * double.one < x.units)
    (hne : y.signedUnits ≠ x.signedUnits) :
    double.one ≤ (y.signedUnits - x.signedUnits).natAbs := by
  have habsx := x.natAbs_signedUnits
  have habsy := y.natAbs_signedUnits
  have hdvdx := one_dvd_units hlow.le
  by_cases hy : 2 ^ 52 * double.one ≤ y.units
  · have hdvdy := one_dvd_units hy
    rw [← habsx, ← Int.natCast_dvd] at hdvdx
    rw [← habsy, ← Int.natCast_dvd] at hdvdy
    exact Nat.le_of_dvd (by omega) (Int.natCast_dvd.1 (Int.dvd_sub hdvdy hdvdx))
  · -- the number in between is the first integer beyond `2 ^ 52`
    obtain ⟨n, hn⟩ := hdvdx
    rw [hn, Nat.mul_comm double.one] at hlow
    have hnext : (2 ^ 52 + 1) * double.one ≤ n * double.one :=
      Nat.mul_le_mul_right _ (Nat.lt_of_mul_lt_mul_right hlow)
    rw [Nat.mul_comm n, ← hn] at hnext
    omega

/-- Of an even integer beyond `2 ^ 52` that has a number next to it at a distance of one, the
magnitude is even. -/
theorem even_magnitude_of_dvd {y : Double} (hlow : 2 ^ 52 * double.one < x.units)
    (hdvd : 2 * double.one ∣ x.units)
    (hnext : (y.signedUnits - x.signedUnits).natAbs = double.one) : x.magnitude % 2 = 0 := by
  have hone := one_eq_two_mul
  have hhalf := halfSteps_pos
  have habsx := x.natAbs_signedUnits
  have habsy := y.natAbs_signedUnits
  obtain ⟨n, hn⟩ := hdvd
  have hvalue : x.units = 2 * n * double.one := by rw [hn, Nat.mul_right_comm]
  have hnlow : 2 ^ 52 < 2 * n := Nat.lt_of_mul_lt_mul_right (hvalue ▸ hlow)
  by_cases hy : 2 ^ 53 * double.one ≤ y.units
  · -- two even integers are not at a distance of one
    exfalso
    have hdvdx : 2 * double.one ∣ x.signedUnits.natAbs := habsx ▸ ⟨n, hn⟩
    have hdvdy : 2 * double.one ∣ y.signedUnits.natAbs := habsy ▸ two_mul_one_dvd_units hy
    have hdvdsub := Int.natCast_dvd.1 (Int.dvd_sub (Int.natCast_dvd.2 hdvdy) (Int.natCast_dvd.2 hdvdx))
    rw [hnext] at hdvdsub
    exact absurd (Nat.le_of_dvd (by omega) hdvdsub) (by omega)
  · have hnhigh : 2 * n < 2 ^ 53 + 1 := by
      refine Nat.lt_of_mul_lt_mul_right (a := double.one) ?_
      rw [← hvalue, Nat.add_mul]
      omega
    rw [even_magnitude_iff hnlow.le (by omega) hvalue]
    omega

/-- An even integer beyond `2 ^ 52` is nearest to what is a half away. -/
theorem nearestTo_of_dvd (hx : x.isFinite = true) (hlow : 2 ^ 52 * double.one < x.units)
    (hdvd : 2 * double.one ∣ x.units) (away : Int) (haway : away.natAbs = halfSteps) :
    x.NearestTo (x.signedUnits + away) := by
  have hone := one_eq_two_mul
  refine ⟨hx, ?_, ?_⟩
  · intro y _
    by_cases hne : y.signedUnits = x.signedUnits
    · rw [hne]
    · have hfar := one_le_natAbs_sub hlow hne
      omega
  · intro y _ hne htie
    have hfar := one_le_natAbs_sub hlow hne
    exact even_magnitude_of_dvd (y := y) hlow hdvd (by omega)

/-- **A half more or less leaves the even integers beyond `2 ^ 52` where they are**, and moves all
other numbers. -/
theorem unmoved_iff (hx : x.isFinite = true) :
    Unmoved x ↔ 2 ^ 52 * double.one < x.units ∧ 2 * double.one ∣ x.units := by
  constructor
  · intro h
    by_cases hpos : 0 ≤ x.signedUnits
    · exact ⟨h.two_pow_lt hpos, h.two_mul_one_dvd hpos⟩
    · have hpos' : 0 ≤ (-x).signedUnits := by
        rw [Binary.signedUnits_neg]
        omega
      exact ⟨h.neg.two_pow_lt hpos', h.neg.two_mul_one_dvd hpos'⟩
  · rintro ⟨hlow, hdvd⟩
    exact ⟨nearestTo_of_dvd hx hlow hdvd halfSteps (by omega),
      nearestTo_of_dvd hx hlow hdvd (-halfSteps) (by omega)⟩

end LineChart.Double
