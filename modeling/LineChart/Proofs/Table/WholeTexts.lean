import LineChart.Proofs.Number.Display
import LineChart.Proofs.Number.WholeParts
import LineChart.Proofs.Table.Values

/-!
# Whole numbers are shown as integers

A double that is an integer below `2 ^ 53` has the text of the integer. The search for the fewest digits
stops at the number of its digits at the latest, since all of them together read back. So the digits
that are found stand before the point, and an integer that reads back to the double is the integer
itself.

* `Double.decimalLength_of_whole` : the number of digits before the point.
* `Double.positional_fewestDigits` : the fewest digits, with zeros behind them, are the digits of the
  integer.
* `Double.display_ofInt` : the text of a whole number.
-/

namespace LineChart

open FloatFormat (double)

/-! ### Texts of integers -/

/-- A decimal without places that is finite as a number is this natural number. -/
theorem ofDecimal_eq_ofNat {n : Nat} (h : (Binary.ofDecimal false ⟨n, 0⟩ : Double).isFinite = true) :
    (Binary.ofDecimal false ⟨n, 0⟩ : Double) = .ofNat n := by
  refine ofDecimal_natCast ?_
  by_contra hlong
  have hhigh : ((1 <<< double.exponentBits : Nat) : Int) < (Nat.toDigits 10 n).length + 0 := by
    have hexponent : (1 <<< double.exponentBits : Nat) = 2048 := rfl
    rw [hexponent]
    omega
  have hlow : ¬ (n = 0 ∨ ((Nat.toDigits 10 n).length : Int) + 0 < -(double.scale : Int)) := by
    rintro (rfl | hlow)
    · exact hlong (by decide)
    · omega
  simp only [Binary.ofDecimal] at h
  rw [if_neg hlow, if_pos hhigh] at h
  exact absurd h (by decide)

/-! ### Zeros behind the digits -/

/-- A positive number has at most as many digits as the powers of ten above it have zeros. -/
theorem length_toDigits_le_iff {n : Nat} (h : 0 < n) (zeros : Nat) :
    (Nat.toDigits 10 n).length ≤ zeros ↔ n < 10 ^ zeros := by
  cases zeros with
  | zero =>
    have hsome : 0 < (Nat.toDigits 10 n).length := List.length_pos_iff.2 Nat.toDigits_ne_nil
    rw [Nat.pow_zero]
    omega
  | succ zeros => exact Nat.length_toDigits_le_iff (by decide) (Nat.succ_pos zeros)

theorem toDigits_mul_tenTo {n : Nat} (h : 0 < n) (zeros : Nat) :
    Nat.toDigits 10 (n * tenTo zeros) = Nat.toDigits 10 n ++ List.replicate zeros '0' := by
  induction zeros with
  | zero => rw [tenTo_zero, Nat.mul_one, List.replicate_zero, List.append_nil]
  | succ zeros ih =>
    rw [tenTo_succ, ← Nat.mul_assoc, toDigits_mul_ten (Nat.mul_pos h (tenTo_pos _)), ih,
      List.replicate_succ', List.append_assoc]

/-- **A decimal without places is written with the digits of its value**, whether zeros count as digits
or not. -/
theorem positional_dropZeros {d : Decimal} (hdigits : 0 < d.digits) (hexponent : 0 ≤ d.exponent) :
    d.dropZeros.positional = Nat.toDigits 10 (d.digits * tenTo d.exponent.toNat) := by
  fun_induction Decimal.dropZeros d with
  | case1 d hzero ih =>
    have hten : d.digits / 10 * 10 = d.digits := by omega
    have hsucc : (d.exponent + 1).toNat = d.exponent.toNat + 1 := by omega
    have hvalue : d.digits / 10 * tenTo (d.exponent + 1).toNat =
        d.digits * tenTo d.exponent.toNat := by
      rw [hsucc, tenTo_succ, Nat.mul_comm (tenTo _), ← Nat.mul_assoc, hten]
    rw [ih (by dsimp only; omega) (by dsimp only; omega)]
    exact congrArg _ hvalue
  | case2 d hzero =>
    simp only [Decimal.positional, if_pos hexponent]
    exact (toDigits_mul_tenTo hdigits _).symm

/-! ### Lengths -/

namespace Double

section

variable {n : Nat} {x : Double} (hx : x.units = n * double.one)

include hx

/-- A whole number is compared with a power of ten as the integer is. -/
theorem scaledBy_lt_iff (places : Nat) :
    (x.scaledBy (-(places : Int))).1 < (x.scaledBy (-(places : Int))).2 ↔ n < 10 ^ places := by
  have hnone : (-(places : Int)).toNat = 0 := by omega
  simp only [scaledBy, hx, hnone, tenTo_zero, Nat.mul_one, Int.neg_neg, Int.toNat_natCast]
  rw [Nat.mul_comm n]
  exact Nat.mul_lt_mul_left double.one_pos

/-- **The number of digits before the point** is that of the integer: the estimate is at most two too
low, and it is not too high. -/
theorem decimalLength_of_whole (hpos : 0 < n) (hn : n < 2 ^ 53) :
    x.decimalLength = (Nat.toDigits 10 n).length := by
  have hlog : (x.units.log2 : Int) - double.scale = n.log2 := by
    rw [hx, double.one_eq, Binary.log2_mul_two_pow hpos.ne']
    push_cast
    omega
  have hestimate : ((n.log2 : Int) * 30103).fdiv 100000 = (n.log2 * 30103 / 100000 : Nat) := by
    rw [Int.fdiv_eq_ediv_of_nonneg _ (by decide)]
    rfl
  have hbinary : n.log2 < 53 := (Nat.log2_lt hpos.ne').2 hn
  -- the estimate against the powers of two on both sides of the integer
  have hbounds : ∀ l < 53, (l * 30103 / 100000 = 0 ∨ 10 ^ (l * 30103 / 100000 - 1) ≤ 2 ^ l) ∧
      2 ^ (l + 1) ≤ 10 ^ (l * 30103 / 100000 + 2) := by
    decide +kernel
  obtain ⟨hlow, hhigh⟩ := hbounds n.log2 hbinary
  have hself : 2 ^ n.log2 ≤ n := Nat.log2_self_le hpos.ne'
  have hnext : n < 2 ^ (n.log2 + 1) := Nat.lt_log2_self
  simp only [decimalLength, hlog, hestimate]
  generalize n.log2 * 30103 / 100000 = estimate at *
  have hupper : (Nat.toDigits 10 n).length ≤ estimate + 2 :=
    (length_toDigits_le_iff hpos _).2 (Nat.lt_of_lt_of_le hnext hhigh)
  have hlower : estimate ≤ (Nat.toDigits 10 n).length := by
    rcases hlow with rfl | hlow
    · exact Nat.zero_le _
    · have hnot : ¬ (Nat.toDigits 10 n).length ≤ estimate - 1 := by
        rw [length_toDigits_le_iff hpos]
        omega
      omega
  have hbelow : ∀ places : Nat, (x.scaledBy (-(places : Int))).1 <
      (x.scaledBy (-(places : Int))).2 ↔ (Nat.toDigits 10 n).length ≤ places := by
    intro places
    rw [scaledBy_lt_iff hx, length_toDigits_le_iff hpos]
  have hsucc := hbelow (estimate + 1)
  rw [Int.natCast_add, Int.natCast_one] at hsucc
  simp only [hbelow, hsucc, decide_eq_true_eq]
  split_ifs <;> omega

end

/-! ### The fewest digits -/

theorem exponent_withDigits? {x : Double} {tie : Tie} {count : Nat} {d : Decimal}
    (h : withDigits? tie x count = some d) : d.exponent = x.decimalLength - count := by
  simp only [withDigits?] at h
  split at h
  · rw [← Option.some.inj h]
    split_ifs <;> rfl
  · rw [← Option.some.inj h]
  · rw [← Option.some.inj h]
  · cases h

/-- Digits are found if the digits that are cut off behind the last place leave the number as it is. -/
theorem withDigits?_ne_none {x : Double} {count : Nat} (tie : Tie)
    (h : (Binary.ofDecimal false ⟨(x.scaledBy (-(x.decimalLength - count))).1 /
      (x.scaledBy (-(x.decimalLength - count))).2, x.decimalLength - count⟩ : Double) = x) :
    withDigits? tie x count ≠ none := by
  simp only [withDigits?, h, decide_true]
  split
  · exact Option.some_ne_none _
  · exact Option.some_ne_none _
  · next hlow _ => cases hlow
  · next hlow _ => cases hlow

section

variable {n : Nat} (hn : n < 2 ^ 53)

include hn

/-- A decimal without places that is read as a whole number has its value. -/
theorem value_of_ofDecimal {d : Decimal} (hexponent : 0 ≤ d.exponent)
    (h : (Binary.ofDecimal false d : Double) = .ofNat n) :
    d.digits * tenTo d.exponent.toNat = n := by
  have hshift : (Binary.ofDecimal false ⟨d.digits * tenTo d.exponent.toNat, 0⟩ : Double) =
      .ofDecimal false ⟨d.digits, 0 + d.exponent.toNat⟩ := Binary.ofDecimal_shift _ _ _
  rw [Int.zero_add, Int.toNat_of_nonneg hexponent, h] at hshift
  have hwhole := ofDecimal_eq_ofNat (by rw [hshift]; exact isFinite_ofNat hn.le)
  rw [hshift] at hwhole
  -- both integers have the whole number as the nearest double
  have hleft : (Binary.ofNat n : Double).NearestTo
      ((d.digits * tenTo d.exponent.toNat : Nat) * double.one) := by
    have hfinite := isFinite_ofNat hn.le
    rw [hwhole] at hfinite ⊢
    exact Binary.nearestTo_ofUnits (by decide) hfinite
  have hright : (Binary.ofNat n : Double).NearestTo ((n : Nat) * double.one) :=
    Binary.nearestTo_ofUnits (by decide) (isFinite_ofNat hn.le)
  exact Int.natCast_inj.1 (Cell.eq_of_nearestTo (by rwa [Int.natAbs_natCast]) hleft hright)

variable (hpos : 0 < n)

include hpos

/-- All digits of the integer together read back. -/
theorem withDigits?_length (tie : Tie) :
    withDigits? tie (.ofNat n) (Nat.toDigits 10 n).length ≠ none := by
  have hunits := units_ofNat hn.le
  refine withDigits?_ne_none tie ?_
  rw [decimalLength_of_whole hunits hpos hn, Int.sub_self]
  have hquotient : (scaledBy (.ofNat n) (-0)).1 / (scaledBy (.ofNat n) (-0)).2 = n := by
    show (Binary.ofNat n : Double).units * 1 / (double.one * 1) = n
    rw [hunits, Nat.mul_one, Nat.mul_one, Nat.mul_div_cancel _ double.one_pos]
  have hlength : (Nat.toDigits 10 n).length ≤ 16 :=
    (length_toDigits_le_iff hpos _).2 (Nat.lt_trans hn (by decide))
  rw [hquotient]
  exact ofDecimal_natCast (by omega)

/-- **The fewest digits of a whole number**, with zeros behind them, are those of the integer. -/
theorem positional_fewestDigits (tie : Tie) :
    (fewestDigits tie (.ofNat n)).positional = Nat.toDigits 10 n := by
  have hzero : (Binary.ofNat n : Double).isZero = false := by
    refine decide_eq_false fun hmagnitude => ?_
    have hunits := Binary.units_of_magnitude_eq_zero hmagnitude
    rw [units_ofNat hn.le] at hunits
    exact absurd hunits (Nat.mul_pos hpos double.one_pos).ne'
  have hcount : (Nat.toDigits 10 n).length ∈ List.range' 1 17 := by
    have hsome : 0 < (Nat.toDigits 10 n).length := List.length_pos_iff.2 Nat.toDigits_ne_nil
    have hlength : (Nat.toDigits 10 n).length ≤ 16 :=
      (length_toDigits_le_iff hpos _).2 (Nat.lt_trans hn (by decide))
    rw [List.mem_range'_1]
    omega
  have habs : (Binary.ofNat n : Double).abs = .ofNat n := Binary.abs_ofInt n
  rw [fewestDigits, hzero, habs]
  split
  · next h => cases h
  · split
    · next d hfound =>
      obtain ⟨before, count, after, hrange, hdigits, hnone⟩ := List.findSome?_eq_some_iff.1 hfound
      -- the search stops at the length of the integer at the latest
      have hle : count ≤ (Nat.toDigits 10 n).length := by
        have hascending : (List.range' 1 17).Pairwise (· < ·) := List.pairwise_lt_range'
        rw [hrange] at hascending hcount
        rcases List.mem_append.1 hcount with hmem | hmem
        · exact absurd (hnone _ hmem) (withDigits?_length hn hpos tie)
        · rcases List.mem_cons.1 hmem with heq | hmem
          · exact heq.ge
          · have hbehind := List.pairwise_cons.1 (List.pairwise_append.1 hascending).2.1
            exact (hbehind.1 _ hmem).le
      have hexponent : 0 ≤ d.exponent := by
        rw [exponent_withDigits? hdigits, decimalLength_of_whole (units_ofNat hn.le) hpos hn]
        omega
      have hvalue := value_of_ofDecimal hn hexponent (ofDecimal_withDigits? hdigits)
      have hsome : 0 < d.digits := by
        rw [← hvalue] at hpos
        exact Nat.pos_of_mul_pos_right hpos
      rw [positional_dropZeros hsome hexponent, hvalue]
    · next hnone =>
      exact absurd (List.findSome?_eq_none_iff.1 hnone _ hcount) (withDigits?_length hn hpos tie)

end

/-- The digits do not depend on the sign. -/
theorem fewestDigits_abs (tie : Tie) (x : Double) : fewestDigits tie x.abs = fewestDigits tie x := rfl

/-- **A whole number has the text of the integer.** -/
theorem display_ofInt {n : Int} (hn : n.natAbs < 2 ^ 53) : display (.ofInt n) = toString n := by
  have hfinite : (Binary.ofInt n : Double).isFinite = true := Cell.isFinite_ofInt (by omega)
  have hdigits : (fewestDigits .away (.ofInt n)).positional = Nat.toDigits 10 n.natAbs := by
    rw [← fewestDigits_abs, Binary.abs_ofInt]
    rcases Nat.eq_zero_or_pos n.natAbs with hzero | hpos
    · rw [hzero]
      rfl
    · exact positional_fewestDigits hn hpos .away
  have hsigned : display (.ofInt n) = signed (.ofInt n) (Nat.toDigits 10 n.natAbs) := by
    rw [display, Binary.isNaN_of_isFinite hfinite, Binary.isInfinite_of_isFinite hfinite, hdigits]
    rfl
  apply String.toList_injective
  rw [hsigned, toList_toString_int, signed, String.toList_ofList, Binary.negative_ofInt, signText]
  split <;> rfl

end Double

end LineChart
