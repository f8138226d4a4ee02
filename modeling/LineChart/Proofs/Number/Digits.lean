import LineChart.Number.Numeral
import LineChart.Proofs.Number.Nearest
import Mathlib.Data.List.TakeWhile

/-!
# The decimal text of an integer

* `digitsValue_toDigits` : the digits of a natural number have its value.
* `toDigits_eq_zero_or_cons` : no zero leads the digits, unless there is only one.
* `toList_toString_int` : the text of an integer is its sign and its digits.
* `readInteger?_toString`, `readInt64?_toString` : the text of an integer is read as the integer.
* `Double.read?_toString` : and as a number where it is read as one.
-/

namespace LineChart

theorem isDigit_eq (c : Char) : isDigit c = c.isDigit := by
  rw [isDigit, Char.isDigit, Bool.decide_and]
  rfl

theorem isDigit_of_mem_toDigits {n : Nat} {c : Char} (h : c ∈ Nat.toDigits 10 n) :
    isDigit c = true := by
  rw [isDigit_eq]
  exact Nat.isDigit_of_mem_toDigits (by decide) (by decide) h

/-- **The digits of a natural number have its value.** -/
theorem digitsValue_toDigits (n : Nat) : digitsValue (Nat.toDigits 10 n) = n :=
  Nat.ofDigitChars_ten_toDigits

theorem digitChar_ne_zero {n : Nat} (h : 0 < n) (hlt : n < 10) : Nat.digitChar n ≠ '0' := by
  have hall : ∀ m < 10, 0 < m → Nat.digitChar m ≠ '0' := by decide
  exact hall n hlt h

/-- No zero leads the digits of a positive number. -/
theorem exists_toDigits_of_pos {n : Nat} (h : 0 < n) :
    ∃ first rest, Nat.toDigits 10 n = first :: rest ∧ first ≠ '0' := by
  induction n using Nat.strongRecOn with
  | ind n ih =>
    rw [Nat.toDigits_eq_if (by decide)]
    by_cases hlt : n < 10
    · rw [if_pos hlt]
      exact ⟨_, [], rfl, digitChar_ne_zero h hlt⟩
    · rw [if_neg hlt]
      obtain ⟨first, rest, hdigits, hfirst⟩ := ih (n / 10) (by omega) (by omega)
      rw [hdigits]
      exact ⟨first, _, rfl, hfirst⟩

/-- **No zero leads the digits**, unless there is only one. -/
theorem toDigits_eq_zero_or_cons (n : Nat) :
    Nat.toDigits 10 n = ['0'] ∨ ∃ first rest, Nat.toDigits 10 n = first :: rest ∧ first ≠ '0' := by
  rcases Nat.eq_zero_or_pos n with rfl | hpos
  · exact .inl rfl
  · exact .inr (exists_toDigits_of_pos hpos)

/-- The sign of an integer as it is written: nothing for one that is not negative. -/
def signText (negative : Bool) : List Char := if negative then ['-'] else []

/-- **The text of an integer is its sign and its digits.** -/
theorem toList_toString_int (n : Int) :
    (toString n).toList = signText (decide (n < 0)) ++ Nat.toDigits 10 n.natAbs := by
  rw [Int.toString_eq_repr, Int.repr_eq_if]
  by_cases h : 0 ≤ n
  · have hnat : n.toNat = n.natAbs := by omega
    rw [if_pos h, signText, if_neg (by simpa using h), hnat, Nat.repr_eq_ofList_toDigits,
      String.toList_ofList, List.nil_append]
  · have hnat : (-n).toNat = n.natAbs := by omega
    rw [if_neg h, signText, if_pos (by simpa using h), hnat, String.toList_append,
      Nat.repr_eq_ofList_toDigits, String.toList_ofList, String.toList_ofList]

/-! ### Reading -/

/-- The digits of a natural number, and no sign in front of them. -/
theorem splitSign_signText (negative : Bool) (n : Nat) :
    splitSign (signText negative ++ Nat.toDigits 10 n) = (negative, Nat.toDigits 10 n) := by
  cases negative with
  | true => rfl
  | false =>
    rw [signText, if_neg (by decide), List.nil_append]
    have hdigits : ∀ c ∈ Nat.toDigits 10 n, isDigit c = true :=
      fun c hc => isDigit_of_mem_toDigits hc
    rw [splitSign.eq_def]
    split
    · next heq => exact absurd (hdigits '-' (by simp [heq])) (by decide)
    · next heq => exact absurd (hdigits '+' (by simp [heq])) (by decide)
    · rfl

/-- **The text of an integer is read as the integer.** -/
theorem readInteger?_toString (n : Int) : readInteger? (toString n).toList = some n := by
  have hall : (Nat.toDigits 10 n.natAbs).all isDigit = true :=
    List.all_eq_true.2 fun c hc => isDigit_of_mem_toDigits hc
  rw [toList_toString_int, readInteger?, splitSign_signText]
  dsimp only
  rw [if_pos ⟨Nat.toDigits_ne_nil, hall⟩, digitsValue_toDigits]
  by_cases hneg : n < 0
  · rw [if_pos (decide_eq_true hneg)]
    congr 1
    omega
  · rw [if_neg (by simpa using hneg)]
    congr 1
    omega

theorem readInt64?_toString (n : Int) :
    readInt64? (toString n).toList =
      if Int64.minValue.toInt ≤ n ∧ n ≤ Int64.maxValue.toInt then some (.ofInt n) else none := by
  rw [readInt64?, readInteger?_toString]

/-- The decimal of some digits without a point. -/
theorem readDecimal?_toDigits (n : Nat) : readDecimal? (Nat.toDigits 10 n) = some ⟨n, 0⟩ := by
  have hall : ∀ c ∈ Nat.toDigits 10 n, isDigit c = true := fun c hc => isDigit_of_mem_toDigits hc
  have htake : (Nat.toDigits 10 n).takeWhile isDigit = Nat.toDigits 10 n :=
    List.takeWhile_eq_self_iff.2 hall
  have hdrop : (Nat.toDigits 10 n).dropWhile isDigit = [] := List.dropWhile_eq_nil_iff.2 hall
  rw [readDecimal?, htake, hdrop]
  simp [Nat.toDigits_ne_nil, digitsValue_toDigits]

/-- A natural number within the range is the same number as a decimal without places. -/
theorem ofDecimal_natCast {n : Nat} (h : (Nat.toDigits 10 n).length ≤ 2048) :
    (Binary.ofDecimal false ⟨n, 0⟩ : Double) = .ofNat n := by
  rw [Binary.ofNat_eq_ofRatio]
  by_cases hzero : n = 0
  · subst hzero
    rw [Nat.zero_mul]
    rfl
  · have hlow : ¬ (n = 0 ∨
        ((Nat.toDigits 10 n).length : Int) + 0 < -(FloatFormat.double.scale : Int)) := by
      omega
    have hhigh : ¬ ((1 <<< FloatFormat.double.exponentBits : Nat) : Int) <
        (Nat.toDigits 10 n).length + 0 := by
      have hexponent : (1 <<< FloatFormat.double.exponentBits : Nat) = 2048 := rfl
      rw [hexponent]
      omega
    simp only [Binary.ofDecimal]
    rw [if_neg hlow, if_neg hhigh]
    simp [tenTo]

/-- The sign is put in front of the rounded number. -/
theorem Binary.ofDecimal_eq {F : FloatFormat} {negative : Bool} (d : Decimal) :
    (ofDecimal negative d : Binary F) =
      ⟨negative, (ofDecimal false d : Binary F).magnitude, (ofDecimal false d).magnitude_lt⟩ := by
  refine ext_fields ?_ ?_
  · simp only [ofDecimal]
    split_ifs <;> rfl
  · simp only [ofDecimal]
    split_ifs <;> rfl

/-- **The text of an integer is read as the number nearest to it.** -/
theorem Double.read?_toString {n : Int} (h : n.natAbs < 2 ^ 64) :
    Double.read? (toString n).toList = some (.ofInt n) := by
  have hlength : (Nat.toDigits 10 n.natAbs).length ≤ 20 :=
    (Nat.length_toDigits_le_iff (by decide) (by decide)).2 (by omega)
  rw [toList_toString_int, Double.read?, splitSign_signText]
  dsimp only
  rw [readDecimal?_toDigits]
  dsimp only
  rw [Binary.ofDecimal_eq, ofDecimal_natCast (by omega), ← Binary.abs_ofInt, ← Binary.negative_ofInt]
  rfl

end LineChart
