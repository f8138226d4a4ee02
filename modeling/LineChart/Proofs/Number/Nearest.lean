import LineChart.Proofs.Number.Exact

/-!
# Correct rounding

A quotient of finest steps is rounded to the nearest number of the format. The numbers of a format
are, from the first digit of the quotient on, the multiples of one power of two, and all others are
below; so it is enough to be nearest among those multiples.

* `natAbs_roundHalfEven_le` : no multiple of the divisor is nearer than the rounded quotient's.
* `Binary.two_pow_dvd_units_or` : the numbers of a format, seen from one of its powers of two.
* `Binary.IsNearest` : a number nearest to a quotient, a tie going to the even neighbour.
* `Binary.isNearest_ofRatio` : rounding finds it, unless it is out of range.
* `Binary.isRounded_ofNat` : natural numbers are rounded correctly.
-/

namespace LineChart

/-! ### Quotients -/

section

variable {num den k : Nat}

/-- The distance of a multiple that is not above the quotient, and of one that is. -/
theorem le_natAbs_mul_sub (hpos : 0 < den) (k : Nat) :
    (k ≤ num / den → num % den ≤ ((k * den : Nat) - num : Int).natAbs) ∧
      (num / den < k → den - num % den ≤ ((k * den : Nat) - num : Int).natAbs) := by
  have hsplit : den * (num / den) + num % den = num := Nat.div_add_mod num den
  have hrest : num % den < den := Nat.mod_lt _ hpos
  rw [Nat.mul_comm k]
  constructor
  · intro hk
    have hmul : den * k ≤ den * (num / den) := Nat.mul_le_mul_left _ hk
    omega
  · intro hk
    have hmul : den * (num / den + 1) ≤ den * k := Nat.mul_le_mul_left _ hk
    rw [Nat.mul_add] at hmul
    omega

/-- The rounded quotient is as near as the nearer one of its neighbours. -/
theorem natAbs_roundHalfEven (hpos : 0 < den) :
    ((roundHalfEven num den * den : Nat) - num : Int).natAbs =
      min (num % den) (den - num % den) := by
  have hsplit : den * (num / den) + num % den = num := Nat.div_add_mod num den
  have hrest : num % den < den := Nat.mod_lt _ hpos
  have hup : den * (num / den + 1) = den * (num / den) + den := by rw [Nat.mul_add, Nat.mul_one]
  rw [Nat.mul_comm, roundHalfEven]
  split
  · omega
  · split
    · rw [hup]
      omega
    · split
      · omega
      · rw [hup]
        omega

/-- **No multiple of the divisor is nearer** than the rounded quotient's. -/
theorem natAbs_roundHalfEven_le (hpos : 0 < den) (k : Nat) :
    ((roundHalfEven num den * den : Nat) - num : Int).natAbs ≤
      ((k * den : Nat) - num : Int).natAbs := by
  rw [natAbs_roundHalfEven hpos]
  obtain ⟨hbelow, habove⟩ := @le_natAbs_mul_sub num den hpos k
  rcases Nat.lt_or_ge (num / den) k with hk | hk
  · exact Nat.le_trans (Nat.min_le_right _ _) (habove hk)
  · exact Nat.le_trans (Nat.min_le_left _ _) (hbelow hk)

/-- A multiple as near as the nearer neighbour is that neighbour's, unless both are equally near. -/
theorem eq_of_natAbs_eq_min (hpos : 0 < den)
    (h : ((k * den : Nat) - num : Int).natAbs = min (num % den) (den - num % den)) :
    2 * (num % den) = den ∨ (2 * (num % den) < den ∧ k = num / den) ∨
      (den < 2 * (num % den) ∧ k = num / den + 1) := by
  have hsplit : den * (num / den) + num % den = num := Nat.div_add_mod num den
  have hrest : num % den < den := Nat.mod_lt _ hpos
  rw [Nat.mul_comm] at h
  rcases Nat.lt_trichotomy k (num / den) with hk | hk | hk
  · have hmul : den * (k + 1) ≤ den * (num / den) := Nat.mul_le_mul_left _ hk
    rw [Nat.mul_add] at hmul
    omega
  · rw [hk] at h
    omega
  · rcases Nat.eq_or_lt_of_le (Nat.succ_le_of_lt hk) with hnext | hfar
    · rw [← hnext, Nat.mul_succ] at h
      omega
    · have hmul : den * (num / den + 1 + 1) ≤ den * k := Nat.mul_le_mul_left _ hfar
      rw [Nat.mul_add, Nat.mul_add] at hmul
      omega

/-- If another multiple is as near, the rounded quotient is even. -/
theorem even_roundHalfEven_of_tie (hpos : 0 < den) (hk : k ≠ roundHalfEven num den)
    (htie : ((k * den : Nat) - num : Int).natAbs =
      ((roundHalfEven num den * den : Nat) - num : Int).natAbs) :
    roundHalfEven num den % 2 = 0 := by
  rw [natAbs_roundHalfEven hpos] at htie
  rw [roundHalfEven] at hk ⊢
  rcases eq_of_natAbs_eq_min hpos htie with hhalf | ⟨hless, hfloor⟩ | ⟨hgreater, hceil⟩
  · rw [if_neg (by omega), if_neg (by omega)]
    split <;> omega
  · exact absurd hfloor (by rwa [if_pos hless] at hk)
  · exact absurd hceil (by rwa [if_neg (by omega), if_pos hgreater] at hk)

end

/-! ### Numbers of a format -/

namespace FloatFormat

variable {F : FloatFormat}

/-- The binary digits of a quotient that are dropped. -/
def dropped (F : FloatFormat) (num den : Nat) : Nat := (num / den).log2 - F.fractionBits

/-- The digits that are kept, rounded. -/
def kept (F : FloatFormat) (num den : Nat) : Nat := roundHalfEven num (2 ^ F.dropped num den * den)

theorem nearest_eq (num den : Nat) :
    F.nearest num den = F.dropped num den * 2 ^ F.fractionBits + F.kept num den := by
  simp only [nearest, dropped, kept, Nat.shiftLeft_eq, Nat.mul_comm den]

/-- Where digits are dropped, the quotient has all the digits of a full fraction. -/
theorem two_pow_mul_le {num den : Nat} (h : F.dropped num den ≠ 0) (hpos : 0 < den) :
    2 ^ F.fractionBits * (2 ^ F.dropped num den * den) ≤ num := by
  have hlog : F.fractionBits < (num / den).log2 := by
    rw [dropped] at h
    omega
  have hdiv : 2 ^ F.fractionBits ≤ num / den / 2 ^ F.dropped num den := two_pow_le_div hlog
  rw [Nat.le_div_iff_mul_le (Nat.two_pow_pos _), Nat.le_div_iff_mul_le hpos] at hdiv
  rwa [← Nat.mul_assoc]

theorem two_pow_le_kept {num den : Nat} (h : F.dropped num den ≠ 0) (hpos : 0 < den) :
    2 ^ F.fractionBits ≤ F.kept num den := by
  have hstep : 0 < 2 ^ F.dropped num den * den := Nat.mul_pos (Nat.two_pow_pos _) hpos
  have hdiv : 2 ^ F.fractionBits ≤ num / (2 ^ F.dropped num den * den) :=
    (Nat.le_div_iff_mul_le hstep).2 (two_pow_mul_le h hpos)
  rcases roundHalfEven_eq num (2 ^ F.dropped num den * den) with hround | hround <;>
    rw [kept, hround] <;> omega

/-- Rounding up reaches the first number with one digit more at most. -/
theorem kept_le (num den : Nat) :
    F.kept num den ≤ 2 ^ (F.fractionBits + 1) := by
  have hdiv : num / (2 ^ F.dropped num den * den) < 2 ^ (F.fractionBits + 1) := by
    rw [Nat.mul_comm, ← Nat.div_div_eq_div_mul]
    exact div_two_pow_lt (num / den) F.fractionBits
  rcases roundHalfEven_eq num (2 ^ F.dropped num den * den) with hround | hround <;>
    rw [kept, hround] <;> omega

end FloatFormat

namespace Binary

variable {F : FloatFormat}

/-- Seen from a power of two, a number is a multiple of it or has fewer digits than a full
fraction. -/
theorem two_pow_dvd_units_or (y : Binary F) (digits : Nat) :
    2 ^ digits ∣ y.units ∨ y.units < 2 ^ F.fractionBits * 2 ^ digits := by
  have hpos : 0 < 2 ^ digits := Nat.two_pow_pos _
  have hfraction : y.magnitude % 2 ^ F.fractionBits < 2 ^ F.fractionBits :=
    Nat.mod_lt _ (Nat.two_pow_pos _)
  simp only [units, Nat.shiftRight_eq_div_pow, Nat.shiftLeft_eq, Nat.one_mul]
  by_cases hfield : y.magnitude / 2 ^ F.fractionBits = 0
  · rw [if_pos hfield]
    exact .inr (Nat.lt_of_lt_of_le hfraction (Nat.le_mul_of_pos_right _ hpos))
  · rw [if_neg hfield]
    rcases Nat.lt_or_ge (y.magnitude / 2 ^ F.fractionBits - 1) digits with hlow | hhigh
    · -- the fraction is full, but the last of its digits stands below the power
      refine .inr (Nat.lt_of_lt_of_le (Nat.mul_lt_mul_of_pos_right (Nat.add_lt_add_left hfraction _)
        (Nat.two_pow_pos _)) ?_)
      rw [← Nat.two_mul, Nat.mul_comm 2, Nat.mul_assoc, Nat.mul_comm 2, ← Nat.pow_succ]
      exact Nat.mul_le_mul_left _ (Nat.pow_le_pow_right (by decide) (by omega))
    · exact .inl (Nat.dvd_mul_left_of_dvd (Nat.pow_dvd_pow 2 hhigh) _)

/-- Rounding up to the next digit gives the same value as the next number of digits dropped. -/
theorem units_eq_of_le {x : Binary F} {dropped kept : Nat}
    (hm : x.magnitude = dropped * 2 ^ F.fractionBits + kept)
    (hlow : dropped = 0 ∨ 2 ^ F.fractionBits ≤ kept) (hhigh : kept ≤ 2 ^ (F.fractionBits + 1)) :
    x.units = kept * 2 ^ dropped := by
  rcases Nat.eq_or_lt_of_le hhigh with rfl | hlt
  · have hnext : x.magnitude = (dropped + 1) * 2 ^ F.fractionBits + 2 ^ F.fractionBits := by
      rw [hm, Nat.pow_succ, Nat.add_mul]
      omega
    have hpower : 2 ^ F.fractionBits < 2 ^ (F.fractionBits + 1) :=
      Nat.pow_lt_pow_right (by decide) (Nat.lt_succ_self _)
    rw [units_eq hnext (.inr (Nat.le_refl _)) hpower, ← Nat.pow_add, ← Nat.pow_add]
    congr 1
    omega
  · exact units_eq hm hlow hlt

/-- A finite number nearest to `num / den` finest steps by its absolute value. If another number is
as near, its own magnitude is even. -/
structure IsNearest (x : Binary F) (num den : Nat) : Prop where
  isFinite : x.isFinite = true
  nearest : ∀ y : Binary F, y.isFinite = true →
    ((x.units * den : Nat) - num : Int).natAbs ≤ ((y.units * den : Nat) - num : Int).natAbs
  even : ∀ y : Binary F, y.isFinite = true → y.units ≠ x.units →
    ((y.units * den : Nat) - num : Int).natAbs = ((x.units * den : Nat) - num : Int).natAbs →
    x.magnitude % 2 = 0

variable {num den : Nat}

/-- A quotient that keeps its digits within the exponents of the format is in range. -/
theorem isFinite_ofRatio (negative : Bool) (hrange : F.dropped num den + 4 ≤ 2 ^ F.exponentBits) :
    (ofRatio negative num den : Binary F).isFinite = true := by
  have hkept := F.kept_le num den
  have hbound : (F.dropped num den + 3) * 2 ^ F.fractionBits ≤ F.infinity := by
    rw [F.infinity_eq]
    exact Nat.mul_le_mul_right _ (by omega)
  have hpos : 0 < 2 ^ F.fractionBits := Nat.two_pow_pos _
  rw [Nat.pow_succ] at hkept
  rw [Nat.add_mul] at hbound
  have hlt : F.nearest num den < F.infinity := by
    rw [F.nearest_eq]
    omega
  exact decide_eq_true (Nat.lt_of_le_of_lt (Nat.min_le_left _ _) hlt)

theorem magnitude_ofRatio {negative : Bool}
    (hfinite : (ofRatio negative num den : Binary F).isFinite = true) :
    (ofRatio negative num den : Binary F).magnitude =
      F.dropped num den * 2 ^ F.fractionBits + F.kept num den := by
  have hlt : min (F.nearest num den) F.infinity < F.infinity := of_decide_eq_true hfinite
  show min (F.nearest num den) F.infinity = _
  rw [← F.nearest_eq]
  omega

theorem units_ofRatio {negative : Bool} (hpos : 0 < den)
    (hfinite : (ofRatio negative num den : Binary F).isFinite = true) :
    (ofRatio negative num den : Binary F).units = F.kept num den * 2 ^ F.dropped num den := by
  refine units_eq_of_le (magnitude_ofRatio hfinite) ?_ (F.kept_le num den)
  by_cases hzero : F.dropped num den = 0
  · exact .inl hzero
  · exact .inr (F.two_pow_le_kept hzero hpos)

/-- A number that is no multiple of the power of two is farther away: it is below the first number
with a full fraction, and that one is not above the quotient. -/
theorem lt_natAbs_of_not_dvd {y : Binary F} (hpos : 0 < den)
    (hy : ¬ 2 ^ F.dropped num den ∣ y.units) :
    ((F.kept num den * (2 ^ F.dropped num den * den) : Nat) - num : Int).natAbs <
      ((y.units * den : Nat) - num : Int).natAbs := by
  have hstep : 0 < 2 ^ F.dropped num den * den := Nat.mul_pos (Nat.two_pow_pos _) hpos
  have hzero : F.dropped num den ≠ 0 := by
    intro hzero
    rw [hzero] at hy
    exact hy (Nat.one_dvd _)
  have hless : y.units * den < 2 ^ F.fractionBits * (2 ^ F.dropped num den * den) := by
    rw [← Nat.mul_assoc]
    exact Nat.mul_lt_mul_of_pos_right ((y.two_pow_dvd_units_or _).resolve_left hy) hpos
  have hfull := F.two_pow_mul_le hzero hpos
  have hnear := @natAbs_roundHalfEven_le num _ hstep (2 ^ F.fractionBits)
  rw [FloatFormat.kept]
  omega

/-- A magnitude is even if what is kept of the quotient is. -/
theorem even_magnitude_ofRatio {negative : Bool} (hfraction : 0 < F.fractionBits)
    (hfinite : (ofRatio negative num den : Binary F).isFinite = true)
    (heven : F.kept num den % 2 = 0) :
    (ofRatio negative num den : Binary F).magnitude % 2 = 0 := by
  have hpower : 2 ^ F.fractionBits = 2 ^ (F.fractionBits - 1) * 2 := by
    rw [← Nat.pow_succ]
    congr 1
    omega
  rw [magnitude_ofRatio hfinite, hpower, ← Nat.mul_assoc]
  omega

/-- **Rounding finds the nearest number**, unless it is out of range. -/
theorem isNearest_ofRatio {negative : Bool} (hpos : 0 < den) (hfraction : 0 < F.fractionBits)
    (hfinite : (ofRatio negative num den : Binary F).isFinite = true) :
    (ofRatio negative num den : Binary F).IsNearest num den := by
  have hstep : 0 < 2 ^ F.dropped num den * den := Nat.mul_pos (Nat.two_pow_pos _) hpos
  have hunits := units_ofRatio hpos hfinite
  have hx : (ofRatio negative num den : Binary F).units * den =
      F.kept num den * (2 ^ F.dropped num den * den) := by
    rw [hunits, Nat.mul_assoc]
  refine ⟨hfinite, ?_, ?_⟩
  · intro y _
    rw [hx]
    by_cases hy : 2 ^ F.dropped num den ∣ y.units
    · obtain ⟨k, hk⟩ := hy
      rw [hk, Nat.mul_comm (2 ^ F.dropped num den) k, Nat.mul_assoc]
      exact natAbs_roundHalfEven_le hstep k
    · exact Nat.le_of_lt (lt_natAbs_of_not_dvd hpos hy)
  · intro y _ hne htie
    rw [hx] at htie
    by_cases hy : 2 ^ F.dropped num den ∣ y.units
    · obtain ⟨k, hk⟩ := hy
      have hkept : k ≠ F.kept num den := by
        rintro rfl
        rw [hunits, hk, Nat.mul_comm] at hne
        exact hne rfl
      rw [hk, Nat.mul_comm (2 ^ F.dropped num den) k, Nat.mul_assoc] at htie
      exact even_magnitude_ofRatio hfraction hfinite
        (even_roundHalfEven_of_tie hstep hkept htie)
    · exact absurd htie.symm (Nat.ne_of_lt (lt_natAbs_of_not_dvd hpos hy))

/-! ### Natural numbers -/

/-- The natural number `n`, correctly rounded. -/
structure IsRounded (x : Binary F) (n : Nat) : Prop where
  negative : x.negative = false
  isNearest : x.IsNearest (n * F.one) 1

/-- An integer is rounded by its absolute value, and zero is positive. -/
theorem ofInt_eq_ofRatio (n : Int) :
    (ofInt n : Binary F) = ofRatio (decide (n < 0)) (n.natAbs * F.one) 1 := by
  have hone : (0 : Int) < F.one := Int.natCast_pos.2 F.one_pos
  have hneg : n * F.one < 0 ↔ n < 0 := by
    constructor
    · intro h
      by_contra hnot
      exact absurd (Int.mul_nonneg (Int.not_lt.1 hnot) hone.le) (Int.not_le.2 h)
    · intro h
      exact Int.mul_neg_of_neg_of_pos h hone
  have hsign : (if n * F.one = 0 then false else decide (n * F.one < 0)) = decide (n < 0) := by
    split
    · next hzero =>
      have hnot : ¬ n < 0 := by
        rw [← hneg, hzero]
        exact Int.lt_irrefl 0
      exact (decide_eq_false hnot).symm
    · exact decide_eq_decide.2 hneg
  rw [ofInt, ofUnits, hsign, Int.natAbs_mul, Int.natAbs_natCast]

theorem negative_ofInt (n : Int) : (ofInt n : Binary F).negative = decide (n < 0) := by
  rw [ofInt_eq_ofRatio]
  rfl

theorem ofNat_eq_ofRatio (n : Nat) : (ofNat n : Binary F) = ofRatio false (n * F.one) 1 := by
  have hsign : decide ((n : Int) < 0) = false := by simp
  rw [ofNat, ofInt_eq_ofRatio, hsign, Int.natAbs_natCast]

theorem abs_ofInt (n : Int) : (ofInt n : Binary F).abs = ofNat n.natAbs := by
  rw [ofInt_eq_ofRatio, ofNat_eq_ofRatio]
  rfl

/-- **Natural numbers are rounded correctly**, unless they are out of range. -/
theorem isRounded_ofNat (hfraction : 0 < F.fractionBits) {n : Nat}
    (hrange : F.dropped (n * F.one) 1 + 4 ≤ 2 ^ F.exponentBits) :
    (ofNat n : Binary F).IsRounded n := by
  rw [ofNat_eq_ofRatio]
  exact ⟨rfl, isNearest_ofRatio Nat.one_pos hfraction (isFinite_ofRatio false hrange)⟩

/-- Natural numbers of sixty-four bits are within the range of doubles. -/
theorem isRounded_ofNat_double {n : Nat} (h : n < 2 ^ 64) : (ofNat n : Double).IsRounded n := by
  refine isRounded_ofNat (by decide) ?_
  have hscale : FloatFormat.double.scale = 1074 := by decide
  have hlog : (n * FloatFormat.double.one / 1).log2 ≤ 63 + FloatFormat.double.scale := by
    rw [Nat.div_one, FloatFormat.one_eq]
    by_cases hzero : n = 0
    · simp [hzero]
    · rw [log2_mul_two_pow hzero]
      have hlt : n.log2 < 64 := (Nat.log2_lt hzero).2 h
      omega
  have hexponent : 2 ^ FloatFormat.double.exponentBits = 2048 := rfl
  rw [FloatFormat.dropped, hexponent]
  show (n * FloatFormat.double.one / 1).log2 - 52 + 4 ≤ 2048
  omega

end Binary

end LineChart
