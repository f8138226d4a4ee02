import LineChart.Proofs.Number.Digits
import LineChart.Proofs.Number.Widening

/-!
# The text of a number is read as the number

A number is shown by the fewest digits that read back to it. Digits that read back are searched for,
and if none were found the exact decimal would be taken, so the text is read as the number in any case.
What remains is that neither zeros behind the digits nor their place about the point changes the
number that a decimal is rounded to.

* `Binary.ofDecimal_shift` : decimals of one value are rounded to one number.
* `readDecimal?_positional` : the positional text of a decimal is read as a decimal of its value.
* `Double.ofDecimal_fewestDigits` : the fewest digits read back.
* `Double.read?_display` : so does the text of every number but NaN.
* `Double.display_eq_iff` : different numbers have different texts, NaNs apart.
-/

namespace LineChart

/-! ### Quotients of one value -/

theorem FloatFormat.nearest_mul_mul (F : FloatFormat) (num den : Nat) {k : Nat} (h : 0 < k) :
    F.nearest (num * k) (den * k) = F.nearest num den := by
  have hshift : ∀ places, (den * k) <<< places = den <<< places * k := by
    intro places
    rw [Nat.shiftLeft_eq, Nat.shiftLeft_eq, Nat.mul_right_comm]
  simp only [nearest, Nat.mul_div_mul_right _ _ h, hshift, roundHalfEven_mul_mul _ _ h]

theorem tenTo_pos (n : Nat) : 0 < tenTo n := Nat.pow_pos (by decide)

theorem tenTo_zero : tenTo 0 = 1 := rfl

theorem tenTo_succ (n : Nat) : tenTo (n + 1) = tenTo n * 10 := rfl

/-- A zero behind the digits of a positive number makes it ten times as large. -/
theorem toDigits_mul_ten {n : Nat} (h : 0 < n) :
    Nat.toDigits 10 (n * 10) = Nat.toDigits 10 n ++ ['0'] := by
  rw [Nat.toDigits_of_base_le (by decide) (by omega), Nat.mul_div_cancel _ (by decide),
    Nat.mul_mod_left]
  rfl

namespace Binary

variable {F : FloatFormat} {negative : Bool}

theorem ofRatio_mul_mul (num den : Nat) {k : Nat} (h : 0 < k) :
    (ofRatio negative (num * k) (den * k) : Binary F) = ofRatio negative num den := by
  rw [ofRatio, ofRatio, F.nearest_mul_mul _ _ h]

/-- Moving the last zero of the digits into the exponent leaves the quotient as it is. -/
theorem ofRatio_shift_one (digits : Nat) (exponent : Int) :
    (ofRatio negative (digits * 10 * tenTo exponent.toNat * F.one) (tenTo (-exponent).toNat) :
      Binary F) =
      ofRatio negative (digits * tenTo (exponent + 1).toNat * F.one)
        (tenTo (-(exponent + 1)).toNat) := by
  rcases Int.lt_or_le exponent 0 with hneg | hpos
  · -- the zero is taken from the numerator and from the power below
    have hbelow : (-exponent).toNat = (-(exponent + 1)).toNat + 1 := by omega
    have habove : exponent.toNat = 0 := by omega
    have habove' : (exponent + 1).toNat = 0 := by omega
    have hten : digits * 10 * tenTo 0 * F.one = digits * tenTo 0 * F.one * 10 := by
      rw [Nat.mul_right_comm digits, Nat.mul_right_comm _ 10]
    rw [hbelow, habove, habove', tenTo_succ, hten, ofRatio_mul_mul _ _ (by decide)]
  · have habove : (exponent + 1).toNat = exponent.toNat + 1 := by omega
    have hbelow : (-exponent).toNat = 0 := by omega
    have hbelow' : (-(exponent + 1)).toNat = 0 := by omega
    rw [habove, hbelow, hbelow', tenTo_succ, Nat.mul_assoc digits, Nat.mul_comm 10]

theorem ofDecimal_shift_one (digits : Nat) (exponent : Int) :
    (ofDecimal negative ⟨digits * 10, exponent⟩ : Binary F) =
      ofDecimal negative ⟨digits, exponent + 1⟩ := by
  rcases Nat.eq_zero_or_pos digits with rfl | hpos
  · rw [Nat.zero_mul, ofDecimal, ofDecimal, if_pos (.inl rfl), if_pos (.inl rfl)]
  · have hleading : ((Nat.toDigits 10 (digits * 10)).length : Int) + exponent =
        (Nat.toDigits 10 digits).length + (exponent + 1) := by
      rw [toDigits_mul_ten hpos, List.length_append, List.length_singleton]
      omega
    have hzero : digits * 10 = 0 ↔ digits = 0 := by omega
    simp only [ofDecimal, hleading, hzero, ofRatio_shift_one]

/-- **Decimals of one value are rounded to one number.** -/
theorem ofDecimal_shift (digits : Nat) (exponent : Int) (zeros : Nat) :
    (ofDecimal negative ⟨digits * tenTo zeros, exponent⟩ : Binary F) =
      ofDecimal negative ⟨digits, exponent + zeros⟩ := by
  induction zeros generalizing exponent with
  | zero => rw [tenTo_zero, Nat.mul_one, Int.natCast_zero, Int.add_zero]
  | succ zeros ih =>
    rw [tenTo_succ, ← Nat.mul_assoc, ofDecimal_shift_one, ih]
    congr 2
    push_cast
    omega

theorem ofDecimal_dropZeros (d : Decimal) :
    (ofDecimal negative d.dropZeros : Binary F) = ofDecimal negative d := by
  fun_induction Decimal.dropZeros d with
  | case1 d hzero ih =>
    have hdigits : d.digits = d.digits / 10 * 10 := by omega
    rw [ih, ← ofDecimal_shift_one, ← hdigits]
  | case2 d hzero => rfl

theorem isNaN_ofDecimal (d : Decimal) : (ofDecimal negative d : Binary F).isNaN = false := by
  simp only [ofDecimal]
  split_ifs
  · exact isNaN_ofMagnitude _ _
  · exact decide_eq_false (Nat.lt_irrefl _)
  · exact isNaN_ofMagnitude _ _

/-- A finite number has no more places before the point than it has binary digits. -/
theorem length_units_le {x : Binary F} (h : x.isFinite = true) :
    (Nat.toDigits 10 (x.units * Nat.pow 5 F.scale)).length ≤ F.scale + 2 ^ F.exponentBits := by
  have hfive : 0 < Nat.pow 5 F.scale := Nat.pow_pos (by decide)
  obtain ⟨digits, zeros, hunits, hdigits, hzeros⟩ := exists_units_eq h
  have hfraction : F.fractionBits ≤ F.scale := by
    rw [F.scale_eq]
    omega
  refine (Nat.length_toDigits_le_iff (by decide) (by omega)).2 ?_
  calc x.units * 5 ^ F.scale
      < 2 ^ (F.fractionBits + 1) * 2 ^ zeros * 5 ^ F.scale := by
        rw [hunits]
        exact Nat.mul_lt_mul_of_pos_right
          (Nat.mul_lt_mul_of_pos_right hdigits (Nat.two_pow_pos _)) hfive
    _ ≤ 2 ^ (F.scale + 2 ^ F.exponentBits) * 5 ^ F.scale := by
        rw [← Nat.pow_add]
        exact Nat.mul_le_mul_right _ (Nat.pow_le_pow_right (by decide) (by omega))
    _ = 2 ^ 2 ^ F.exponentBits * 10 ^ F.scale := by
        rw [Nat.pow_add, Nat.mul_right_comm, Nat.mul_comm, ← Nat.mul_pow]
    _ ≤ 10 ^ 2 ^ F.exponentBits * 10 ^ F.scale :=
        Nat.mul_le_mul_right _ (Nat.pow_le_pow_left (by decide) _)
    _ = 10 ^ (F.scale + 2 ^ F.exponentBits) := by rw [← Nat.pow_add, Nat.add_comm]

/-- **The exact decimal of a finite number reads back.** -/
theorem ofDecimal_units {x : Binary F} (h : x.isFinite = true) :
    (ofDecimal false ⟨x.units * Nat.pow 5 F.scale, -(F.scale : Int)⟩ : Binary F) = x.abs := by
  have hlt : x.magnitude < F.infinity := of_decide_eq_true h
  rcases Nat.eq_zero_or_pos x.units with hzero | hpos
  · rw [hzero, Nat.zero_mul, ofDecimal, if_pos (.inl rfl)]
    refine ext_fields rfl ?_
    show min 0 F.infinity = x.magnitude
    rw [units_eq_zero_iff.1 hzero, Nat.zero_min]
  · have hlength := length_units_le h
    have hdecimal : ¬ (x.units * Nat.pow 5 F.scale = 0 ∨
        ((Nat.toDigits 10 (x.units * Nat.pow 5 F.scale)).length : Int) + -(F.scale : Int) <
          -(F.scale : Int)) := by
      rw [not_or]
      exact ⟨(Nat.mul_pos hpos (Nat.pow_pos (by decide))).ne', by omega⟩
    have hrange : ¬ ((1 <<< F.exponentBits : Nat) : Int) <
        (Nat.toDigits 10 (x.units * Nat.pow 5 F.scale)).length + -(F.scale : Int) := by
      rw [Nat.one_shiftLeft]
      omega
    have hratio : x.units * Nat.pow 5 F.scale * tenTo (-(F.scale : Int)).toNat * F.one =
        x.units * tenTo F.scale := by
      have hnone : (-(F.scale : Int)).toNat = 0 := by omega
      rw [hnone, F.one_eq, tenTo, tenTo]
      show x.units * 5 ^ F.scale * 10 ^ 0 * 2 ^ F.scale = x.units * 10 ^ F.scale
      rw [Nat.pow_zero, Nat.mul_one, Nat.mul_assoc, ← Nat.mul_pow]
    have hden : tenTo (-(-(F.scale : Int))).toNat = 1 * tenTo F.scale := by
      rw [Int.neg_neg, Int.toNat_natCast, Nat.one_mul]
    simp only [ofDecimal]
    rw [if_neg hdecimal, if_neg hrange, hratio, hden, ofRatio_mul_mul _ _ (tenTo_pos _)]
    refine ext_fields rfl ?_
    show min (F.nearest x.units 1) F.infinity = x.magnitude
    rw [nearest_units, Nat.min_eq_left hlt.le]

end Binary

/-! ### Reading positional texts -/

theorem digitsValue_eq (digits : List Char) : digitsValue digits = Nat.ofDigitChars 10 digits 0 := rfl

theorem digitsValue_append_zeros (digits : List Char) (zeros : Nat) :
    digitsValue (digits ++ List.replicate zeros '0') = digitsValue digits * tenTo zeros := by
  rw [digitsValue_eq, Nat.ofDigitChars_append, Nat.ofDigitChars_replicate_zero, Nat.mul_comm]
  rfl

theorem digitsValue_zeros_append (zeros : Nat) (digits : List Char) :
    digitsValue (List.replicate zeros '0' ++ digits) = digitsValue digits := by
  rw [digitsValue_eq, Nat.ofDigitChars_append, Nat.ofDigitChars_replicate_zero, Nat.mul_zero]
  rfl

section

variable {whole fraction : List Char} (hwhole : ∀ c ∈ whole, isDigit c = true)

include hwhole

/-- Digits without a point. -/
theorem readDecimal?_whole (hne : whole ≠ []) :
    readDecimal? whole = some ⟨digitsValue whole, 0⟩ := by
  have htake : whole.takeWhile isDigit = whole := List.takeWhile_eq_self_iff.2 hwhole
  have hdrop : whole.dropWhile isDigit = [] := List.dropWhile_eq_nil_iff.2 hwhole
  simp [readDecimal?, htake, hdrop, hne]

/-- Digits on both sides of a point. -/
theorem readDecimal?_point (hfraction : ∀ c ∈ fraction, isDigit c = true) (hne : whole ≠ []) :
    readDecimal? (whole ++ '.' :: fraction) =
      some ⟨digitsValue (whole ++ fraction), -(fraction.length : Int)⟩ := by
  have hpoint : isDigit '.' = false := by decide
  have htake : (whole ++ '.' :: fraction).takeWhile isDigit = whole := by
    rw [List.takeWhile_append_of_pos hwhole, List.takeWhile_cons_of_neg (by simp [hpoint]),
      List.append_nil]
  have hdrop : (whole ++ '.' :: fraction).dropWhile isDigit = '.' :: fraction := by
    rw [List.dropWhile_append_of_pos hwhole, List.dropWhile_cons_of_neg (by simp [hpoint])]
  have htakeFraction : fraction.takeWhile isDigit = fraction :=
    List.takeWhile_eq_self_iff.2 hfraction
  have hdropFraction : fraction.dropWhile isDigit = [] := List.dropWhile_eq_nil_iff.2 hfraction
  simp [readDecimal?, htake, hdrop, htakeFraction, hdropFraction, hne]

end

/-- The zeros that fill up a positional text are digits. -/
theorem isDigit_of_mem_zeros {zeros : Nat} {c : Char} (h : c ∈ List.replicate zeros '0') :
    isDigit c = true := by
  rw [List.eq_of_mem_replicate h]
  decide

theorem isDigit_of_mem_digitText {d : Decimal} {c : Char} (h : c ∈ d.digitText) : isDigit c = true :=
  isDigit_of_mem_toDigits h

/-- Without places the text has no point. -/
theorem positional_of_nonneg {d : Decimal} (h : 0 ≤ d.exponent) :
    d.positional = d.digitText ++ List.replicate d.exponent.toNat '0' := by
  simp only [Decimal.positional, if_pos h]

/-- With places the text has as many digits behind the point, and all its digits have the value of the
decimal's. -/
theorem exists_positional_point {d : Decimal} (h : d.exponent < 0) :
    ∃ whole fraction, d.positional = whole ++ '.' :: fraction ∧ whole ≠ [] ∧
      (∀ c ∈ whole, isDigit c = true) ∧ (∀ c ∈ fraction, isDigit c = true) ∧
      (fraction.length : Int) = -d.exponent ∧ digitsValue (whole ++ fraction) = d.digits := by
  have hvalue : digitsValue d.digitText = d.digits := digitsValue_toDigits d.digits
  have hsome : 0 < d.digitText.length := List.length_pos_iff.2 Nat.toDigits_ne_nil
  by_cases hinside : (-d.exponent).toNat < d.digitText.length
  · -- the point stands between two digits
    have hcut : 0 < d.digitText.length - (-d.exponent).toNat := by omega
    refine ⟨d.digitText.take (d.digitText.length - (-d.exponent).toNat),
      d.digitText.drop (d.digitText.length - (-d.exponent).toNat), ?_, ?_, ?_, ?_, ?_, ?_⟩
    · simp only [Decimal.positional, if_neg (Int.not_le.2 h), if_pos hinside]
    · rw [← List.length_pos_iff, List.length_take]
      omega
    · exact fun c hc => isDigit_of_mem_digitText (List.mem_of_mem_take hc)
    · exact fun c hc => isDigit_of_mem_digitText (List.mem_of_mem_drop hc)
    · rw [List.length_drop]
      omega
    · rw [List.take_append_drop, hvalue]
  · refine ⟨['0'], List.replicate ((-d.exponent).toNat - d.digitText.length) '0' ++ d.digitText,
      ?_, List.cons_ne_nil _ _, ?_, ?_, ?_, ?_⟩
    · simp only [Decimal.positional, if_neg (Int.not_le.2 h), if_neg hinside]
      rfl
    · intro c hc
      exact isDigit_of_mem_zeros (show c ∈ List.replicate 1 '0' from hc)
    · exact List.forall_mem_append.2
        ⟨fun _ => isDigit_of_mem_zeros, fun _ => isDigit_of_mem_digitText⟩
    · rw [List.length_append, List.length_replicate]
      omega
    · have hlead : ['0'] = List.replicate 1 '0' := rfl
      rw [hlead, digitsValue_zeros_append, digitsValue_zeros_append, hvalue]

/-- **The positional text of a decimal is read as a decimal of its value.** -/
theorem readDecimal?_positional (d : Decimal) : readDecimal? d.positional =
    some (if 0 ≤ d.exponent then ⟨d.digits * tenTo d.exponent.toNat, 0⟩ else d) := by
  by_cases hwhole : 0 ≤ d.exponent
  · have hall : ∀ c ∈ d.digitText ++ List.replicate d.exponent.toNat '0', isDigit c = true :=
      List.forall_mem_append.2 ⟨fun _ => isDigit_of_mem_digitText, fun _ => isDigit_of_mem_zeros⟩
    have hvalue : digitsValue d.digitText = d.digits := digitsValue_toDigits d.digits
    rw [if_pos hwhole, positional_of_nonneg hwhole, readDecimal?_whole hall, digitsValue_append_zeros,
      hvalue]
    exact List.append_ne_nil_of_left_ne_nil Nat.toDigits_ne_nil _
  · obtain ⟨whole, fraction, htext, hne, hdigits, hplaces, hlength, hvalue⟩ :=
      exists_positional_point (Int.not_le.1 hwhole)
    rw [if_neg hwhole, htext, readDecimal?_point hdigits hplaces hne, hvalue, hlength, Int.neg_neg]

/-- A positional text begins with a digit. -/
theorem exists_positional_cons (d : Decimal) :
    ∃ first rest, d.positional = first :: rest ∧ isDigit first = true := by
  by_cases hwhole : 0 ≤ d.exponent
  · have hne : d.digitText ≠ [] := Nat.toDigits_ne_nil
    obtain ⟨first, rest, htext⟩ := List.exists_cons_of_ne_nil hne
    refine ⟨first, rest ++ List.replicate d.exponent.toNat '0', ?_, ?_⟩
    · rw [positional_of_nonneg hwhole, htext]
      rfl
    · exact isDigit_of_mem_digitText (htext ▸ List.mem_cons_self)
  · obtain ⟨whole, fraction, htext, hne, hdigits, -⟩ := exists_positional_point (Int.not_le.1 hwhole)
    obtain ⟨first, rest, rfl⟩ := List.exists_cons_of_ne_nil hne
    exact ⟨first, _, htext, hdigits first List.mem_cons_self⟩

/-- A text that begins with a digit has no sign. -/
theorem splitSign_of_digit {first : Char} {rest : List Char} (h : isDigit first = true) :
    splitSign (first :: rest) = (false, first :: rest) := by
  rw [splitSign.eq_def]
  split
  · next heq =>
    rw [(List.cons.inj heq).1] at h
    exact absurd h (by decide)
  · next heq =>
    rw [(List.cons.inj heq).1] at h
    exact absurd h (by decide)
  · rfl

namespace Double

variable {x y : Double}

/-! ### Texts of numbers -/

/-- Only digits that read back are taken. -/
theorem ofDecimal_withDigits? {tie : Tie} {count : Nat} {d : Decimal}
    (h : withDigits? tie x count = some d) : (Binary.ofDecimal false d : Double) = x := by
  simp only [withDigits?] at h
  split at h
  · next hlow hhigh =>
    rw [← Option.some.inj h, apply_ite (Binary.ofDecimal false), of_decide_eq_true hlow,
      of_decide_eq_true hhigh, ite_self]
  · next hlow _ =>
    rw [← Option.some.inj h]
    exact of_decide_eq_true hlow
  · next _ hhigh =>
    rw [← Option.some.inj h]
    exact of_decide_eq_true hhigh
  · cases h

/-- **The fewest digits read back.** -/
theorem ofDecimal_fewestDigits (tie : Tie) (h : x.isFinite = true) :
    (Binary.ofDecimal false (x.fewestDigits tie) : Double) = x.abs := by
  rw [fewestDigits]
  split
  · next hzero =>
    rw [Binary.ofDecimal, if_pos (.inl rfl)]
    refine Binary.ext_fields rfl ?_
    exact (Nat.zero_min _).trans (of_decide_eq_true hzero).symm
  · split
    · next d hfound =>
      obtain ⟨count, -, hdigits⟩ := List.exists_of_findSome?_eq_some hfound
      rw [Binary.ofDecimal_dropZeros, ofDecimal_withDigits? hdigits]
    · exact Binary.ofDecimal_units h

/-- The positional text of a decimal, behind a sign, is read as the decimal. -/
theorem read?_signed (x : Double) (d : Decimal) :
    read? (x.signed d.positional).toList = some (.ofDecimal x.negative d) := by
  obtain ⟨first, rest, hfirst, hdigit⟩ := exists_positional_cons d
  have hsplit : splitSign (x.signed d.positional).toList = (x.negative, d.positional) := by
    rw [signed, String.toList_ofList]
    cases x.negative with
    | true => rfl
    | false =>
      rw [if_neg Bool.false_ne_true, hfirst, splitSign_of_digit hdigit]
  rw [read?, hsplit]
  simp only [readDecimal?_positional]
  split
  · next hwhole =>
    have hshift : (Binary.ofDecimal x.negative ⟨d.digits * tenTo d.exponent.toNat, 0⟩ : Double) =
        .ofDecimal x.negative ⟨d.digits, 0 + d.exponent.toNat⟩ := Binary.ofDecimal_shift _ _ _
    rw [hshift, Int.zero_add, Int.toNat_of_nonneg hwhole]
  · rfl

/-- **The text of a number is read as the number**, unless it is NaN. -/
theorem read?_display (h : x.isNaN = false) : read? x.display.toList = some x := by
  rw [display, if_neg (by simp [h])]
  by_cases hinfinite : x.isInfinite = true
  · have hx : x = .infinite x.negative := Binary.ext_fields rfl (of_decide_eq_true hinfinite)
    rw [if_pos hinfinite, hx]
    cases x.negative <;> decide +kernel
  · have hfinite : x.isFinite = true := by
      have hnot : ¬ x.magnitude = FloatFormat.double.infinity := by
        simpa [Binary.isInfinite] using hinfinite
      have hle : ¬ FloatFormat.double.infinity < x.magnitude := of_decide_eq_false h
      exact decide_eq_true (by omega)
    rw [if_neg hinfinite, read?_signed, Binary.ofDecimal_eq, ofDecimal_fewestDigits .away hfinite]
    rfl

theorem display_of_isNaN (h : x.isNaN = true) : x.display = "NaN" := by
  rw [display, if_pos h]

/-- The text that NaN has is not that of a number. -/
theorem display_ne_nan (h : x.isNaN = false) : x.display ≠ "NaN" := by
  intro htext
  have hread := read?_display h
  rw [htext] at hread
  have hnan : (read? "NaN".toList).map Binary.isNaN = some true := by decide +kernel
  rw [hread, Option.map_some, h] at hnan
  cases hnan

/-- **Different numbers have different texts**, and all NaNs have one. -/
theorem display_eq_iff : x.display = y.display ↔ x = y ∨ (x.isNaN = true ∧ y.isNaN = true) := by
  cases hx : x.isNaN with
  | true =>
    rw [display_of_isNaN hx]
    cases hy : y.isNaN with
    | true => simp [display_of_isNaN hy]
    | false =>
      have hne : x ≠ y := by
        rintro rfl
        rw [hx] at hy
        cases hy
      simp [hne, (display_ne_nan hy).symm]
  | false =>
    simp only [Bool.false_eq_true, false_and, or_false]
    constructor
    · intro h
      cases hy : y.isNaN with
      | true => exact absurd (h.trans (display_of_isNaN hy)) (display_ne_nan hx)
      | false =>
        have hread := read?_display hx
        rw [h, read?_display hy] at hread
        exact (Option.some.inj hread).symm
    · rintro rfl
      rfl

end Double

end LineChart
