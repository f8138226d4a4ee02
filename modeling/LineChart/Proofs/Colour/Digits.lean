import LineChart.Proofs.Colour.Cuts

/-!
# The digits of a colour

A colour has three digits, one for each part, or six. A part of two characters is read as an integer
is, though, so that a plus sign can stand in the place of its first digit.

* `IsHexDigit` : the hexadecimal digits of a value, in lower case and in upper case.
* `Colour.TwoDigits`, `Colour.TwoCharacters` : the texts of a part of two digits, and of any part of
  two characters.
* `Colour.Spells` : the texts of a colour, whose long parts may be of one or the other kind.
* `Colour.read_eq_colour_iff` : the colours that are read are those that are spelled.
* `Colour.read_plain_text` : what is read from texts of characters of one byte.
-/

namespace LineChart

/-! ### Hexadecimal digits -/

/-- A character is the hexadecimal digit of a value, in lower case or in upper case. -/
def IsHexDigit (c : Char) (n : Nat) : Prop :=
  n < 16 ∧ (c = Nat.digitChar n ∨ c = (Nat.digitChar n).toUpper)

instance (c : Char) (n : Nat) : Decidable (IsHexDigit c n) := inferInstanceAs (Decidable (_ ∧ _))

/-- **A character has the value of a hexadecimal digit** if it is one. -/
theorem hexValue?_eq_some_iff {c : Char} {n : Nat} : hexValue? c = some n ↔ IsHexDigit c n := by
  constructor
  · intro h
    have hplain : c.toNat < 128 := by
      rw [hexValue?] at h
      split at h
      · next hdigit => exact Nat.lt_of_le_of_lt (of_decide_eq_true hdigit).2 (by decide)
      · split at h
        · next hlower => exact Nat.lt_of_le_of_lt hlower.2 (by decide)
        · split at h
          · next hupper => exact Nat.lt_of_le_of_lt hupper.2 (by decide)
          · cases h
    have hall : ∀ code < 128, ∀ n ∈ hexValue? (.ofNat code), IsHexDigit (.ofNat code) n := by decide
    have hchar := hall c.toNat hplain n
    rw [Char.ofNat_toNat] at hchar
    exact hchar h
  · intro h
    have hall : ∀ n < 16, hexValue? (Nat.digitChar n) = some n ∧
        hexValue? (Nat.digitChar n).toUpper = some n := by decide
    obtain ⟨hn, rfl | rfl⟩ := h
    · exact (hall n hn).1
    · exact (hall n hn).2

theorem IsHexDigit.utf8Size {c : Char} {n : Nat} (h : IsHexDigit c n) : c.utf8Size = 1 := by
  have hall : ∀ n < 16, (Nat.digitChar n).utf8Size = 1 ∧
      (Nat.digitChar n).toUpper.utf8Size = 1 := by decide
  obtain ⟨hn, rfl | rfl⟩ := h
  · exact (hall n hn).1
  · exact (hall n hn).2

theorem IsHexDigit.byteLength {c : Char} {n : Nat} (h : IsHexDigit c n) :
    Colour.byteLength [c] = 1 := by
  rw [Colour.byteLength_cons, h.utf8Size, Colour.byteLength_nil]

theorem not_isHexDigit_plus (n : Nat) : ¬ IsHexDigit '+' n := by
  rw [← hexValue?_eq_some_iff]
  simp [show hexValue? '+' = none from rfl]

namespace Colour

variable {text part : List Char} {c d : Char} {n : Nat}

/-! ### One part -/

/-- A part as two hexadecimal digits, the higher one in front. -/
inductive TwoDigits : List Char → Nat → Prop
  | intro {c d : Char} {m n : Nat} (hc : IsHexDigit c m) (hd : IsHexDigit d n) :
    TwoDigits [c, d] (16 * m + n)

/-- A part as two characters: two digits, or a plus sign and one digit. -/
inductive TwoCharacters : List Char → Nat → Prop
  | digits {part : List Char} {n : Nat} (h : TwoDigits part n) : TwoCharacters part n
  | signed {d : Char} {n : Nat} (h : IsHexDigit d n) : TwoCharacters ['+', d] n

theorem TwoDigits.plus_notMem (h : TwoDigits part n) : '+' ∉ part := by
  obtain ⟨hc, hd⟩ := h
  simp only [List.mem_cons, List.not_mem_nil, or_false, not_or]
  exact ⟨fun h => not_isHexDigit_plus _ (h ▸ hc), fun h => not_isHexDigit_plus _ (h ▸ hd)⟩

theorem TwoCharacters.byteLength (h : TwoCharacters part n) : byteLength part = 2 := by
  cases h with
  | digits h =>
    obtain ⟨hc, hd⟩ := h
    simp [byteLength_cons, byteLength_nil, hc.utf8Size, hd.utf8Size]
  | signed h => simp [byteLength_cons, byteLength_nil, h.utf8Size, show '+'.utf8Size = 1 from rfl]

/-- Without a plus sign, the two characters are digits. -/
theorem TwoCharacters.twoDigits (h : TwoCharacters part n) (hplus : '+' ∉ part) :
    TwoDigits part n := by
  cases h with
  | digits h => exact h
  | signed h => exact absurd List.mem_cons_self hplus

theorem hexDigits?_single (c : Char) : hexDigits? [c] = hexValue? c := by
  cases hc : hexValue? c <;> simp [hexDigits?, hc]

theorem hexDigits?_pair_eq_some_iff :
    hexDigits? [c, d] = some n ↔ TwoDigits [c, d] n := by
  constructor
  · intro h
    cases hc : hexValue? c with
    | none => simp [hexDigits?, hc] at h
    | some high =>
      cases hd : hexValue? d with
      | none => simp [hexDigits?, hc, hd] at h
      | some low =>
        obtain rfl : 16 * high + low = n := by simpa [hexDigits?, hc, hd] using h
        exact .intro (hexValue?_eq_some_iff.1 hc) (hexValue?_eq_some_iff.1 hd)
  · intro h
    obtain ⟨hc, hd⟩ := h
    simp [hexDigits?, hexValue?_eq_some_iff.2 hc, hexValue?_eq_some_iff.2 hd]

theorem part?_single (c : Char) : part? [c] = hexValue? c := by
  by_cases hplus : c = '+'
  · subst hplus
    rfl
  · rw [part?, hexDigits?_single]
    rintro digits ⟨⟩
    exact hplus rfl

theorem part?_pair_eq_some_iff : part? [c, d] = some n ↔ TwoCharacters [c, d] n := by
  by_cases hplus : c = '+'
  · subst hplus
    have hpart : part? ['+', d] = hexValue? d := hexDigits?_single d
    rw [hpart, hexValue?_eq_some_iff]
    refine ⟨.signed, fun h => ?_⟩
    cases h with
    | digits h => exact absurd List.mem_cons_self h.plus_notMem
    | signed h => exact h
  · have hpart : part? [c, d] = hexDigits? [c, d] := by
      rw [part?]
      rintro digits ⟨⟩
      exact hplus rfl
    rw [hpart, hexDigits?_pair_eq_some_iff]
    refine ⟨.digits, fun h => ?_⟩
    cases h with
    | digits h => exact h
    | signed _ => exact absurd rfl hplus

/-- **A part of one byte is a digit.** -/
theorem part?_eq_some_iff_of_one (hsize : byteLength part = 1) :
    part? part = some n ↔ ∃ c, part = [c] ∧ IsHexDigit c n := by
  match part with
  | [] => cases hsize
  | [c] => simp [part?_single, hexValue?_eq_some_iff]
  | c :: d :: rest =>
    have hc := c.utf8Size_pos
    have hd := d.utf8Size_pos
    rw [byteLength_cons, byteLength_cons] at hsize
    omega

/-- **A part of two bytes is two digits, or a plus sign and a digit.** -/
theorem part?_eq_some_iff_of_two (hsize : byteLength part = 2) :
    part? part = some n ↔ TwoCharacters part n := by
  match part with
  | [] => cases hsize
  | [c] =>
    rw [part?_single, hexValue?_eq_some_iff]
    rw [byteLength_cons, byteLength_nil] at hsize
    refine iff_of_false (fun h => ?_) (fun h => ?_)
    · have hone := h.utf8Size
      omega
    · cases h with
      | digits h => cases h
  | [c, d] => exact part?_pair_eq_some_iff
  | c :: d :: e :: rest =>
    have hc := c.utf8Size_pos
    have hd := d.utf8Size_pos
    have he := e.utf8Size_pos
    rw [byteLength_cons, byteLength_cons, byteLength_cons] at hsize
    omega

/-! ### Three parts -/

/-- A text is cut behind a part of the size that was asked for. -/
theorem cutAt_append (part rest : List Char) :
    cutAt (byteLength part) (part ++ rest) = some (part, rest) := by
  induction part with
  | nil => cases rest <;> rfl
  | cons c part ih =>
    have hpos := c.utf8Size_pos
    rw [byteLength_cons, List.cons_append, cutAt_cons (by omega), if_pos (Nat.le_add_right _ _),
      Nat.add_sub_cancel_left, ih]
    rfl

theorem eq_nil_of_byteLength (h : byteLength text = 0) : text = [] := by
  cases text with
  | nil => rfl
  | cons c text =>
    have hpos := c.utf8Size_pos
    rw [byteLength_cons] at h
    omega

/-- **The parts of a colour are read one after the other**, each of a third of the text. -/
theorem readParts_eq_colour_iff {size factor : Nat} {colour : Colour}
    (hsize : byteLength text = 3 * size) :
    readParts size factor text = .colour colour ↔
      ∃ first second third red green blue, text = first ++ (second ++ third) ∧
        byteLength first = size ∧ byteLength second = size ∧ byteLength third = size ∧
        part? first = some red ∧ part? second = some green ∧ part? third = some blue ∧
        colour = ⟨.ofNat (red * factor), .ofNat (green * factor), .ofNat (blue * factor)⟩ := by
  constructor
  · intro h
    rw [readParts] at h
    split at h
    · cases h
    next first rest hcut =>
    obtain ⟨rfl, hfirst⟩ := cutAt_eq_some hcut (by omega)
    rw [byteLength_append] at hsize
    split at h
    · cases h
    next red hred =>
    split at h
    · cases h
    next second rest hcut =>
    obtain ⟨rfl, hsecond⟩ := cutAt_eq_some hcut (by omega)
    rw [byteLength_append] at hsize
    split at h
    · cases h
    next green hgreen =>
    split at h
    · cases h
    next third rest hcut =>
    obtain ⟨rfl, hthird⟩ := cutAt_eq_some hcut (by omega)
    rw [byteLength_append] at hsize
    split at h
    · cases h
    next blue hblue =>
    obtain rfl := ColourReading.colour.inj h
    -- three parts of that size take all bytes of the text
    have hend : byteLength rest = 0 := by omega
    obtain rfl := eq_nil_of_byteLength hend
    rw [List.append_nil]
    exact ⟨first, second, third, red, green, blue, rfl, hfirst, hsecond, hthird, hred, hgreen,
      hblue, rfl⟩
  · intro h
    obtain ⟨first, second, third, red, green, blue, rfl, hfirst, hsecond, hthird, hred, hgreen,
      hblue, rfl⟩ := h
    have hlast := cutAt_append third []
    rw [List.append_nil, hthird] at hlast
    have hmiddle := cutAt_append second third
    rw [hsecond] at hmiddle
    have hfront := cutAt_append first (second ++ third)
    rw [hfirst] at hfront
    simp only [readParts, hfront, hred, hmiddle, hgreen, hlast, hblue]

/-- The texts of a colour, where `long` tells the texts of a part of two characters. A part of one
digit stands for that digit twice. -/
inductive Spells (long : List Char → Nat → Prop) : List Char → Colour → Prop
  | short {r g b : Char} {red green blue : Nat} (hr : IsHexDigit r red) (hg : IsHexDigit g green)
    (hb : IsHexDigit b blue) :
    Spells long [r, g, b] ⟨.ofNat (16 * red + red), .ofNat (16 * green + green),
      .ofNat (16 * blue + blue)⟩
  | long {first second third : List Char} {red green blue : Nat} (hr : long first red)
    (hg : long second green) (hb : long third blue) :
    Spells long (first ++ (second ++ third)) ⟨.ofNat red, .ofNat green, .ofNat blue⟩

theorem Spells.mono {long wider : List Char → Nat → Prop} {colour : Colour}
    (hwider : ∀ part n, long part n → wider part n) (h : Spells long text colour) :
    Spells wider text colour := by
  cases h with
  | short hr hg hb => exact .short hr hg hb
  | long hr hg hb => exact .long (hwider _ _ hr) (hwider _ _ hg) (hwider _ _ hb)

theorem Spells.byteLength {colour : Colour} (h : Spells TwoCharacters text colour) :
    byteLength text = 3 ∨ byteLength text = 6 := by
  cases h with
  | short hr hg hb =>
    simp [byteLength_cons, byteLength_nil, hr.utf8Size, hg.utf8Size, hb.utf8Size]
  | long hr hg hb =>
    simp [byteLength_append, hr.byteLength, hg.byteLength, hb.byteLength]

/-- The plus signs are all that parts of two characters have besides digits. -/
theorem spells_twoDigits_iff {colour : Colour} :
    Spells TwoDigits text colour ↔ Spells TwoCharacters text colour ∧ '+' ∉ text := by
  constructor
  · intro h
    refine ⟨h.mono fun _ _ => .digits, ?_⟩
    cases h with
    | short hr hg hb =>
      simp only [List.mem_cons, List.not_mem_nil, or_false, not_or]
      exact ⟨fun h => not_isHexDigit_plus _ (h ▸ hr), fun h => not_isHexDigit_plus _ (h ▸ hg),
        fun h => not_isHexDigit_plus _ (h ▸ hb)⟩
    | long hr hg hb =>
      simp only [List.mem_append, not_or]
      exact ⟨hr.plus_notMem, hg.plus_notMem, hb.plus_notMem⟩
  · intro h
    obtain ⟨h, hplus⟩ := h
    cases h with
    | short hr hg hb => exact .short hr hg hb
    | long hr hg hb =>
      simp only [List.mem_append, not_or] at hplus
      exact .long (hr.twoDigits hplus.1) (hg.twoDigits hplus.2.1) (hb.twoDigits hplus.2.2)

/-- A digit twice. -/
theorem sixteen_mul_add (n : Nat) : 16 * n + n = n * 17 := by omega

theorem readParts_one_eq_colour_iff {colour : Colour} (hsize : byteLength text = 3) :
    readParts 1 17 text = .colour colour ↔ Spells TwoCharacters text colour := by
  rw [readParts_eq_colour_iff hsize]
  constructor
  · intro h
    obtain ⟨first, second, third, red, green, blue, rfl, hfirst, hsecond, hthird, hred, hgreen,
      hblue, rfl⟩ := h
    obtain ⟨r, rfl, hr⟩ := (part?_eq_some_iff_of_one hfirst).1 hred
    obtain ⟨g, rfl, hg⟩ := (part?_eq_some_iff_of_one hsecond).1 hgreen
    obtain ⟨b, rfl, hb⟩ := (part?_eq_some_iff_of_one hthird).1 hblue
    rw [← sixteen_mul_add, ← sixteen_mul_add, ← sixteen_mul_add]
    exact .short hr hg hb
  · intro h
    cases h with
    | @short r g b red green blue hr hg hb =>
      rw [sixteen_mul_add, sixteen_mul_add, sixteen_mul_add]
      refine ⟨[r], [g], [b], red, green, blue, rfl, hr.byteLength, hg.byteLength, hb.byteLength,
        ?_, ?_, ?_, rfl⟩
      · exact (part?_eq_some_iff_of_one hr.byteLength).2 ⟨r, rfl, hr⟩
      · exact (part?_eq_some_iff_of_one hg.byteLength).2 ⟨g, rfl, hg⟩
      · exact (part?_eq_some_iff_of_one hb.byteLength).2 ⟨b, rfl, hb⟩
    | long hr hg hb =>
      rw [byteLength_append, byteLength_append, hr.byteLength, hg.byteLength,
        hb.byteLength] at hsize
      omega

theorem readParts_two_eq_colour_iff {colour : Colour} (hsize : byteLength text = 6) :
    readParts 2 1 text = .colour colour ↔ Spells TwoCharacters text colour := by
  rw [readParts_eq_colour_iff hsize]
  constructor
  · intro h
    obtain ⟨first, second, third, red, green, blue, rfl, hfirst, hsecond, hthird, hred, hgreen,
      hblue, rfl⟩ := h
    rw [part?_eq_some_iff_of_two hfirst] at hred
    rw [part?_eq_some_iff_of_two hsecond] at hgreen
    rw [part?_eq_some_iff_of_two hthird] at hblue
    rw [Nat.mul_one, Nat.mul_one, Nat.mul_one]
    exact .long hred hgreen hblue
  · intro h
    cases h with
    | short hr hg hb =>
      simp [byteLength_cons, byteLength_nil, hr.utf8Size, hg.utf8Size, hb.utf8Size] at hsize
    | @long first second third red green blue hr hg hb =>
      refine ⟨first, second, third, red, green, blue, rfl, hr.byteLength, hg.byteLength,
        hb.byteLength, ?_, ?_, ?_, ?_⟩
      · exact (part?_eq_some_iff_of_two hr.byteLength).2 hr
      · exact (part?_eq_some_iff_of_two hg.byteLength).2 hg
      · exact (part?_eq_some_iff_of_two hb.byteLength).2 hb
      · rw [Nat.mul_one, Nat.mul_one, Nat.mul_one]

/-! ### Reading -/

/-- **The colours that are read** are those that the text spells, outer blanks and one number sign
in front left out. -/
theorem read_eq_colour_iff {text : String} {colour : Colour} :
    read text = .colour colour ↔ Spells TwoCharacters (body text) colour := by
  rw [read]
  by_cases hshort : byteLength (body text) = 3
  · rw [if_pos hshort, readParts_one_eq_colour_iff hshort]
  · rw [if_neg hshort]
    by_cases hlong : byteLength (body text) = 6
    · rw [if_pos hlong, readParts_two_eq_colour_iff hlong]
    · rw [if_neg hlong]
      refine iff_of_false (by simp) fun h => ?_
      cases h.byteLength with
      | inl h => exact hshort h
      | inr h => exact hlong h

/-- A text of characters of one byte is not cut. -/
theorem read_ne_cutCharacter {text : String} (hplain : ∀ c ∈ text.toList, c.toNat < 128) :
    read text ≠ .cutCharacter := by
  intro h
  obtain ⟨c, hc, hwide⟩ := (read_eq_cutCharacter_iff.1 h).exists_wide
  have hone : c.utf8Size = 1 := Char.utf8Size_eq_one_iff.2 (Nat.le_of_lt_succ (hplain c hc))
  omega

/-- **What is read from a text of characters of one byte.** It is the colour that the text spells by
three digits or by three parts of two characters, and no colour if it spells none. The colours that
are spelled by digits alone are those that are read from texts without a plus sign. -/
theorem read_plain_text {text : String} (hplain : ∀ c ∈ text.toList, c.toNat < 128) :
    (∀ colour, read text = .colour colour ↔ Spells TwoCharacters (body text) colour) ∧
      (read text = .notColour ↔ ∀ colour, ¬ Spells TwoCharacters (body text) colour) ∧
      ∀ colour, Spells TwoDigits (body text) colour ↔
        read text = .colour colour ∧ '+' ∉ body text := by
  refine ⟨fun _ => read_eq_colour_iff, ?_, fun colour => ?_⟩
  · simp only [← read_eq_colour_iff]
    have hwhole := read_ne_cutCharacter hplain
    cases hread : read text with
    | colour c => simp
    | notColour => simp
    | cutCharacter => exact absurd hread hwhole
  · rw [spells_twoDigits_iff, read_eq_colour_iff]

/-- Three digits in both cases between blanks, behind a number sign. -/
theorem read_plain_text_padded : (∀ c ∈ " #1Fb\n".toList, c.toNat < 128) ∧
    read " #1Fb\n" = .colour ⟨0x11, 0xff, 0xbb⟩ := by
  have hplain : ∀ c ∈ " #1Fb\n".toList, c.toNat < 128 := by simp
  have hspells : Spells TwoCharacters ['1', 'F', 'b'] ⟨0x11, 0xff, 0xbb⟩ :=
    @Spells.short _ '1' 'F' 'b' 1 15 11 (by decide) (by decide) (by decide)
  exact ⟨hplain, ((read_plain_text hplain).1 _).2 hspells⟩

/-- A plus sign in front of each digit makes a colour of a text that has no six digits. -/
theorem exists_signed_colour : read "+1+2+3" = .colour ⟨1, 2, 3⟩ ∧
    ∀ colour, ¬ Spells TwoDigits (body "+1+2+3") colour := by
  refine ⟨by decide, fun colour h => ?_⟩
  have hplus : '+' ∈ body "+1+2+3" := by decide
  exact (spells_twoDigits_iff.1 h).2 hplus

end Colour

end LineChart
