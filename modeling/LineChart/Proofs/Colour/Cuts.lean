import LineChart.Colour
import Mathlib.Data.List.Basic

/-!
# Colours that are cut inside a character

A text of three or six bytes is read as a colour by cutting it into three parts of equal size. The
sizes are counted in bytes, so that a cut can fall inside a character.

* `Colour.InsideCharacter` : a byte position inside a character.
* `Colour.cutAt_eq_none_iff`, `Colour.cutAt_eq_some` : what cutting a text does.
* `Colour.Cuts` : the texts that are cut inside a character.
* `Colour.read_eq_cutCharacter_iff` : reading fails that way on these texts, and on no others.
* `Colour.Cuts.exists_wide` : texts of characters of one byte are not among them.
-/

namespace LineChart.Colour

/-! ### Byte positions -/

theorem byteLength_nil : byteLength [] = 0 := rfl

theorem byteLength_cons (c : Char) (text : List Char) :
    byteLength (c :: text) = c.utf8Size + byteLength text := rfl

theorem byteLength_append (text behind : List Char) :
    byteLength (text ++ behind) = byteLength text + byteLength behind := by
  induction text with
  | nil => rw [List.nil_append, byteLength_nil, Nat.zero_add]
  | cons c text ih => rw [List.cons_append, byteLength_cons, byteLength_cons, ih, Nat.add_assoc]

/-- A text falls into two parts at a byte position in one way only. -/
theorem eq_of_append_eq {first behind first' behind' : List Char}
    (h : first ++ behind = first' ++ behind') (hsize : byteLength first = byteLength first') :
    first = first' ∧ behind = behind' := by
  induction first generalizing first' with
  | nil =>
    cases first' with
    | nil => exact ⟨rfl, h⟩
    | cons c first' =>
      have hpos := c.utf8Size_pos
      rw [byteLength_cons, byteLength_nil] at hsize
      omega
  | cons c first ih =>
    cases first' with
    | nil =>
      have hpos := c.utf8Size_pos
      rw [byteLength_cons, byteLength_nil] at hsize
      omega
    | cons d first' =>
      obtain ⟨rfl, hrest⟩ := List.cons.inj h
      rw [byteLength_cons, byteLength_cons] at hsize
      obtain ⟨rfl, rfl⟩ := ih hrest (Nat.add_left_cancel hsize)
      exact ⟨rfl, rfl⟩

/-- A byte position falls inside a character of a text: behind its first byte and in front of the
next character. -/
def InsideCharacter (n : Nat) (text : List Char) : Prop :=
  ∃ before c behind, text = before ++ c :: behind ∧
    byteLength before < n ∧ n < byteLength before + c.utf8Size

theorem not_insideCharacter_nil (n : Nat) : ¬ InsideCharacter n [] := by
  intro h
  obtain ⟨before, c, behind, htext, -, -⟩ := h
  exact List.append_ne_nil_of_right_ne_nil before (List.cons_ne_nil c behind) htext.symm

theorem not_insideCharacter_zero (text : List Char) : ¬ InsideCharacter 0 text := by
  intro h
  obtain ⟨before, c, behind, -, hbefore, -⟩ := h
  exact Nat.not_lt_zero _ hbefore

/-- Positions inside the first character. -/
theorem insideCharacter_of_lt {n : Nat} (hn : 0 < n) {c : Char} (h : n < c.utf8Size)
    (text : List Char) : InsideCharacter n (c :: text) :=
  ⟨[], c, text, rfl, hn, Nat.lt_of_lt_of_eq h (Nat.zero_add _).symm⟩

/-- Positions behind the first character. -/
theorem insideCharacter_cons_iff (n : Nat) (c : Char) (text : List Char) :
    InsideCharacter (c.utf8Size + n) (c :: text) ↔ InsideCharacter n text := by
  constructor
  · intro h
    obtain ⟨before, d, behind, htext, hbefore, hd⟩ := h
    cases before with
    | nil =>
      obtain ⟨rfl, rfl⟩ := List.cons.inj htext
      rw [byteLength_nil] at hd
      omega
    | cons e before =>
      obtain ⟨rfl, rfl⟩ := List.cons.inj htext
      rw [byteLength_cons] at hbefore hd
      exact ⟨before, d, behind, rfl, by omega, by omega⟩
  · intro h
    obtain ⟨before, d, behind, rfl, hbefore, hd⟩ := h
    refine ⟨c :: before, d, behind, rfl, ?_, ?_⟩
    · rw [byteLength_cons]; omega
    · rw [byteLength_cons]; omega

/-- The position is a position of the text. -/
theorem InsideCharacter.lt_byteLength {n : Nat} {text : List Char} (h : InsideCharacter n text) :
    n < byteLength text := by
  obtain ⟨before, c, behind, rfl, -, hc⟩ := h
  rw [byteLength_append, byteLength_cons]
  omega

/-- There is a character of more than one byte. -/
theorem InsideCharacter.exists_wide {n : Nat} {text : List Char} (h : InsideCharacter n text) :
    ∃ c ∈ text, 1 < c.utf8Size := by
  obtain ⟨before, c, behind, rfl, hbefore, hc⟩ := h
  exact ⟨c, List.mem_append_right _ List.mem_cons_self, by omega⟩

/-! ### Cutting -/

/-- A text is cut behind a character if the character still fits in front of the cut. -/
theorem cutAt_cons {size : Nat} (hsize : 0 < size) (c : Char) (text : List Char) :
    cutAt size (c :: text) = if c.utf8Size ≤ size then
      (cutAt (size - c.utf8Size) text).map fun cut => (c :: cut.1, cut.2) else none := by
  obtain ⟨size, rfl⟩ := Nat.exists_eq_add_one_of_ne_zero (Nat.ne_of_gt hsize)
  rw [cutAt.eq_def]
  refine if_congr Iff.rfl ?_ rfl
  cases cutAt (size + 1 - c.utf8Size) text <;> rfl

/-- **A text is not cut if the cut falls inside a character**, and only then. -/
theorem cutAt_eq_none_iff {size : Nat} {text : List Char} :
    cutAt size text = none ↔ InsideCharacter size text := by
  induction text generalizing size with
  | nil =>
    refine iff_of_false ?_ (not_insideCharacter_nil size)
    cases size <;> simp [cutAt]
  | cons c text ih =>
    rcases Nat.eq_zero_or_pos size with rfl | hpos
    · exact iff_of_false (by simp [cutAt]) (not_insideCharacter_zero _)
    · rw [cutAt_cons hpos]
      by_cases hfits : c.utf8Size ≤ size
      · have hiff := insideCharacter_cons_iff (size - c.utf8Size) c text
        rw [Nat.add_sub_cancel' hfits] at hiff
        rw [if_pos hfits, hiff, Option.map_eq_none_iff, ih]
      · rw [if_neg hfits]
        exact iff_of_true rfl (insideCharacter_of_lt hpos (Nat.lt_of_not_le hfits) _)

/-- A text that is cut falls into two parts, the first of which has the size that was asked for. -/
theorem cutAt_eq_some {size : Nat} {text part rest : List Char}
    (h : cutAt size text = some (part, rest)) (hsize : size ≤ byteLength text) :
    text = part ++ rest ∧ byteLength part = size := by
  induction text generalizing size part with
  | nil =>
    obtain rfl := Nat.le_zero.1 hsize
    obtain ⟨rfl, rfl⟩ := Prod.mk.inj (Option.some.inj h)
    exact ⟨rfl, rfl⟩
  | cons c text ih =>
    rcases Nat.eq_zero_or_pos size with rfl | hpos
    · obtain ⟨rfl, rfl⟩ := Prod.mk.inj (Option.some.inj h)
      exact ⟨rfl, rfl⟩
    · rw [cutAt_cons hpos] at h
      rw [byteLength_cons] at hsize
      split at h
      · next hfits =>
        obtain ⟨⟨part', rest'⟩, hcut, hcons⟩ := Option.map_eq_some_iff.1 h
        obtain ⟨rfl, rfl⟩ := Prod.mk.inj hcons
        obtain ⟨rfl, hpart⟩ := ih hcut (by omega)
        refine ⟨rfl, ?_⟩
        rw [byteLength_cons, hpart]
        omega
      · cases h

/-! ### Reading -/

/-- A text is cut inside a character where its first part ends, or, behind a first part of digits,
where its second part ends. -/
def CutsParts (size : Nat) (text : List Char) : Prop :=
  InsideCharacter size text ∨ ∃ first rest, text = first ++ rest ∧ byteLength first = size ∧
    part? first ≠ none ∧ InsideCharacter size rest

theorem readParts_eq_cutCharacter_iff {size factor : Nat} {text : List Char}
    (hsize : byteLength text = 3 * size) :
    readParts size factor text = .cutCharacter ↔ CutsParts size text := by
  rw [readParts]
  cases hfirst : cutAt size text with
  | none => exact iff_of_true rfl (.inl (cutAt_eq_none_iff.1 hfirst))
  | some cut =>
    obtain ⟨first, rest⟩ := cut
    obtain ⟨rfl, hlength⟩ := cutAt_eq_some hfirst (by omega)
    have hout : ¬ InsideCharacter size (first ++ rest) := by
      rw [← cutAt_eq_none_iff, hfirst]
      simp
    -- what is left to ask is whether the first part has digits, and then where the second one ends
    have hiff : CutsParts size (first ++ rest) ↔
        part? first ≠ none ∧ InsideCharacter size rest := by
      constructor
      · intro h
        obtain hinside | ⟨first', rest', htext, hlength', hpart, hinside⟩ := h
        · exact absurd hinside hout
        · obtain ⟨rfl, rfl⟩ := eq_of_append_eq htext (hlength.trans hlength'.symm)
          exact ⟨hpart, hinside⟩
      · intro h
        exact .inr ⟨first, rest, rfl, hlength, h.1, h.2⟩
    rw [hiff]
    rw [byteLength_append] at hsize
    cases hred : part? first with
    | none => simp only [hred]; simp
    | some red =>
      simp only [hred]
      cases hsecond : cutAt size rest with
      | none => exact iff_of_true rfl ⟨by simp, cutAt_eq_none_iff.1 hsecond⟩
      | some cut =>
        obtain ⟨second, third⟩ := cut
        obtain ⟨rfl, hlength'⟩ := cutAt_eq_some hsecond (by omega)
        have hout' : ¬ InsideCharacter size (second ++ third) := by
          rw [← cutAt_eq_none_iff, hsecond]
          simp
        refine iff_of_false ?_ fun h => hout' h.2
        -- the third part is what is left, and its end is the end of the text
        have hlast : cutAt size third ≠ none := by
          intro hnone
          have hlt := (cutAt_eq_none_iff.1 hnone).lt_byteLength
          rw [byteLength_append] at hsize
          omega
        obtain ⟨⟨last, behind⟩, hthird⟩ := Option.ne_none_iff_exists'.1 hlast
        simp only [hthird]
        cases part? second with
        | none => simp
        | some green => cases part? last <;> simp

/-- A colour's text is cut inside a character: its body has the bytes of three parts of one digit or
of two, but the parts do not end where characters end. -/
def Cuts (text : String) : Prop :=
  ∃ size, (size = 1 ∨ size = 2) ∧ byteLength (body text) = 3 * size ∧ CutsParts size (body text)

/-- **Reading a colour fails with a cut on the texts that are cut**, and on no others. -/
theorem read_eq_cutCharacter_iff {text : String} : read text = .cutCharacter ↔ Cuts text := by
  rw [read]
  by_cases hshort : byteLength (body text) = 3
  · rw [if_pos hshort, readParts_eq_cutCharacter_iff hshort]
    constructor
    · intro h
      exact ⟨1, .inl rfl, hshort, h⟩
    · intro h
      obtain ⟨size, -, hsize, hcuts⟩ := h
      obtain rfl : size = 1 := by omega
      exact hcuts
  · rw [if_neg hshort]
    by_cases hlong : byteLength (body text) = 6
    · rw [if_pos hlong, readParts_eq_cutCharacter_iff hlong]
      constructor
      · intro h
        exact ⟨2, .inr rfl, hlong, h⟩
      · intro h
        obtain ⟨size, -, hsize, hcuts⟩ := h
        obtain rfl : size = 2 := by omega
        exact hcuts
    · rw [if_neg hlong]
      refine iff_of_false (by simp) ?_
      intro h
      obtain ⟨size, hone | htwo, hsize, -⟩ := h <;> omega

theorem trimBlanks_sublist (text : List Char) : (trimBlanks text).Sublist text := by
  have hend := (List.dropWhile_sublist (l := (text.dropWhile isBlank).reverse) isBlank).reverse
  rw [List.reverse_reverse] at hend
  exact hend.trans (List.dropWhile_sublist isBlank)

theorem body_sublist (text : String) : (body text).Sublist text.toList := by
  rw [body]
  split
  · next rest htrim =>
    refine List.Sublist.trans ?_ (trimBlanks_sublist text.toList)
    rw [htrim]
    exact List.sublist_cons_self _ rest
  · exact trimBlanks_sublist text.toList

/-- A text that is cut holds a character of more than one byte. -/
theorem Cuts.exists_wide {text : String} (h : Cuts text) : ∃ c ∈ text.toList, 1 < c.utf8Size := by
  obtain ⟨size, -, -, hcuts⟩ := h
  obtain ⟨c, hc, hwide⟩ : ∃ c ∈ body text, 1 < c.utf8Size := by
    obtain hinside | ⟨first, rest, htext, -, -, hinside⟩ := hcuts
    · exact hinside.exists_wide
    · obtain ⟨c, hc, hwide⟩ := hinside.exists_wide
      exact ⟨c, htext ▸ List.mem_append_right first hc, hwide⟩
  exact ⟨c, (body_sublist text).subset hc, hwide⟩

end LineChart.Colour
