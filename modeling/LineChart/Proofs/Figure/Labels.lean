import LineChart.Figure.Resolution

/-!
# Labels of groups

A group's label is the label of its series with the key in the place of every `{key}`.

* `KeyFilled` : the same said by cutting the text at every mark.
* `keyFilled_fillKey` : filling in a key does this.
* `labelOf_eq_iff` : a label with a mark tells keys apart by their texts.
-/

namespace LineChart

/-- The mark that a key takes the place of. -/
def keyMark : List Char := ['\x7b', 'k', 'e', 'y', '\x7d']

/-- A text that is cut at every mark, and the same pieces with a key between them. No piece holds a
mark, so the pieces are known from the text. -/
def KeyFilled (key text filled : List Char) : Prop :=
  ∃ pieces : List (List Char), pieces ≠ [] ∧ (∀ piece ∈ pieces, ¬ keyMark <:+: piece) ∧
    text = keyMark.intercalate pieces ∧ filled = key.intercalate pieces

theorem KeyFilled.nil (key : List Char) : KeyFilled key [] [] := by
  refine ⟨[[]], by simp, ?_, rfl, rfl⟩
  intro piece hpiece hmark
  rw [List.mem_singleton.1 hpiece] at hmark
  exact absurd (List.infix_nil.1 hmark) (by decide)

/-- A mark in front ends an empty piece. -/
theorem KeyFilled.mark {key text filled : List Char} (h : KeyFilled key text filled) :
    KeyFilled key (keyMark ++ text) (key ++ filled) := by
  obtain ⟨pieces, hne, hpieces, rfl, rfl⟩ := h
  obtain ⟨piece, rest, rfl⟩ := List.exists_cons_of_ne_nil hne
  refine ⟨[] :: piece :: rest, by simp, ?_, ?_, ?_⟩
  · intro p hp hmark
    rcases List.mem_cons.1 hp with rfl | hp
    · exact absurd (List.infix_nil.1 hmark) (by decide)
    · exact hpieces p hp hmark
  · rw [List.intercalate_cons_cons]
    rfl
  · rw [List.intercalate_cons_cons]
    rfl

/-- A character that no mark begins with joins the first piece. -/
theorem KeyFilled.cons {key text filled : List Char} {c : Char} (h : KeyFilled key text filled)
    (hmark : ¬ keyMark <+: c :: text) : KeyFilled key (c :: text) (c :: filled) := by
  obtain ⟨pieces, hne, hpieces, rfl, rfl⟩ := h
  obtain ⟨piece, rest, rfl⟩ := List.exists_cons_of_ne_nil hne
  have hjoin : ∀ sep : List Char,
      sep.intercalate ((c :: piece) :: rest) = c :: sep.intercalate (piece :: rest) := by
    intro sep
    cases rest with
    | nil => simp [List.intercalate]
    | cons p rest =>
      rw [List.intercalate_cons_cons, List.intercalate_cons_cons]
      rfl
  have hprefix : piece <+: keyMark.intercalate (piece :: rest) := by
    cases rest with
    | nil => simp [List.intercalate]
    | cons p rest =>
      rw [List.intercalate_cons_cons, List.append_assoc]
      exact List.prefix_append _ _
  refine ⟨(c :: piece) :: rest, by simp, ?_, (hjoin keyMark).symm, (hjoin key).symm⟩
  intro p hp hin
  rcases List.mem_cons.1 hp with rfl | hp
  · rcases List.infix_cons_iff.1 hin with hstart | hin
    · exact hmark (hstart.trans (List.cons_prefix_cons.2 ⟨rfl, hprefix⟩))
    · exact hpieces piece List.mem_cons_self hin
  · exact hpieces p (List.mem_cons_of_mem piece hp) hin

/-- Where a character is kept, no mark begins. -/
theorem not_mark_of_kept {c : Char} {rest : List Char}
    (hnot : ∀ tail, c = '\x7b' → rest = 'k' :: 'e' :: 'y' :: '\x7d' :: tail → False) :
    ¬ keyMark <+: c :: rest := by
  intro hstart
  obtain ⟨tail, htail⟩ := hstart
  obtain ⟨hc, hrest⟩ := List.cons.inj htail
  exact hnot tail hc.symm hrest.symm

/-- **Every mark of a text, and nothing else of it, gives way to the key.** -/
theorem keyFilled_fillKey (key text : List Char) : KeyFilled key text (fillKey key text) := by
  fun_induction fillKey key text with
  | case1 rest ih => exact ih.mark
  | case2 c rest hnot ih => exact ih.cons (not_mark_of_kept hnot)
  | case3 => exact .nil key

theorem keyFilled_labelOf (s : SeriesDescription) (key : Cell) :
    KeyFilled key.display.toList s.label.toList (s.labelOf key).toList := by
  rw [SeriesDescription.labelOf, String.toList_ofList]
  exact keyFilled_fillKey _ _

/-! ### Keys told apart -/

/-- Filling in a key makes a text longer by the key at every mark. -/
theorem length_fillKey (text : List Char) : ∃ rest marks, (keyMark <:+: text → 0 < marks) ∧
    ∀ key, (fillKey key text).length = rest + marks * key.length := by
  -- the cases are those of the text, whatever key is filled in
  fun_induction fillKey [] text with
  | case1 text ih =>
    obtain ⟨rest, marks, -, hlength⟩ := ih
    refine ⟨rest, marks + 1, fun _ => Nat.succ_pos marks, ?_⟩
    intro key
    rw [fillKey, List.length_append, hlength, Nat.succ_mul]
    omega
  | case2 c text hnot ih =>
    obtain ⟨rest, marks, hmarks, hlength⟩ := ih
    refine ⟨rest + 1, marks, ?_, ?_⟩
    · intro hmark
      exact hmarks ((List.infix_cons_iff.1 hmark).resolve_left (not_mark_of_kept hnot))
    · intro key
      rw [fillKey, List.length_cons, hlength]
      · omega
      · exact hnot
  | case3 =>
    refine ⟨0, 0, ?_, fun key => by rw [fillKey, Nat.zero_mul, List.length_nil]⟩
    intro hmark
    exact absurd (List.infix_nil.1 hmark) (by decide)

/-- Keys of one length that give one text are the same. -/
theorem eq_of_fillKey_eq {j k text : List Char} (hlength : j.length = k.length)
    (hmark : keyMark <:+: text) (h : fillKey j text = fillKey k text) : j = k := by
  fun_induction fillKey j text with
  | case1 text ih => exact (List.append_inj h hlength).1
  | case2 c text hnot ih =>
    rw [fillKey] at h
    · exact ih ((List.infix_cons_iff.1 hmark).resolve_left (not_mark_of_kept hnot))
        (List.cons.inj h).2
    · exact hnot
  | case3 => exact absurd (List.infix_nil.1 hmark) (by decide)

/-- **A label with a mark tells the texts of keys apart.** -/
theorem labelOf_eq_iff {s : SeriesDescription} (hmark : keyMark <:+: s.label.toList) {j k : Cell} :
    s.labelOf j = s.labelOf k ↔ j.display = k.display := by
  constructor
  · intro h
    have hfilled : fillKey j.display.toList s.label.toList =
        fillKey k.display.toList s.label.toList := String.ofList_injective h
    obtain ⟨rest, marks, hmarks, hlength⟩ := length_fillKey s.label.toList
    have hlengths := congrArg List.length hfilled
    rw [hlength, hlength, Nat.add_left_cancel_iff] at hlengths
    exact String.toList_injective
      (eq_of_fillKey_eq (Nat.eq_of_mul_eq_mul_left (hmarks hmark) hlengths) hmark hfilled)
  · intro h
    rw [SeriesDescription.labelOf, SeriesDescription.labelOf, h]

end LineChart
