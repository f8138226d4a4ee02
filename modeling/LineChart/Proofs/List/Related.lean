import Mathlib.Data.List.Forall2

/-!
# Lists related entry by entry

* `exists_forall₂` : entries that are each related to something make a list related to a list.
* `map_eq_map_of_forall₂` : what agrees for related entries agrees for related lists.
* `forall_mem_iff_of_forall₂` : what is equivalent for related entries is so for all of them.
* `countP_eq_countP_of_forall₂` : tests that agree on related entries are passed as often.
-/

namespace LineChart

variable {α β γ : Type} {as : List α} {bs : List β}

/-- If every item of a list is related to something, the list is related to a list. -/
theorem exists_forall₂ {r : α → β → Prop} (h : ∀ a ∈ as, ∃ b, r a b) :
    ∃ bs, List.Forall₂ r as bs := by
  induction as with
  | nil => exact ⟨[], .nil⟩
  | cons a as ih =>
    obtain ⟨⟨b, hb⟩, has⟩ := List.forall_mem_cons.1 h
    obtain ⟨bs, hbs⟩ := ih has
    exact ⟨b :: bs, .cons hb hbs⟩

theorem map_eq_map_of_forall₂ {f : β → γ} {g : α → γ}
    (h : List.Forall₂ (fun a b => f b = g a) as bs) : bs.map f = as.map g := by
  induction h with
  | nil => rfl
  | cons hfirst _ ih => rw [List.map_cons, List.map_cons, hfirst, ih]

/-- What is equivalent for related entries is equivalent for all entries of related lists. -/
theorem forall_mem_iff_of_forall₂ {P : α → Prop} {Q : β → Prop}
    (h : List.Forall₂ (fun a b => Q b ↔ P a) as bs) :
    (∀ b ∈ bs, Q b) ↔ ∀ a ∈ as, P a := by
  induction h with
  | nil => simp
  | cons hab _ ih => rw [List.forall_mem_cons, List.forall_mem_cons, hab, ih]

/-- Tests that agree on related entries are passed by as many entries of related lists. -/
theorem countP_eq_countP_of_forall₂ {p : α → Bool} {q : β → Bool}
    (h : List.Forall₂ (fun a b => p a = q b) as bs) : as.countP p = bs.countP q := by
  induction h with
  | nil => rfl
  | cons hab _ ih => rw [List.countP_cons, List.countP_cons, hab, ih]

end LineChart
