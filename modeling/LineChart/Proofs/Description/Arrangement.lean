import LineChart.Proofs.Description.Codec

/-!
# Arrangements of fields

The fields of a record are found by their names, so their order does not matter, and neither do fields of
other names. A field may have several contents for one value: nothing if the value is the one that is taken by
default, and nothing or null if the value is absent.

* `Arranged` : fields that have the contents of some slots.
* `fields?_arranged` : they are read as these contents, within a limit of nesting.
* `Defaulted`, `Optional` : the contents that a field may have, nothing among them.
* `Defaulted.withDefault`, `Optional.optional` : they are read as the value.
-/

namespace LineChart

/-! ### Fields in any order -/

section

variable {fields fields' : List (String × Document)} {name : String} {names : List String}

theorem fieldOf?_perm (h : fields.Perm fields') (name : String) :
    fieldOf? fields name = fieldOf? fields' name := by
  have hfilter := h.filter fun field => decide (field.1 = name)
  rw [fieldOf?, fieldOf?]
  generalize fields.filter (fun field => decide (field.1 = name)) = found at hfilter ⊢
  cases found with
  | nil => rw [List.nil_perm.1 hfilter]
  | cons field found =>
    cases found with
    | nil => rw [List.singleton_perm.1 hfilter]
    | cons second rest =>
      -- a field that is given more than once is so in any order
      generalize fields'.filter (fun field => decide (field.1 = name)) = found' at hfilter ⊢
      have hlength := hfilter.length_eq
      rcases found' with _ | ⟨first', _ | ⟨second', rest'⟩⟩
      · cases hlength
      · cases hlength
      · rfl

theorem fieldsOf?_congr (h : ∀ name ∈ names, fieldOf? fields name = fieldOf? fields' name) :
    fieldsOf? fields names = fieldsOf? fields' names := by
  induction names with
  | nil => rfl
  | cons name names ih =>
    obtain ⟨hfirst, hrest⟩ := List.forall_mem_cons.1 h
    rw [fieldsOf?, fieldsOf?, hfirst, ih hrest]

/-- Fields of other names are passed over. -/
theorem fieldOf?_append {unknown : List (String × Document)}
    (h : ∀ field ∈ unknown, field.1 ≠ name) :
    fieldOf? (fields ++ unknown) name = fieldOf? fields name := by
  have hnone : unknown.filter (fun field => decide (field.1 = name)) = [] :=
    List.filter_eq_nil_iff.2 fun field hfield => by simpa using h field hfield
  rw [fieldOf?, fieldOf?, List.filter_append, hnone, List.append_nil]

/-- The values that are read for some names are the only ones of their fields. -/
theorem forall₂_of_fieldsOf? {values : List (Option Document)}
    (h : fieldsOf? fields names = some values) :
    List.Forall₂ (fun name value => fieldOf? fields name = some value) names values := by
  induction names generalizing values with
  | nil =>
    obtain rfl := Option.some.inj h
    exact .nil
  | cons name names ih =>
    rw [fieldsOf?] at h
    split at h
    · next hvalue hvalues =>
      obtain rfl := Option.some.inj h
      exact .cons hvalue (ih hvalues)
    · cases h

/-- The only value of a field is the one that it has. -/
theorem eq_of_fieldOf? {value : Document} {content : Option Document}
    (h : fieldOf? fields name = some content) (hmem : (name, value) ∈ fields) :
    content = some value := by
  have hfound : (name, value) ∈ fields.filter (fun field => decide (field.1 = name)) :=
    List.mem_filter.2 ⟨hmem, decide_eq_true rfl⟩
  rw [fieldOf?] at h
  generalize fields.filter (fun field => decide (field.1 = name)) = found at h hfound
  rcases found with _ | ⟨field, _ | ⟨second, rest⟩⟩
  · cases hfound
  · obtain rfl := List.mem_singleton.1 hfound
    exact (Option.some.inj h).symm
  · cases h

end

/-- Some fields, in any order, have the contents of some slots. Fields of other names are added. -/
def Arranged {α : Type} (slots : List (String × Option α)) (fields : List (String × α)) : Prop :=
  ∃ unknown, fields.Perm (present slots ++ unknown) ∧
    ∀ field ∈ unknown, field.1 ∉ slots.map Prod.fst

theorem arranged_present {α : Type} (slots : List (String × Option α)) :
    Arranged slots (present slots) := by
  refine ⟨[], ?_, by simp⟩
  rw [List.append_nil]

theorem Arranged.map {α β : Type} {slots : List (String × Option α)} {fields : List (String × α)}
    (h : Arranged slots fields) (f : α → β) :
    Arranged (slots.map fun slot => (slot.1, slot.2.map f))
      (fields.map fun field => (field.1, f field.2)) := by
  obtain ⟨unknown, hperm, hunknown⟩ := h
  refine ⟨unknown.map fun field => (field.1, f field.2), ?_, ?_⟩
  · rw [← map_present, ← List.map_append]
    exact hperm.map _
  · rw [List.forall_mem_map, List.map_map]
    exact hunknown

/-- **Arranged fields are read as the contents of their slots.** -/
theorem Arranged.fieldsOf? {slots : List (String × Option Document)}
    {fields : List (String × Document)} (h : Arranged slots fields)
    (hnodup : (slots.map Prod.fst).Nodup) :
    LineChart.fieldsOf? fields (slots.map Prod.fst) = some (slots.map Prod.snd) := by
  obtain ⟨unknown, hperm, hunknown⟩ := h
  have hother : ∀ name ∈ slots.map Prod.fst, ∀ field ∈ unknown, field.1 ≠ name := by
    rintro name hname field hfield rfl
    exact hunknown field hfield hname
  rw [fieldsOf?_congr fun name hname =>
    (fieldOf?_perm hperm name).trans (fieldOf?_append (hother name hname)), fieldsOf?_present hnodup]

/-- The fields may stand the other way round. -/
theorem arranged_reverse {α : Type} {slots : List (String × Option α)} {fields : List (String × α)}
    (unknown : List (String × α)) (h : fields = (present slots ++ unknown).reverse)
    (hunknown : ∀ field ∈ unknown, field.1 ∉ slots.map Prod.fst) : Arranged slots fields := by
  subst h
  exact ⟨unknown, List.reverse_perm _, hunknown⟩

/-! ### Records within a limit of nesting -/

section

variable {levels : Nat} {fields : List (String × Json)} {names : List String}

/-- The fields of a record within a limit of nesting. -/
def fieldsWithin (levels : Nat) (fields : List (String × Json)) : List (String × Document) :=
  fields.map fun field => (field.1, field.2.documentWithin levels)

theorem fields?_documentWithin (levels : Nat) (fields : List (String × Json)) (names : List String) :
    ((Json.record fields).documentWithin (levels + 2)).fields? .json names =
      fieldsOf? (fieldsWithin (levels + 1) fields) names := by
  rw [Json.documentWithin]
  rfl

theorem fields?_arranged {slots : List (String × Option Json)} (h : Arranged slots fields)
    (hnames : slots.map Prod.fst = names) (hnodup : names.Nodup) :
    ((Json.record fields).documentWithin (levels + 2)).fields? .json names =
      some (slots.map fun slot => slot.2.map (Json.documentWithin (levels + 1))) := by
  have hnames' : (slots.map fun slot =>
      (slot.1, slot.2.map (Json.documentWithin (levels + 1)))).map Prod.fst = names := by
    rw [List.map_map]
    exact hnames
  have hread := (h.map (Json.documentWithin (levels + 1))).fieldsOf? (by rwa [hnames'])
  rw [hnames', List.map_map] at hread
  rw [fields?_documentWithin]
  exact hread

/-- A field that is left out is read as nothing. -/
theorem eq_none_of_fieldOf? {name : String} {content : Option Document}
    (h : fieldOf? (fieldsWithin levels fields) name = some content)
    (hleft : name ∉ fields.map Prod.fst) : content = none := by
  have hnone : (fieldsWithin levels fields).filter (fun field => decide (field.1 = name)) = [] := by
    refine List.filter_eq_nil_iff.2 fun field hfield hsame => hleft ?_
    obtain ⟨source, hsource, rfl⟩ := List.mem_map.1 hfield
    exact List.mem_map.2 ⟨source, hsource, of_decide_eq_true hsame⟩
  rw [fieldOf?, hnone] at h
  exact (Option.some.inj h).symm

/-- A field that is there is read as its value. -/
theorem eq_of_fieldOf?_fieldsWithin {name : String} {value : Json} {content : Option Document}
    (h : fieldOf? (fieldsWithin levels fields) name = some content) (hmem : (name, value) ∈ fields) :
    content = some (value.documentWithin levels) :=
  eq_of_fieldOf? h (List.mem_map.2 ⟨_, hmem, rfl⟩)

end

/-! ### Contents of a field -/

/-- The contents of a field that may be left out if its value is the default. -/
inductive Defaulted {α : Type} (default : α) (write : α → Json) : α → Option Json → Prop
  | given (a : α) : Defaulted default write a (some (write a))
  | leftOut : Defaulted default write default none

/-- The contents of a field whose value may be absent. It is then left out, or null. -/
inductive Optional {α : Type} (Shows : α → Json → Prop) : Option α → Option Json → Prop
  | given {a : α} {j : Json} (h : Shows a j) : Optional Shows (some a) (some j)
  | leftOut : Optional Shows none none
  | null : Optional Shows none (some .null)

theorem optional_map {α : Type} {Shows : α → Json → Prop} {write : α → Json}
    (h : ∀ a, Shows a (write a)) (value : Option α) : Optional Shows value (value.map write) := by
  cases value with
  | none => exact .leftOut
  | some a => exact .given (h a)

theorem optional_write {α : Type} (write : α → Json) (value : Option α) :
    Optional (fun a j => j = write a) value (value.map write) := by
  refine optional_map ?_ value
  exact fun _ => rfl

section

variable {α : Type} {levels : Nat} {read : Document → Option α} {content : Option Json}

theorem Document.required_text (levels : Nat) (s : String) :
    required text? ((some (Json.text s)).map (Json.documentWithin levels)) = some s := by
  rw [Option.map_some, Json.documentWithin]
  rfl

theorem Defaulted.withDefault {default a : α} {write : α → Json}
    (h : Defaulted default write a content)
    (hread : read ((write a).documentWithin levels) = some a) :
    Document.withDefault default read (content.map (Json.documentWithin levels)) = some a := by
  cases h with
  | given => exact hread
  | leftOut => rfl

/-- A value that is not null has to be read. -/
theorem Document.optional_eq_none {d : Document} (hread : read d = none) (hnull : d ≠ .null) :
    optional read (some d) = none := by
  rw [optional, hread, Option.map_none]
  exact hnull

theorem Optional.optional {Shows : α → Json → Prop} {value : Option α}
    (h : Optional Shows value content)
    (hread : ∀ a ∈ value, ∀ j, Shows a j → read (j.documentWithin levels) = some a)
    (hnull : ∀ a j, Shows a j → j.documentWithin levels ≠ .null) :
    Document.optional read (content.map (Json.documentWithin levels)) = some value := by
  cases h with
  | @given a j h =>
    rw [Option.map_some, Document.optional, hread a rfl j h, Option.map_some]
    exact hnull a j h
  | leftOut => rfl
  | null =>
    rw [Option.map_some, Json.documentWithin]
    rfl

end

theorem Optional.text {levels : Nat} {value : Option String} {content : Option Json}
    (h : Optional (fun s j => j = .text s) value content) :
    Document.optional Document.text? (content.map (Json.documentWithin levels)) = some value := by
  refine h.optional ?_ ?_
  · rintro s - j rfl
    rw [Json.documentWithin]
    rfl
  · rintro s j rfl
    simp [Json.documentWithin]

end LineChart
