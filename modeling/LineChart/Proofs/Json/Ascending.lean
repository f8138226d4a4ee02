import LineChart.Proofs.Json.RoundTrip
import LineChart.Proofs.Number.Order

/-!
# The order of fields

The fields of a record that is read from a text ascend by their names, whatever order they have in
the text. So no name occurs twice in one. This is one of the properties that a value inherits from its
parts; that it holds no NaN is another one.

* `Json.ascendingFields_sortFields` : sorted fields ascend.
* `Json.Inherited.of_json?` : a value that a document stands for has every inherited property.
* `Json.ascending_of_read?` : a value that is read from a text has ascending records.
* `Json.read?_render` : every value with ascending records is read from its text.
-/

namespace LineChart

namespace Json

variable {α : Type}

/-- The fields ascend by their names. -/
def AscendingFields (fields : List (String × α)) : Prop := fields.Pairwise fun a b => a.1 < b.1

theorem AscendingFields.nodup {fields : List (String × α)} (h : AscendingFields fields) :
    (fields.map Prod.fst).Nodup := by
  rw [List.Nodup, List.pairwise_map]
  exact h.imp fun hlt => ne_of_lt hlt

/-! ### Sorting -/

/-- The fields with one of them set: that one and some of those before. -/
theorem mem_setField {name : String} {value : α} {fields : List (String × α)}
    {field : String × α} (h : field ∈ setField name value fields) :
    field = (name, value) ∨ field ∈ fields := by
  induction fields with
  | nil => exact .inl (List.mem_singleton.1 h)
  | cons first fields ih =>
    rw [setField] at h
    cases hcompare : compare name first.1 with
    | lt =>
      rw [hcompare] at h
      exact List.mem_cons.1 h
    | eq =>
      rw [hcompare] at h
      exact (List.mem_cons.1 h).imp_right (List.mem_cons_of_mem _)
    | gt =>
      rw [hcompare] at h
      rcases List.mem_cons.1 h with rfl | hmem
      · exact .inr List.mem_cons_self
      · exact (ih hmem).imp_right (List.mem_cons_of_mem _)

/-- Ascending fields still ascend with one of them set. -/
theorem AscendingFields.setField {fields : List (String × α)} (h : AscendingFields fields)
    (name : String) (value : α) : AscendingFields (setField name value fields) := by
  induction fields with
  | nil => exact List.pairwise_singleton _ _
  | cons first fields ih =>
    obtain ⟨hfirst, hfields⟩ := List.pairwise_cons.1 h
    rw [Json.setField]
    cases hcompare : compare name first.1 with
    | lt =>
      have hlt : name < first.1 := compare_lt_iff_lt.1 hcompare
      refine List.pairwise_cons.2 ⟨?_, h⟩
      intro other hother
      rcases List.mem_cons.1 hother with rfl | hmem
      · exact hlt
      · exact hlt.trans (hfirst other hmem)
    | eq =>
      have heq : name = first.1 := compare_eq_iff_eq.1 hcompare
      refine List.pairwise_cons.2 ⟨?_, hfields⟩
      intro other hother
      rw [heq]
      exact hfirst other hother
    | gt =>
      have hgt : first.1 < name := compare_gt_iff_gt.1 hcompare
      refine List.pairwise_cons.2 ⟨?_, ih hfields⟩
      intro other hother
      rcases mem_setField hother with rfl | hmem
      · exact hgt
      · exact hfirst other hmem

/-- **Sorted fields ascend**, and each of them is one of the fields. -/
theorem ascendingFields_sortFields (fields : List (String × α)) :
    AscendingFields (sortFields fields) ∧ ∀ field ∈ sortFields fields, field ∈ fields := by
  have hfold : ∀ (fields sorted : List (String × α)), AscendingFields sorted →
      AscendingFields (fields.foldl (fun sorted field => Json.setField field.1 field.2 sorted) sorted) ∧
        ∀ field ∈ fields.foldl (fun sorted field => Json.setField field.1 field.2 sorted) sorted,
          field ∈ sorted ∨ field ∈ fields := by
    intro fields
    induction fields with
    | nil => exact fun sorted hsorted => ⟨hsorted, fun field hfield => .inl hfield⟩
    | cons first fields ih =>
      intro sorted hsorted
      obtain ⟨hascending, hmem⟩ := ih _ (hsorted.setField first.1 first.2)
      refine ⟨hascending, ?_⟩
      intro field hfield
      rcases hmem field hfield with hset | hrest
      · rcases mem_setField hset with rfl | hold
        · exact .inr List.mem_cons_self
        · exact .inl hold
      · exact .inr (List.mem_cons_of_mem _ hrest)
  obtain ⟨hascending, hmem⟩ := hfold fields [] List.Pairwise.nil
  exact ⟨hascending, fun field hfield => (hmem field hfield).resolve_left List.not_mem_nil⟩

/-! ### Reading -/

/-- A property that is handed on from the parts of a value to the value, where the fields of a record
ascend and a decimal is finite or stands for an integer. -/
structure Inherited (P : Json → Prop) : Prop where
  null : P .null
  flag (b : Bool) : P (.flag b)
  integer (n : JsonInteger) : P (.integer n)
  rounded (n : Int) : P (.decimal (.ofInt n))
  decimal {x : Double} (h : x.isFinite = true) : P (.decimal x)
  text (s : String) : P (.text s)
  list {items : List Json} (h : ∀ item ∈ items, P item) : P (.list items)
  record {fields : List (String × Json)} (hnames : AscendingFields fields)
    (h : ∀ field ∈ fields, P field.2) : P (.record fields)

variable {P : Json → Prop}

mutual

/-- **A value that a document stands for has every inherited property.** -/
theorem Inherited.of_json? (hP : Inherited P) : ∀ {document : Document} {json : Json},
    document.json? = some json → P json
  | .null, _, h => Option.some.inj h ▸ hP.null
  | .flag b, _, h => Option.some.inj h ▸ hP.flag b
  | .integer n, _, h => by
    rw [Document.json?, Json.ofInt] at h
    rw [← Option.some.inj h]
    split
    · exact hP.integer _
    · exact hP.rounded n
  | .decimal x, _, h => by
    rw [Document.json?] at h
    rw [← Option.some.inj h]
    split
    · exact hP.decimal ‹_›
    · exact hP.null
  | .text s, _, h => Option.some.inj h ▸ hP.text s
  | .moment s, _, h => by
    rw [Document.json?] at h
    rw [← Option.some.inj h]
    refine hP.record (List.pairwise_singleton _ _) ?_
    intro field hfield
    rw [List.mem_singleton.1 hfield]
    exact hP.text s
  | .list documents, _, h => by
    rw [Document.json?] at h
    obtain ⟨items, hitems, rfl⟩ := Option.map_eq_some_iff.1 h
    exact hP.list (hP.of_jsonItems? hitems)
  | .record entries, _, h => by
    rw [Document.json?] at h
    obtain ⟨fields, hfields, rfl⟩ := Option.map_eq_some_iff.1 h
    obtain ⟨hascending, hmem⟩ := ascendingFields_sortFields fields
    refine hP.record hascending ?_
    intro field hfield
    exact hP.of_jsonFields? hfields field (hmem field hfield)
  | .unreadable, _, h => nomatch h

theorem Inherited.of_jsonItems? (hP : Inherited P) : ∀ {documents : List Document}
    {items : List Json}, Document.jsonItems? documents = some items → ∀ item ∈ items, P item
  | [], _, h => by
    rw [Document.jsonItems?] at h
    rw [← Option.some.inj h]
    simp
  | document :: documents, _, h => by
    rw [Document.jsonItems?] at h
    cases hfirst : document.json? with
    | none => rw [hfirst] at h; cases h
    | some item =>
      cases hrest : Document.jsonItems? documents with
      | none => rw [hfirst, hrest] at h; cases h
      | some rest =>
        rw [hfirst, hrest] at h
        rw [← Option.some.inj h]
        exact List.forall_mem_cons.2 ⟨hP.of_json? hfirst, hP.of_jsonItems? hrest⟩

theorem Inherited.of_jsonFields? (hP : Inherited P) : ∀ {entries : List (String × Document)}
    {fields : List (String × Json)}, Document.jsonFields? entries = some fields →
      ∀ field ∈ fields, P field.2
  | [], _, h => by
    rw [Document.jsonFields?] at h
    rw [← Option.some.inj h]
    simp
  | (name, document) :: entries, _, h => by
    rw [Document.jsonFields?] at h
    cases hfirst : document.json? with
    | none => rw [hfirst] at h; cases h
    | some value =>
      cases hrest : Document.jsonFields? entries with
      | none => rw [hfirst, hrest] at h; cases h
      | some rest =>
        rw [hfirst, hrest] at h
        rw [← Option.some.inj h]
        exact List.forall_mem_cons.2 ⟨hP.of_json? hfirst, hP.of_jsonFields? hrest⟩

end

/-- So has a value that is read from a text. -/
theorem Inherited.of_read? (hP : Inherited P) {text : String} {json : Json}
    (h : read? text = some json) : P json := by
  obtain ⟨document, -, hjson⟩ := Option.bind_eq_some_iff.1 h
  exact hP.of_json? hjson

theorem inherited_ascending : Inherited Ascending :=
  ⟨.null, .flag, .integer, fun _ => .decimal _, fun _ => .decimal _, .text, .list, .record⟩

/-- No document stands for NaN. -/
theorem inherited_isNaN : Inherited (DecimalsAre fun x => x.isNaN = false) where
  null := .null
  flag := .flag
  integer := .integer
  rounded _ := .decimal (Binary.isNaN_ofUnits false _)
  decimal h := .decimal (Binary.isNaN_of_isFinite h)
  text := .text
  list := .list
  record _ h := .record h

/-- **A value that is read from a text has ascending records.** -/
theorem ascending_of_read? {text : String} {json : Json} (h : read? text = some json) :
    json.Ascending :=
  inherited_ascending.of_read? h

/-- The records in a list that is read from a text have ascending fields. -/
theorem ascendingFields_of_read? {text : String} {items : List Json}
    (h : read? text = some (.list items)) {fields : List (String × Json)}
    (hfields : .record fields ∈ items) : AscendingFields fields := by
  cases ascending_of_read? h with
  | list hitems =>
    cases hitems _ hfields with
    | record hnames _ => exact hnames

/-- **A value with ascending records is read from its text**, within the limit of nesting. -/
theorem read?_render {levels : Nat} {json : Json} (hascending : json.Ascending)
    (hreadable : json.Readable levels) (hlevels : levels < Form.nestingLimit) :
    read? json.render = some json := by
  have hfinite := hreadable.decimals.imp fun x hx => hx.isFinite
  rw [read?, readDocument?_render hreadable hlevels, Option.bind_some,
    json?_document hascending hfinite]

end Json

end LineChart
