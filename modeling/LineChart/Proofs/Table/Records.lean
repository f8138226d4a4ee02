import LineChart.Proofs.Json.RoundTrip
import LineChart.Table.Records

/-!
# Tables of JSON records, by name

What is found under a name in a table of records, whatever the order of the fields in their text.

* `Json.find?_sortFields` : sorting distinct fields changes nothing that is found by name.
* `Records.mem_names` : the columns are the names that occur in a record.
* `Records.columns_eq_ok_iff` : the columns of a list of records, which nothing else has.
* `Records.read?_recordsText` : records are read back from their text, their fields sorted.
-/

namespace LineChart

namespace Json

variable {α : Type}

/-- What is found in a list of fields after one of them is set. -/
theorem find?_setField (name : String) (value : α) (other : String) (fields : List (String × α)) :
    (setField name value fields).find? (fun field => field.1 = other) =
      if other = name then some (name, value) else fields.find? fun field => field.1 = other := by
  induction fields with
  | nil =>
    rw [setField]
    by_cases hother : other = name
    · rw [if_pos hother, List.find?_cons_of_pos (by simp [hother])]
    · rw [if_neg hother, List.find?_cons_of_neg (by simpa using Ne.symm hother)]
  | cons field fields ih =>
    rw [setField]
    cases hcompare : compare name field.1 with
    | lt =>
      dsimp only
      by_cases hother : other = name
      · rw [if_pos hother, List.find?_cons_of_pos (by simp [hother])]
      · rw [if_neg hother, List.find?_cons_of_neg (by simpa using Ne.symm hother)]
    | eq =>
      have hname : name = field.1 := compare_eq_iff_eq.1 hcompare
      dsimp only
      by_cases hother : other = name
      · rw [if_pos hother, List.find?_cons_of_pos (by simp [hother])]
      · rw [if_neg hother, List.find?_cons_of_neg (by simpa using Ne.symm hother),
          List.find?_cons_of_neg (by simpa [← hname] using Ne.symm hother)]
    | gt =>
      have hne : name ≠ field.1 := (compare_gt_iff_gt.1 hcompare).ne'
      dsimp only
      by_cases hfield : field.1 = other
      · have hother : other ≠ name := by
          rintro rfl
          exact hne hfield.symm
        rw [if_neg hother, List.find?_cons_of_pos (by simpa using hfield),
          List.find?_cons_of_pos (by simpa using hfield)]
      · rw [List.find?_cons_of_neg (by simpa using hfield), ih,
          List.find?_cons_of_neg (by simpa using hfield)]

/-- **Sorting distinct fields changes nothing that is found by name.** -/
theorem find?_sortFields {fields : List (String × α)} (h : (fields.map Prod.fst).Nodup)
    (name : String) :
    (sortFields fields).find? (fun field => field.1 = name) =
      fields.find? fun field => field.1 = name := by
  have hfold : ∀ (fields done : List (String × α)), (fields.map Prod.fst).Nodup →
      (fields.foldl (fun sorted field => setField field.1 field.2 sorted) done).find?
          (fun field => field.1 = name) =
        (fields.find? fun field => field.1 = name).or (done.find? fun field => field.1 = name) := by
    intro fields
    induction fields with
    | nil => intro done _; rfl
    | cons field fields ih =>
      intro done h
      obtain ⟨hfield, hfields⟩ := List.nodup_cons.1 h
      show (List.foldl _ (setField field.1 field.2 done) fields).find? _ = _
      rw [ih _ hfields, find?_setField]
      by_cases hname : name = field.1
      · have hnone : (fields.find? fun field => field.1 = name) = none := by
          rw [List.find?_eq_none]
          intro other hother hsame
          refine hfield (List.mem_map.2 ⟨other, hother, ?_⟩)
          rw [of_decide_eq_true hsame, hname]
        rw [hnone, if_pos hname, List.find?_cons_of_pos (by simp [hname])]
        rfl
      · rw [if_neg hname, List.find?_cons_of_neg (by simpa using Ne.symm hname)]
  have hsorted := hfold fields [] h
  rw [List.find?_nil, Option.or_none] at hsorted
  exact hsorted

theorem mem_map_fst_iff {fields : List (String × α)} {name : String} :
    name ∈ fields.map Prod.fst ↔ (fields.find? fun field => field.1 = name).isSome = true := by
  rw [List.find?_isSome]
  simp

theorem mem_map_fst_sortFields {fields : List (String × α)} (h : (fields.map Prod.fst).Nodup)
    {name : String} : name ∈ (sortFields fields).map Prod.fst ↔ name ∈ fields.map Prod.fst := by
  rw [mem_map_fst_iff, mem_map_fst_iff, find?_sortFields h]

end Json

namespace Records

/-! ### Names -/

theorem mem_addName {names : List String} {name other : String} :
    other ∈ addName names name ↔ other ∈ names ∨ other = name := by
  rw [addName]
  by_cases hname : name ∈ names
  · rw [if_pos hname]
    constructor
    · exact .inl
    · rintro (hother | rfl)
      · exact hother
      · exact hname
  · rw [if_neg hname, List.mem_append, List.mem_singleton]

theorem mem_foldl_addName {added names : List String} {name : String} :
    name ∈ added.foldl addName names ↔ name ∈ names ∨ name ∈ added := by
  induction added generalizing names with
  | nil => simp
  | cons first added ih => rw [List.foldl_cons, ih, mem_addName, List.mem_cons, or_assoc]

/-- **The columns are the names that occur in a record.** -/
theorem mem_names {records : List Record} {name : String} :
    name ∈ names records ↔ ∃ record ∈ records, name ∈ record.map Prod.fst := by
  have hfold : ∀ (records : List Record) (found : List String),
      name ∈ records.foldl (fun names record => (record.map Prod.fst).foldl addName names) found ↔
        name ∈ found ∨ ∃ record ∈ records, name ∈ record.map Prod.fst := by
    intro records
    induction records with
    | nil => simp
    | cons record records ih =>
      intro found
      rw [List.foldl_cons, ih, mem_foldl_addName, or_assoc, List.exists_mem_cons_iff]
  rw [names, hfold records []]
  simp

/-! ### Columns -/

theorem ofItems_map_record (row : Nat) (records : List Record) :
    ofItems row (records.map Json.record) = .ok records := by
  induction records generalizing row with
  | nil => rfl
  | cons record records ih => rw [List.map_cons, ofItems, ih]

theorem columns_list (records : List Record) :
    columns (.list (records.map Json.record)) =
      .ok ((names records).map fun name => ⟨name, records.map (cellOf name)⟩) := by
  rw [columns, ofItems_map_record]

/-- Items are records only if each of them is one. -/
theorem eq_map_record_of_ofItems {row : Nat} {items : List Json} {records : List Record}
    (h : ofItems row items = .ok records) : items = records.map Json.record := by
  induction items generalizing row records with
  | nil =>
    obtain rfl := Except.ok.inj h
    rfl
  | cons item items ih =>
    cases item with
    | record fields =>
      rw [ofItems] at h
      cases hrest : ofItems (row + 1) items with
      | error e => rw [hrest] at h; cases h
      | ok rest =>
        rw [hrest] at h
        obtain rfl := Except.ok.inj h
        rw [List.map_cons, ih hrest]
    | null | flag | integer | decimal | text | list => cases h

/-- **The columns of a list of records**, which nothing else has. -/
theorem columns_eq_ok_iff {json : Json} {columns : List Column} :
    Records.columns json = .ok columns ↔ ∃ records : List Record,
      json = .list (records.map Json.record) ∧
        columns = (names records).map fun name => ⟨name, records.map (cellOf name)⟩ := by
  constructor
  · intro h
    cases json with
    | list items =>
      rw [Records.columns] at h
      cases hitems : ofItems 0 items with
      | error e => rw [hitems] at h; cases h
      | ok records =>
        rw [hitems] at h
        refine ⟨records, ?_, (Except.ok.inj h).symm⟩
        rw [eq_map_record_of_ofItems hitems]
    | null | flag | integer | decimal | text | record => cases h
  · rintro ⟨records, rfl, rfl⟩
    exact columns_list records

/-- There is no column exactly if no record has a field. -/
theorem names_eq_nil_iff {records : List Record} :
    names records = [] ↔ ∀ record ∈ records, record = [] := by
  rw [List.eq_nil_iff_forall_not_mem]
  constructor
  · intro h record hrecord
    by_contra hne
    obtain ⟨field, rest, rfl⟩ := List.exists_cons_of_ne_nil hne
    exact h field.1 (mem_names.2 ⟨_, hrecord, List.mem_cons_self⟩)
  · intro h name hname
    obtain ⟨record, hrecord, hmem⟩ := mem_names.1 hname
    rw [h record hrecord] at hmem
    cases hmem

theorem cellOf_sortFields {record : Record} (h : (record.map Prod.fst).Nodup) (name : String) :
    cellOf name (Json.sortFields record) = cellOf name record := by
  rw [cellOf, cellOf, Json.find?_sortFields h]

/-! ### Texts -/

/-- The text of some records. -/
def recordsText (records : List Record) : String := (Json.list (records.map Json.record)).render

/-- **Records are read back from their text**, their fields sorted. -/
theorem read?_recordsText {records : List Record}
    (hreadable : ∀ record ∈ records, ∀ field ∈ record, field.2.Readable 0)
    (hvalues : ∀ record ∈ records, ∀ field ∈ record, field.2.document.json? = some field.2) :
    Json.read? (recordsText records) =
      some (.list ((records.map Json.sortFields).map Json.record)) := by
  have htext : (Json.list (records.map Json.record)).Readable 2 := by
    refine .list ?_
    intro item hitem
    obtain ⟨record, hrecord, rfl⟩ := List.mem_map.1 hitem
    exact .record (hreadable record hrecord)
  have hitems : Document.jsonItems? ((records.map Json.record).map Json.document) =
      some ((records.map Json.sortFields).map Json.record) := by
    clear htext hreadable
    induction records with
    | nil => rfl
    | cons record records ih =>
      obtain ⟨hfirst, hrest⟩ := List.forall_mem_cons.1 hvalues
      rw [List.map_cons, List.map_cons, Document.jsonItems?, Json.document_record, Document.json?,
        Json.jsonFields?_map hfirst, ih hrest]
      rfl
  rw [Json.read?, recordsText, Json.readDocument?_render htext (by decide), Option.bind_some,
    Json.document_list, Document.json?, hitems]
  rfl

end Records

end LineChart
