import LineChart.Proofs.Json.Reading
import LineChart.Proofs.List.Related
import Mathlib.Data.String.Basic
import Mathlib.Order.Compare

/-!
# Reading what was written

A value is read back from its text if its decimals are read back from theirs and its nesting keeps
within the limit. No assumption is made about its texts: escapes are undone exactly.

* `Json.document` : a value as a document, and `Json.documentWithin` with a limit of nesting.
* `Json.DecimalsAre.exists_form` : a value's text is read as a form that stands for its document.
* `Json.readDocument?_render` : so the text is read as the document, within the limit of nesting.
* `Json.json?_document` : the document of a value with ascending records is that value.
* `Json.same_self` : a value is the same as itself.
-/

namespace LineChart

/-- A finite number that the reader takes for itself where it is written in a JSON text. -/
structure Double.Portable (x : Double) : Prop where
  isFinite : x.isFinite = true
  readDocument : Json.readDocument? (.ofList x.jsonText) = some (.decimal x)

namespace Json

/-! ### Predicates -/

/-- The decimals in a value have a property. -/
inductive DecimalsAre (p : Double → Prop) : Json → Prop
  | null : DecimalsAre p .null
  | flag (b : Bool) : DecimalsAre p (.flag b)
  | integer (n : JsonInteger) : DecimalsAre p (.integer n)
  | decimal {x : Double} (h : p x) : DecimalsAre p (.decimal x)
  | text (s : String) : DecimalsAre p (.text s)
  | list {items : List Json} (h : ∀ item ∈ items, DecimalsAre p item) : DecimalsAre p (.list items)
  | record {fields : List (String × Json)} (h : ∀ field ∈ fields, DecimalsAre p field.2) :
    DecimalsAre p (.record fields)

theorem DecimalsAre.imp {p q : Double → Prop} {j : Json} (h : j.DecimalsAre p)
    (himp : ∀ x, p x → q x) : j.DecimalsAre q := by
  induction h with
  | null => exact .null
  | flag b => exact .flag b
  | integer n => exact .integer n
  | decimal h => exact .decimal (himp _ h)
  | text s => exact .text s
  | list _ ih => exact .list ih
  | record _ ih => exact .record ih

/-- The records in a value have their fields in ascending order of their names. -/
inductive Ascending : Json → Prop
  | null : Ascending .null
  | flag (b : Bool) : Ascending (.flag b)
  | integer (n : JsonInteger) : Ascending (.integer n)
  | decimal (x : Double) : Ascending (.decimal x)
  | text (s : String) : Ascending (.text s)
  | list {items : List Json} (h : ∀ item ∈ items, Ascending item) : Ascending (.list items)
  | record {fields : List (String × Json)} (hnames : fields.Pairwise fun a b => a.1 < b.1)
    (h : ∀ field ∈ fields, Ascending field.2) : Ascending (.record fields)

/-! ### Writing, by parts -/

theorem writeItems_eq (items : List Json) :
    writeItems items = Form.itemsText (items.map write) := by
  induction items with
  | nil => rfl
  | cons item items ih =>
    rw [writeItems, ih]
    simp [Form.itemsText]

theorem write_list (items : List Json) : (list items).write = Form.listText (items.map write) := by
  cases items with
  | nil => rfl
  | cons item items =>
    rw [write, writeItems_eq, List.append_assoc]
    rfl

theorem writeFields_eq (fields : List (String × Json)) :
    writeFields fields =
      Form.itemsText (fields.map fun field => Form.fieldText field.1 field.2.write) := by
  induction fields with
  | nil => rfl
  | cons field fields ih =>
    rw [writeFields, ih]
    simp [Form.itemsText, Form.fieldText]

theorem write_record (fields : List (String × Json)) :
    (record fields).write = Form.recordText (fields.map fun field => (field.1, field.2.write)) := by
  cases fields with
  | nil => rfl
  | cons field fields =>
    rw [write, writeFields_eq, List.map_cons, Form.recordText, List.map_map]
    simp [Form.fieldText, Function.comp_def]

/-! ### Documents -/

mutual

/-- A value as a document. -/
def document : Json → Document
  | .null => .null
  | .flag b => .flag b
  | .integer n => .integer n.value
  | .decimal x => .decimal x
  | .text s => .text s
  | .list items => .list (documentItems items)
  | .record fields => .record (documentFields fields)

def documentItems : List Json → List Document
  | [] => []
  | item :: rest => document item :: documentItems rest

def documentFields : List (String × Json) → List (String × Document)
  | [] => []
  | (name, value) :: rest => (name, document value) :: documentFields rest

end

theorem document_list (items : List Json) : (list items).document = .list (items.map document) := by
  have h : ∀ items, documentItems items = items.map document := by
    intro items
    induction items with
    | nil => rfl
    | cons item items ih => rw [documentItems, ih, List.map_cons]
  rw [document, h]

theorem document_record (fields : List (String × Json)) :
    (record fields).document = .record (fields.map fun field => (field.1, field.2.document)) := by
  have h : ∀ fields : List (String × Json),
      documentFields fields = fields.map fun field => (field.1, field.2.document) := by
    intro fields
    induction fields with
    | nil => rfl
    | cons field fields ih => rw [documentFields, ih, List.map_cons]
  rw [document, h]

theorem depth_le_of_mem_items {items : List Json} {item : Json} (h : item ∈ items) :
    item.depth ≤ depthItems items := by
  induction items with
  | nil => cases h
  | cons first items ih =>
    rw [depthItems]
    rcases List.mem_cons.1 h with rfl | hmem
    · exact Nat.le_max_left _ _
    · exact Nat.le_trans (ih hmem) (Nat.le_max_right _ _)

theorem depth_le_of_mem_fields {fields : List (String × Json)} {field : String × Json}
    (h : field ∈ fields) : field.2.depth ≤ depthFields fields := by
  induction fields with
  | nil => cases h
  | cons first fields ih =>
    rw [depthFields]
    rcases List.mem_cons.1 h with rfl | hmem
    · exact Nat.le_max_left _ _
    · exact Nat.le_trans (ih hmem) (Nat.le_max_right _ _)

/-- A value as a document in which what is nested too deeply is marked as unreadable. -/
def documentWithin : Nat → Json → Document
  | _, .null => .null
  | _, .flag b => .flag b
  | _, .integer n => .integer n.value
  | _, .decimal x => .decimal x
  | _, .text s => .text s
  | levels + 2, .list items => .list (items.map (documentWithin (levels + 1)))
  | levels + 2, .record fields =>
    .record (fields.map fun field => (field.1, documentWithin (levels + 1) field.2))
  | _, .list _ => .unreadable
  | _, .record _ => .unreadable

/-- Within more levels than a value is deep, all of it is readable. -/
theorem documentWithin_eq {levels : Nat} {j : Json} (h : j.depth < levels) :
    j.documentWithin levels = j.document := by
  induction levels generalizing j with
  | zero => exact absurd h (Nat.not_lt_zero _)
  | succ levels ih =>
    cases j with
    | null | flag | integer | decimal | text => rw [documentWithin, document]
    | list items =>
      rw [depth] at h
      obtain ⟨levels, rfl⟩ : ∃ rest, levels = rest + 1 := ⟨levels - 1, by omega⟩
      rw [documentWithin, document_list]
      refine congrArg _ (List.map_congr_left fun item hitem => ih ?_)
      exact Nat.lt_of_le_of_lt (depth_le_of_mem_items hitem) (by omega)
    | record fields =>
      rw [depth] at h
      obtain ⟨levels, rfl⟩ : ∃ rest, levels = rest + 1 := ⟨levels - 1, by omega⟩
      rw [documentWithin, document_record]
      refine congrArg _ (List.map_congr_left fun field hfield => ?_)
      rw [ih (Nat.lt_of_le_of_lt (depth_le_of_mem_fields hfield) (by omega))]

/-! ### The form of a value's text -/

/-- An integer of sixty-four bits is the value of its numeral. -/
theorem value?_ofInt (n : JsonInteger) :
    (Numeral.ofInt n.value).value? = some (.integer n.value) := by
  obtain ⟨value, hlow, hhigh⟩ := n
  have hmin : Int64.minValue.toInt = -2 ^ 63 := by decide
  have hsize : UInt64.size = 2 ^ 64 := rfl
  rw [hmin] at hlow
  rw [hsize] at hhigh
  have hfits : value.natAbs < UInt64.size := by omega
  rw [Numeral.value?, Numeral.ofInt]
  simp only [digitsValue_toDigits, true_and]
  rw [if_pos hfits]
  by_cases hneg : value < 0
  · have hvalue : -(value.natAbs : Int) = value := by omega
    rw [if_neg (by simpa using hneg), hvalue, hmin, if_pos (by omega)]
  · have hvalue : (value.natAbs : Int) = value := by omega
    rw [if_pos (by simpa using hneg), hvalue]

/-- What stands for a decimal is a numeral. -/
theorem eq_number_of_document {levels : Nat} {form : Form} {x : Double}
    (h : form.document levels = .decimal x) :
    ∃ n, form = .number n ∧ n.value? = some (.decimal x) := by
  cases form with
  | number n =>
    refine ⟨n, rfl, ?_⟩
    rw [Form.document] at h
    cases hvalue : n.value? with
    | none =>
      rw [hvalue] at h
      cases h
    | some d =>
      rw [hvalue] at h
      exact congrArg some h
  | null => rw [Form.document] at h; cases h
  | flag => rw [Form.document] at h; cases h
  | quoted pieces =>
    rw [Form.document] at h
    cases htext : Piece.text? pieces with
    | none => rw [htext] at h; cases h
    | some s => rw [htext] at h; cases h
  | list items =>
    match levels with
    | 0 => cases h
    | 1 => cases h
    | levels + 2 => rw [Form.document] at h; cases h
  | record fields =>
    match levels with
    | 0 => cases h
    | 1 => cases h
    | levels + 2 =>
      rw [Form.document] at h
      split at h <;> cases h

/-- A number is read back if its text is a numeral with a fraction whose value it is. -/
theorem portable_of_numeral {x : Double} {n : Numeral} (hfinite : x.isFinite = true)
    (hscan : Token.scan x.jsonText = some [.number n]) (hfraction : n.fraction ≠ [])
    (hvalue : n.decimal? = some x) : x.Portable := by
  refine ⟨hfinite, ?_⟩
  have hread : Form.read? (.ofList x.jsonText) = some (.number n) :=
    Form.reads_iff.1 (Form.reads_of_scan hscan rfl)
  have hdecimal : n.value? = some (.decimal x) := by
    rw [Numeral.value?, if_neg fun h => hfraction h.1, hvalue]
    rfl
  rw [readDocument?, hread, Option.map_some, Form.document, hdecimal]
  rfl

/-- The names of fields are texts. -/
theorem fieldNames?_map {fields : List (String × Json)} {forms : List (List Piece × Form)}
    (h : List.Forall₂ (fun field form => form.1 = field.1.toList.map Piece.ofChar) fields forms) :
    Form.fieldNames? forms = some (fields.map Prod.fst) := by
  induction h with
  | nil => rfl
  | @cons field form fields forms hfirst _ ih =>
    obtain ⟨pieces, value⟩ := form
    obtain rfl := hfirst
    rw [Form.fieldNames?, Piece.text?_map_ofChar, ih]
    rfl

/-- **Every value has a form** if its numbers are read back: its text is read as a form that stands for
its document, whatever the limit of nesting is. -/
theorem DecimalsAre.exists_form {j : Json} (h : j.DecimalsAre Double.Portable) :
    ∃ form, Form.Reads j.write form ∧ ∀ levels, form.document levels = j.documentWithin levels := by
  induction h with
  | null =>
    exact ⟨.null, Form.reads_iff.2 rfl, fun levels => by rw [Form.document, documentWithin]⟩
  | flag b =>
    refine ⟨.flag b, Form.reads_iff.2 ?_, fun levels => by rw [Form.document, documentWithin]⟩
    cases b <;> rfl
  | integer n =>
    refine ⟨.number (.ofInt n.value), ?_, ?_⟩
    · rw [write]
      exact Form.reads_toString_int n.value
    · intro levels
      rw [Form.document, value?_ofInt, documentWithin]
      rfl
  | @decimal x h =>
    obtain ⟨form, hread, hdocument⟩ := Option.map_eq_some_iff.1 h.readDocument
    obtain ⟨n, rfl, hvalue⟩ := eq_number_of_document hdocument
    refine ⟨.number n, ?_, ?_⟩
    · rw [write]
      exact Form.reads_iff.2 hread
    · intro levels
      rw [Form.document, hvalue, documentWithin]
      rfl
  | text s =>
    refine ⟨.quoted (s.toList.map .ofChar), ?_, ?_⟩
    · rw [write]
      exact Form.reads_quote s
    · intro levels
      rw [Form.document, Piece.text?_map_ofChar, documentWithin]
      rfl
  | @list items _ ih =>
    obtain ⟨forms, hforms⟩ := exists_forall₂ ih
    refine ⟨.list forms, ?_, ?_⟩
    · rw [write_list]
      refine Form.reads_list ?_
      rw [List.forall₂_map_left_iff]
      exact hforms.imp fun item form h => h.1
    · intro levels
      match levels with
      | 0 | 1 => rfl
      | levels + 2 =>
        have hitems : forms.map (Form.document (levels + 1)) =
            items.map (documentWithin (levels + 1)) :=
          map_eq_map_of_forall₂ (hforms.imp fun item form h => h.2 (levels + 1))
        rw [Form.document, hitems, documentWithin]
  | @record fields _ ih =>
    have hparts : ∀ field ∈ fields, ∃ form, Form.ReadsField (field.1, field.2.write) form ∧
        ∀ levels, form.2.document levels = field.2.documentWithin levels := by
      intro field hfield
      obtain ⟨form, hreads, hdocument⟩ := ih field hfield
      exact ⟨(field.1.toList.map .ofChar, form), ⟨rfl, hreads⟩, hdocument⟩
    obtain ⟨forms, hforms⟩ := exists_forall₂ hparts
    refine ⟨.record forms, ?_, ?_⟩
    · rw [write_record]
      refine Form.reads_record ?_
      rw [List.forall₂_map_left_iff]
      exact hforms.imp fun field form h => h.1
    · intro levels
      match levels with
      | 0 | 1 => rfl
      | levels + 2 =>
        have hnames : Form.fieldNames? forms = some (fields.map Prod.fst) :=
          fieldNames?_map (hforms.imp fun field form h => h.1.1)
        have hvalues : forms.map (fun form => Form.document (levels + 1) form.2) =
            fields.map fun field => field.2.documentWithin (levels + 1) :=
          map_eq_map_of_forall₂ (hforms.imp fun field form h => h.2 (levels + 1))
        simp only [Form.document, hnames]
        rw [hvalues, List.zip_map', documentWithin]

/-- **A value's text is read as its document**, but for what is nested too deeply. -/
theorem DecimalsAre.readDocument?_render {j : Json} (h : j.DecimalsAre Double.Portable) :
    readDocument? j.render = some (j.documentWithin Form.nestingLimit) := by
  obtain ⟨form, hreads, hdocument⟩ := h.exists_form
  rw [readDocument?, render, Form.reads_iff.1 hreads, Option.map_some, hdocument]

/-- A value that is read back from its text within some levels of nesting. -/
structure Readable (levels : Nat) (j : Json) : Prop where
  decimals : j.DecimalsAre Double.Portable
  depth : j.depth ≤ levels

/-- **A value's text is read as its document**, if its nesting keeps within the limit. -/
theorem readDocument?_render {levels : Nat} {j : Json} (h : j.Readable levels)
    (hlevels : levels < Form.nestingLimit) : readDocument? j.render = some j.document := by
  rw [h.decimals.readDocument?_render, documentWithin_eq (Nat.lt_of_le_of_lt h.depth hlevels)]

section

variable {levels : Nat}

@[simp] theorem Readable.null : Json.null.Readable levels := ⟨.null, Nat.zero_le _⟩

@[simp] theorem Readable.flag (b : Bool) : (Json.flag b).Readable levels :=
  ⟨.flag b, Nat.zero_le _⟩

@[simp] theorem Readable.integer (n : JsonInteger) : (Json.integer n).Readable levels :=
  ⟨.integer n, Nat.zero_le _⟩

@[simp] theorem Readable.text (s : String) : (Json.text s).Readable levels :=
  ⟨.text s, Nat.zero_le _⟩

theorem Readable.decimal {x : Double} (h : x.Portable) : (Json.decimal x).Readable levels :=
  ⟨.decimal h, Nat.zero_le _⟩

theorem Readable.list {items : List Json} (h : ∀ item ∈ items, item.Readable levels) :
    (Json.list items).Readable (levels + 1) := by
  refine ⟨.list fun item hitem => (h item hitem).decimals, ?_⟩
  have hdepth : depthItems items ≤ levels := by
    induction items with
    | nil => exact Nat.zero_le levels
    | cons item items ih =>
      obtain ⟨hfirst, hrest⟩ := List.forall_mem_cons.1 h
      exact Nat.max_le.2 ⟨hfirst.depth, ih hrest⟩
  rw [Json.depth]
  omega

theorem Readable.record {fields : List (String × Json)}
    (h : ∀ field ∈ fields, field.2.Readable levels) :
    (Json.record fields).Readable (levels + 1) := by
  refine ⟨.record fun field hfield => (h field hfield).decimals, ?_⟩
  have hdepth : depthFields fields ≤ levels := by
    induction fields with
    | nil => exact Nat.zero_le levels
    | cons field fields ih =>
      obtain ⟨hfirst, hrest⟩ := List.forall_mem_cons.1 h
      exact Nat.max_le.2 ⟨hfirst.depth, ih hrest⟩
  rw [Json.depth]
  omega

end

/-! ### Values back from documents -/

/-- A field whose name is above the names of all others is set behind them. -/
theorem setField_of_lt {α : Type} {fields : List (String × α)} {name : String} (value : α)
    (h : ∀ field ∈ fields, field.1 < name) :
    setField name value fields = fields ++ [(name, value)] := by
  induction fields with
  | nil => rfl
  | cons field fields ih =>
    obtain ⟨hfirst, hrest⟩ := List.forall_mem_cons.1 h
    rw [setField, compare_gt_iff_gt.2 hfirst]
    exact congrArg (field :: ·) (ih hrest)

/-- Fields are sorted by setting one after the other. -/
theorem sortFields_eq {α : Type} (fields : List (String × α)) :
    sortFields fields = fields.foldl (fun sorted field => setField field.1 field.2 sorted) [] := rfl

/-- Ascending fields stay in their order. -/
theorem sortFields_of_pairwise {α : Type} {fields : List (String × α)}
    (h : fields.Pairwise fun a b => a.1 < b.1) : sortFields fields = fields := by
  have hfold : ∀ rest done : List (String × α),
      (done ++ rest).Pairwise (fun a b => a.1 < b.1) →
        rest.foldl (fun sorted field => setField field.1 field.2 sorted) done = done ++ rest := by
    intro rest
    induction rest with
    | nil =>
      intro done _
      rw [List.append_nil]
      rfl
    | cons field rest ih =>
      intro done hsorted
      have hbefore : ∀ other ∈ done, other.1 < field.1 := by
        intro other hother
        exact (List.pairwise_append.1 hsorted).2.2 other hother field (List.mem_cons_self ..)
      have hdone : done ++ field :: rest = (done ++ [field]) ++ rest := by simp
      show List.foldl _ (setField field.1 field.2 done) rest = _
      rw [setField_of_lt field.2 hbefore]
      rw [hdone] at hsorted ⊢
      exact ih _ hsorted
  rw [sortFields_eq]
  exact hfold fields [] h

theorem jsonItems?_map {items : List Json} (h : ∀ item ∈ items, item.document.json? = some item) :
    Document.jsonItems? (items.map document) = some items := by
  induction items with
  | nil => rfl
  | cons item items ih =>
    obtain ⟨hfirst, hrest⟩ := List.forall_mem_cons.1 h
    rw [List.map_cons, Document.jsonItems?, hfirst, ih hrest]

theorem jsonFields?_map {fields : List (String × Json)}
    (h : ∀ field ∈ fields, field.2.document.json? = some field.2) :
    Document.jsonFields? (fields.map fun field => (field.1, field.2.document)) = some fields := by
  induction fields with
  | nil => rfl
  | cons field fields ih =>
    obtain ⟨hfirst, hrest⟩ := List.forall_mem_cons.1 h
    rw [List.map_cons, Document.jsonFields?, hfirst, ih hrest]

/-- **The document of a value is that value** if its decimals are finite and its records ascend. -/
theorem json?_document {j : Json} (hascending : j.Ascending)
    (hfinite : j.DecimalsAre fun x => x.isFinite = true) : j.document.json? = some j := by
  induction hascending with
  | null => rfl
  | flag b => rfl
  | integer n => exact congrArg some (dif_pos n.fits)
  | decimal x =>
    cases hfinite with
    | decimal hx => rw [document, Document.json?, if_pos hx]
  | text s => rfl
  | @list items _ ih =>
    cases hfinite with
    | list hitems =>
      have hread := jsonItems?_map fun item hitem => ih item hitem (hitems item hitem)
      rw [document_list, Document.json?, hread]
      rfl
  | @record fields hnames _ ih =>
    cases hfinite with
    | record hfields =>
      rw [document_record, Document.json?,
        jsonFields?_map fun field hfield => ih field hfield (hfields field hfield), Option.map_some,
        ofFields, sortFields_of_pairwise hnames]

/-! ### Equality -/

theorem equal_self {x : Double} (h : x.isFinite = true) : x.equal x = true := by
  have hnan : x.isNaN = false := by
    rw [Binary.isFinite, decide_eq_true_eq] at h
    rw [Binary.isNaN, decide_eq_false_iff_not]
    omega
  rw [Binary.equal, hnan]
  simp

/-- **A value is the same as itself** if its decimals are finite. -/
theorem same_self {j : Json} (h : j.DecimalsAre fun x => x.isFinite = true) : j.same j = true := by
  induction h with
  | null => rfl
  | flag b => rw [same, beq_self_eq_true]
  | integer n => rw [same, decide_eq_true rfl]
  | decimal h => rw [same, equal_self h]
  | text s => rw [same, decide_eq_true rfl]
  | @list items _ ih =>
    have hitems : ∀ items : List Json, (∀ item ∈ items, item.same item = true) →
        sameItems items items = true := by
      intro items h
      induction items with
      | nil => rfl
      | cons item items ih =>
        obtain ⟨hfirst, hrest⟩ := List.forall_mem_cons.1 h
        rw [sameItems, hfirst, ih hrest, Bool.true_and]
    rw [same, hitems items ih]
  | @record fields _ ih =>
    have hfields : ∀ fields : List (String × Json),
        (∀ field ∈ fields, field.2.same field.2 = true) → sameFields fields fields = true := by
      intro fields h
      induction fields with
      | nil => rfl
      | cons field fields ih =>
        obtain ⟨hfirst, hrest⟩ := List.forall_mem_cons.1 h
        rw [sameFields, hfirst, ih hrest, decide_eq_true rfl, Bool.true_and, Bool.true_and]
    rw [same, hfields fields ih]

end Json

end LineChart
