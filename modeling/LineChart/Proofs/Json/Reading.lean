import LineChart.Proofs.Json.Scanning
import Mathlib.Data.List.Forall2

/-!
# Values inside of values

A text that is read as a form when it stands alone is read as the same form as an item of a list or
the value of a field. So the form of a list or a record is known from the forms of its parts.

* `Building.under` : a builder inside of further open lists and records.
* `Building.run_under` : which takes it to deliver its value there.
* `Form.Reads` : what a text is read as wherever a value may stand.
* `Form.reads_iff` : which is what it is read as alone.
* `Form.reads_list`, `Form.reads_record` : lists and records from their parts.
-/

namespace LineChart.Json

namespace Building

variable {outer frames : List Frame}

/-- A builder whose open frames stand inside of others. -/
def under (outer : List Frame) : Building → Building
  | .value frames => .value (frames ++ outer)
  | .firstItem frames => .firstItem (frames ++ outer)
  | .name fields canClose frames => .name fields canClose (frames ++ outer)
  | .colon fields key frames => .colon fields key (frames ++ outer)
  | .itemEnd items frames => .itemEnd items (frames ++ outer)
  | .fieldEnd fields frames => .fieldEnd fields (frames ++ outer)
  | .finished form => deliver form outer

theorem deliver_under (form : Form) (frames outer : List Frame) :
    (deliver form frames).under outer = deliver form (frames ++ outer) := by
  match frames with
  | [] => rfl
  | .list _ :: _ => rfl
  | .record _ _ :: _ => rfl

theorem begin_append (token : Token) (frames outer : List Frame) :
    begin (frames ++ outer) token = (begin frames token).map (under outer) := by
  cases token with
  | null | flag | number | quoted => exact congrArg some (deliver_under _ _ _).symm
  | _ => rfl

/-- **One token does the same inside of other frames.** -/
theorem step_under {b next : Building} {token : Token} (h : b.step token = some next) :
    (b.under outer).step token = some (next.under outer) := by
  cases b with
  | value frames =>
    have hbegin : begin frames token = some next := h
    show begin (frames ++ outer) token = _
    rw [begin_append, hbegin]
    rfl
  | firstItem frames =>
    cases token with
    | closeList =>
      obtain rfl := Option.some.inj h
      exact congrArg some (deliver_under _ _ _).symm
    | openList | openRecord | null | flag | number | quoted =>
      obtain rfl := Option.some.inj h
      rfl
    | closeRecord | colon | comma => cases h
  | name fields canClose frames =>
    cases token with
    | quoted pieces =>
      obtain rfl := Option.some.inj h
      rfl
    | closeRecord =>
      cases canClose with
      | true =>
        obtain rfl := Option.some.inj h
        exact congrArg some (deliver_under _ _ _).symm
      | false => cases h
    | _ => cases h
  | colon fields key frames =>
    cases token with
    | colon =>
      obtain rfl := Option.some.inj h
      rfl
    | _ => cases h
  | itemEnd items frames =>
    cases token with
    | comma =>
      obtain rfl := Option.some.inj h
      rfl
    | closeList =>
      obtain rfl := Option.some.inj h
      exact congrArg some (deliver_under _ _ _).symm
    | _ => cases h
  | fieldEnd fields frames =>
    cases token with
    | comma =>
      obtain rfl := Option.some.inj h
      rfl
    | closeRecord =>
      obtain rfl := Option.some.inj h
      exact congrArg some (deliver_under _ _ _).symm
    | _ => cases h
  | finished form => cases h

/-- **A value that is built alone is delivered to the frames around it.** -/
theorem run_under {b final : Building} {tokens : List Token} (h : b.run tokens = some final) :
    (b.under outer).run tokens = some (final.under outer) := by
  induction tokens generalizing b with
  | nil =>
    obtain rfl := Option.some.inj h
    rfl
  | cons token tokens ih =>
    rw [run] at h ⊢
    cases hstep : b.step token with
    | none =>
      rw [hstep] at h
      cases h
    | some next =>
      rw [hstep] at h
      rw [step_under hstep]
      exact ih h

/-- A first item is built as any other, as no value starts with the end of the list. -/
theorem run_firstItem {tokens : List Token} {form : Form}
    (h : run (.value (.list [] :: frames)) tokens = some (.itemEnd [form] frames)) :
    run (.firstItem frames) tokens = some (.itemEnd [form] frames) := by
  cases tokens with
  | nil => cases Option.some.inj h
  | cons token tokens =>
    have hstep : step (.firstItem frames) token = step (.value (.list [] :: frames)) token := by
      cases token with
      | closeList => cases h
      | _ => rfl
    rw [run, hstep]
    exact h

end Building

namespace Form

/-- What a text is read as wherever a value may stand: its tokens are the same whatever is around
it, and they make up the form inside of any open lists and records. -/
def Reads (text : List Char) (form : Form) : Prop :=
  ∃ tokens : List Token,
    (∀ found tail, Follows tail →
      Scan.run .between found (text ++ tail) = Scan.run .between (tokens.reverse ++ found) tail) ∧
    ∀ frames rest, Building.run (.value frames) (tokens ++ rest) =
      Building.run (Building.deliver form frames) rest

theorem reads_of_scan {text : List Char} {tokens : List Token} {form : Form}
    (hscan : Token.scan text = some tokens)
    (hrun : Building.run (.value []) tokens = some (.finished form)) : Reads text form := by
  refine ⟨tokens, fun found tail htail => Scan.run_of_scan hscan htail, ?_⟩
  intro frames rest
  have hframes : Building.run (.value frames) tokens = some (Building.deliver form frames) :=
    Building.run_under hrun
  rw [Building.run_append, hframes]
  rfl

/-- **A text is read the same alone and inside of other values.** -/
theorem reads_iff {text : List Char} {form : Form} :
    Reads text form ↔ read? (.ofList text) = some form := by
  rw [read?, String.toList_ofList]
  constructor
  · intro h
    obtain ⟨tokens, hscan, hrun⟩ := h
    have hall : Scan.run .between [] text = some tokens.reverse := by
      have hnil := hscan [] [] (by simp [Follows])
      rw [List.append_nil, List.append_nil] at hnil
      rw [hnil, Scan.run]
      rfl
    have hfinished : Building.run (.value []) tokens = some (.finished form) := by
      have hnil := hrun [] []
      rw [List.append_nil] at hnil
      rw [hnil]
      rfl
    rw [Token.scan, hall, Option.map_some, List.reverse_reverse]
    show ofTokens? tokens = _
    rw [ofTokens?, hfinished]
  · intro h
    cases hscan : Token.scan text with
    | none =>
      rw [hscan] at h
      cases h
    | some tokens =>
      rw [hscan] at h
      have htokens : ofTokens? tokens = some form := h
      rw [ofTokens?] at htokens
      split at htokens
      · next hrun =>
        obtain rfl := Option.some.inj htokens
        exact reads_of_scan hscan hrun
      · cases htokens

/-- A text between quotes. -/
theorem reads_quote (s : String) : Reads (quote s) (.quoted (s.toList.map .ofChar)) := by
  refine ⟨[.quoted (s.toList.map .ofChar)], fun found tail _ => Scan.run_quote s, ?_⟩
  intro frames rest
  rfl

/-- The text of an integer. -/
theorem reads_toString_int (n : Int) : Reads (toString n).toList (.number (.ofInt n)) :=
  reads_of_scan (Scan.scan_toString_int n) rfl

/-! ### Lists and records -/

/-- The texts of further items, each with a comma in front. -/
def itemsText (texts : List (List Char)) : List Char := texts.flatMap fun text => ',' :: text

/-- The text of a list with items of given texts. -/
def listText : List (List Char) → List Char
  | [] => ['[', ']']
  | first :: rest => '[' :: (first ++ (itemsText rest ++ [']']))

/-- The text of a field. -/
def fieldText (key : String) (content : List Char) : List Char := quote key ++ ':' :: content

/-- The text of a record with fields of given names and texts. -/
def recordText : List (String × List Char) → List Char
  | [] => ['\x7b', '\x7d']
  | (key, content) :: rest =>
    '\x7b' :: (fieldText key content ++
      (itemsText (rest.map fun field => fieldText field.1 field.2) ++ ['\x7d']))

theorem itemsText_cons_append (text tail : List Char) (texts : List (List Char)) :
    itemsText (text :: texts) ++ tail = ',' :: (text ++ (itemsText texts ++ tail)) := by
  simp [itemsText]

theorem follows_itemsText {tail : List Char} (h : Follows tail) (texts : List (List Char)) :
    Follows (itemsText texts ++ tail) := by
  cases texts with
  | nil => exact h
  | cons text texts => exact follows_cons (.inl rfl) _

/-- Further items, up to the end of the list. -/
theorem exists_tokens_items {texts : List (List Char)} {forms : List Form}
    (h : List.Forall₂ Reads texts forms) : ∃ tokens : List Token,
      (∀ found tail, Follows tail → Scan.run .between found (itemsText texts ++ tail) =
        Scan.run .between (tokens.reverse ++ found) tail) ∧
      ∀ items frames rest, Building.run (.itemEnd items frames) (tokens ++ rest) =
        Building.run (.itemEnd (forms.reverse ++ items) frames) rest := by
  induction h with
  | nil => exact ⟨[], fun _ _ _ => rfl, fun _ _ _ => rfl⟩
  | @cons text form texts forms hfirst _ ih =>
    obtain ⟨tokens, hscan, hrun⟩ := hfirst
    obtain ⟨further, hscans, hruns⟩ := ih
    refine ⟨.comma :: (tokens ++ further), ?_, ?_⟩
    · intro found tail htail
      rw [itemsText_cons_append]
      show Scan.run .between (.comma :: found) _ = _
      rw [hscan _ _ (follows_itemsText htail texts), hscans _ _ htail]
      simp
    · intro items frames rest
      rw [List.cons_append, List.append_assoc]
      show Building.run (.value (.list items :: frames)) _ = _
      rw [hrun]
      show Building.run (.itemEnd (form :: items) frames) _ = _
      rw [hruns, List.reverse_cons, List.append_assoc, List.singleton_append]

/-- A field of a name, with what its value is read as. -/
def ReadsField (field : String × List Char) (form : List Piece × Form) : Prop :=
  form.1 = field.1.toList.map .ofChar ∧ Reads field.2 form.2

/-- One field. -/
theorem exists_tokens_field {field : String × List Char} {form : List Piece × Form}
    (h : ReadsField field form) : ∃ tokens : List Token,
      (∀ found tail, Follows tail → Scan.run .between found (fieldText field.1 field.2 ++ tail) =
        Scan.run .between (tokens.reverse ++ found) tail) ∧
      ∀ fields canClose frames rest,
        Building.run (.name fields canClose frames) (tokens ++ rest) =
          Building.run (.fieldEnd (form :: fields) frames) rest := by
  obtain ⟨pieces, value⟩ := form
  obtain ⟨rfl, tokens, hscan, hrun⟩ := h
  refine ⟨.quoted (field.1.toList.map .ofChar) :: .colon :: tokens, ?_, ?_⟩
  · intro found tail htail
    rw [fieldText, List.append_assoc, Scan.run_quote]
    show Scan.run .between (.colon :: _) (field.2 ++ tail) = _
    rw [hscan _ _ htail]
    simp
  · intro fields canClose frames rest
    have hname : ∀ pieces tokens, Building.run (.name fields canClose frames)
        (.quoted pieces :: .colon :: tokens) =
          Building.run (.value (.record fields pieces :: frames)) tokens := by
      intro pieces tokens
      cases canClose <;> rfl
    rw [List.cons_append, List.cons_append, hname, hrun]
    rfl

/-- Further fields, up to the end of the record. -/
theorem exists_tokens_fields {fields : List (String × List Char)}
    {forms : List (List Piece × Form)} (h : List.Forall₂ ReadsField fields forms) :
    ∃ tokens : List Token,
      (∀ found tail, Follows tail → Scan.run .between found
        (itemsText (fields.map fun field => fieldText field.1 field.2) ++ tail) =
          Scan.run .between (tokens.reverse ++ found) tail) ∧
      ∀ done frames rest, Building.run (.fieldEnd done frames) (tokens ++ rest) =
        Building.run (.fieldEnd (forms.reverse ++ done) frames) rest := by
  induction h with
  | nil => exact ⟨[], fun _ _ _ => rfl, fun _ _ _ => rfl⟩
  | @cons field form fields forms hfirst _ ih =>
    obtain ⟨tokens, hscan, hrun⟩ := exists_tokens_field hfirst
    obtain ⟨further, hscans, hruns⟩ := ih
    refine ⟨.comma :: (tokens ++ further), ?_, ?_⟩
    · intro found tail htail
      rw [List.map_cons, itemsText_cons_append]
      show Scan.run .between (.comma :: found) _ = _
      rw [hscan _ _ (follows_itemsText htail _), hscans _ _ htail]
      simp
    · intro done frames rest
      rw [List.cons_append, List.append_assoc]
      show Building.run (.name done false frames) _ = _
      rw [hrun, hruns, List.reverse_cons, List.append_assoc, List.singleton_append]

/-- **A list is read from its items.** -/
theorem reads_list {texts : List (List Char)} {forms : List Form}
    (h : List.Forall₂ Reads texts forms) : Reads (listText texts) (.list forms) := by
  cases h with
  | nil =>
    have hscan : Token.scan (listText []) = some [.openList, .closeList] := rfl
    exact reads_of_scan hscan rfl
  | @cons text form texts forms hfirst hrest =>
    obtain ⟨tokens, hscan, hrun⟩ := hfirst
    obtain ⟨further, hscans, hruns⟩ := exists_tokens_items hrest
    refine ⟨.openList :: (tokens ++ (further ++ [.closeList])), ?_, ?_⟩
    · intro found tail htail
      have htext : listText (text :: texts) ++ tail =
          '[' :: (text ++ (itemsText texts ++ ']' :: tail)) := by
        simp [listText]
      have hclose : Follows (']' :: tail) := follows_cons (.inr (.inl rfl)) tail
      rw [htext]
      show Scan.run .between (.openList :: found) _ = _
      rw [hscan _ _ (follows_itemsText hclose texts), hscans _ _ hclose]
      show Scan.run .between (.closeList :: _) tail = _
      simp
    · intro frames rest
      have hfirstItem :
          Building.run (.firstItem frames) tokens = some (.itemEnd [form] frames) := by
        refine Building.run_firstItem ?_
        have hnil := hrun (.list [] :: frames) []
        rw [List.append_nil] at hnil
        rw [hnil]
        rfl
      rw [List.cons_append, List.append_assoc, List.append_assoc]
      show Building.run (.firstItem frames) _ = _
      rw [Building.run_append, hfirstItem]
      show Building.run (.itemEnd [form] frames) _ = _
      rw [hruns, List.singleton_append]
      show Building.run (.deliver (.list (forms.reverse ++ [form]).reverse) frames) rest = _
      rw [List.reverse_append, List.reverse_reverse]
      rfl

/-- **A record is read from its fields.** -/
theorem reads_record {fields : List (String × List Char)} {forms : List (List Piece × Form)}
    (h : List.Forall₂ ReadsField fields forms) : Reads (recordText fields) (.record forms) := by
  cases h with
  | nil =>
    have hscan : Token.scan (recordText []) = some [.openRecord, .closeRecord] := rfl
    exact reads_of_scan hscan rfl
  | @cons field form fields forms hfirst hrest =>
    obtain ⟨tokens, hscan, hrun⟩ := exists_tokens_field hfirst
    obtain ⟨further, hscans, hruns⟩ := exists_tokens_fields hrest
    refine ⟨.openRecord :: (tokens ++ (further ++ [.closeRecord])), ?_, ?_⟩
    · intro found tail htail
      have htext : recordText (field :: fields) ++ tail =
          '\x7b' :: (fieldText field.1 field.2 ++
            (itemsText (fields.map fun field => fieldText field.1 field.2) ++ '\x7d' :: tail)) := by
        simp [recordText]
      have hclose : Follows ('\x7d' :: tail) := follows_cons (.inr (.inr rfl)) tail
      rw [htext]
      show Scan.run .between (.openRecord :: found) _ = _
      rw [hscan _ _ (follows_itemsText hclose _), hscans _ _ hclose]
      show Scan.run .between (.closeRecord :: _) tail = _
      simp
    · intro frames rest
      rw [List.cons_append, List.append_assoc, List.append_assoc]
      show Building.run (.name [] true frames) _ = _
      rw [hrun, hruns, List.singleton_append]
      show Building.run (.deliver (.record (forms.reverse ++ [form]).reverse) frames) rest = _
      rw [List.reverse_append, List.reverse_reverse]
      rfl

end Form

end LineChart.Json
