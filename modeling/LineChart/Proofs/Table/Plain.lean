import LineChart.Proofs.Table.Texts

/-!
# Plain texts

A text of letters, digits and signs needs no quotes in a delimited file: no byte of it means
anything there, and there is nothing to trim.

* `Delimited.Plain` : a text that stands in a file as it is.
* `Delimited.records_plainRows` : the records of a file of plain texts.
* `Delimited.trim_of_plain` : a plain text is left as it is.
-/

namespace LineChart.Delimited

/-- A text that is not empty and whose characters lie between the minus sign and the last letter:
letters, digits and some marks, but no comma, no quote, no blank and no end of a line. -/
structure Plain (s : String) : Prop where
  ne_nil : s.toList ≠ []
  between : ∀ c ∈ s.toList, '-'.toNat ≤ c.toNat ∧ c.toNat ≤ 'z'.toNat

/-- Letters and digits stand between the two. -/
theorem between_of_isAlphanum {c : Char} (h : c.isAlphanum = true) :
    '-'.toNat ≤ c.toNat ∧ c.toNat ≤ 'z'.toNat := by
  have hkind : (c.isUpper = true ∨ c.isLower = true) ∨ c.isDigit = true :=
    (Bool.or_eq_true_iff.1 h).imp_left Bool.or_eq_true_iff.1
  have hrange : ∃ low high : Char, ('-'.toNat ≤ low.toNat ∧ high.toNat ≤ 'z'.toNat) ∧
      low.toNat ≤ c.toNat ∧ c.toNat ≤ high.toNat := by
    rcases hkind with (hupper | hlower) | hdigit
    · exact ⟨'A', 'Z', by decide, of_decide_eq_true hupper⟩
    · obtain ⟨hlow, hhigh⟩ := Bool.and_eq_true_iff.1 hlower
      exact ⟨'a', 'z', by decide, of_decide_eq_true hlow, of_decide_eq_true hhigh⟩
    · obtain ⟨hlow, hhigh⟩ := Bool.and_eq_true_iff.1 hdigit
      exact ⟨'0', '9', by decide, of_decide_eq_true hlow, of_decide_eq_true hhigh⟩
  obtain ⟨low, high, ⟨hfirst, hlast⟩, hlow, hhigh⟩ := hrange
  exact ⟨Nat.le_trans hfirst hlow, Nat.le_trans hhigh hlast⟩

/-- The file of some rows of plain texts. -/
def plainRows (rows : List (List String)) : String := textFile (rows.map (List.map String.toList))

variable {s : String}

/-- The bytes of a plain text are its characters. -/
theorem Plain.byte (h : Plain s) {b : UInt8} (hb : b ∈ utf8 s) : 45 ≤ b.toNat ∧ b.toNat ≤ 122 := by
  rw [utf8_eq, encode, List.mem_flatMap] at hb
  obtain ⟨c, hc, hbyte⟩ := hb
  obtain ⟨hlow, hhigh⟩ := h.between c hc
  have hlow' : 45 ≤ c.toNat := hlow
  have hhigh' : c.toNat ≤ 122 := hhigh
  rw [utf8EncodeChar_of_lt (by omega), List.mem_singleton] at hbyte
  subst hbyte
  simp
  omega

theorem Plain.utf8_ne_nil (h : Plain s) : utf8 s ≠ [] := by
  obtain ⟨c, rest, hrest⟩ := List.exists_cons_of_ne_nil h.ne_nil
  have hc := (h.between c (by simp [hrest])).2
  have hhigh : c.toNat ≤ 122 := hc
  rw [utf8_eq, hrest, encode, List.flatMap_cons, utf8EncodeChar_of_lt (by omega)]
  exact List.cons_ne_nil _ _

/-- A plain text is spelled as it is. -/
theorem Plain.spells (h : Plain s) : Spells (utf8 s) (utf8 s) := by
  refine .plain h.utf8_ne_nil ?_
  intro b hb
  obtain ⟨hlow, hhigh⟩ := h.byte hb
  have hne : ∀ mark : UInt8, mark.toNat < 45 → b ≠ mark := by
    rintro mark hmark rfl
    omega
  refine ⟨hne comma (by decide), hne quote (by decide), ?_⟩
  simp [endsLine, hne lineFeed (by decide), hne carriageReturn (by decide)]

/-- **The records of a file of plain texts** are its rows. -/
theorem records_plainRows {rows : List (List String)} (hne : ∀ row ∈ rows, row ≠ [])
    (hplain : ∀ row ∈ rows, ∀ s ∈ row, Plain s) :
    records (utf8 (plainRows rows)) = rows.map (List.map utf8) := by
  have hbytes : utf8 (plainRows rows) = (rows.map (List.map utf8)).flatMap line := by
    rw [plainRows, utf8_textFile, List.map_map]
    simp only [Function.comp_def, List.map_map, ← utf8_eq]
  have hspelled : List.Forall₂ (List.Forall₂ Spells) (rows.map (List.map utf8))
      (rows.map (List.map utf8)) := by
    rw [List.forall₂_same, List.forall_mem_map]
    intro row hrow
    rw [List.forall₂_same, List.forall_mem_map]
    exact fun s hs => (hplain row hrow s hs).spells
  have hmark : ((rows.map (List.map utf8)).flatMap line).head? ≠ some 0xEF := by
    rcases rows with _ | ⟨_ | ⟨s, row⟩, rows⟩
    · simp
    · exact absurd rfl (hne [] List.mem_cons_self)
    · -- the first byte is the first of a plain text
      have hs : Plain s := hplain _ List.mem_cons_self s List.mem_cons_self
      obtain ⟨b, rest, hrest⟩ := List.exists_cons_of_ne_nil hs.utf8_ne_nil
      have hb := hs.byte (b := b) (by simp [hrest])
      have hhead : ((((s :: row) :: rows).map (List.map utf8)).flatMap line).head? = some b := by
        cases row <;> simp [line, hrest, List.intercalate_cons_cons]
      rw [hhead]
      intro hmark
      obtain rfl := Option.some.inj hmark
      exact absurd hb.2 (by decide)
  rw [hbytes, records_lines hspelled hmark, List.filter_eq_self]
  intro record hrecord
  obtain ⟨row, hrow, rfl⟩ := List.mem_map.1 hrecord
  simpa using hne row hrow

/-! ### Trimming -/

theorem not_isBlank {c : Char} (h : '-'.toNat ≤ c.toNat ∧ c.toNat ≤ 'z'.toNat) :
    isBlank c = false := by
  have hlow : 45 ≤ c.toNat := h.1
  have hhigh : c.toNat ≤ 122 := h.2
  have hranges : ∀ range ∈ blankRanges, range.2 < 45 ∨ 122 < range.1 := by decide
  rw [isBlank, List.any_eq_false]
  intro range hrange
  have hapart := hranges range hrange
  rw [decide_eq_true_eq]
  omega

/-- **There is nothing to trim.** -/
theorem trim_of_plain (h : Plain s) : trim s = s := by
  have hblank : ∀ text : List Char, (∀ c ∈ text, isBlank c = false) →
      text.dropWhile isBlank = text := by
    intro text htext
    cases text with
    | nil => rfl
    | cons c text => rw [List.dropWhile_cons_of_neg (by simp [htext c List.mem_cons_self])]
  have hnone : ∀ c ∈ s.toList, isBlank c = false := fun c hc => not_isBlank (h.between c hc)
  rw [trim, trimBlanks, hblank _ hnone,
    hblank _ fun c hc => hnone c (List.mem_reverse.1 hc), List.reverse_reverse,
    String.ofList_toList]

/-- Plain headings are the names of their columns. -/
theorem columnNames_of_plain {headings : List String} (h : ∀ s ∈ headings, Plain s) (j : Nat) :
    columnNames j headings = headings := by
  induction headings generalizing j with
  | nil => rfl
  | cons heading headings ih =>
    obtain ⟨hfirst, hrest⟩ := List.forall_mem_cons.1 h
    have hne : heading ≠ "" := by
      rintro rfl
      exact hfirst.ne_nil rfl
    rw [columnNames, ih hrest, columnName_eq, trim_of_plain hfirst, if_neg hne]

end LineChart.Delimited
