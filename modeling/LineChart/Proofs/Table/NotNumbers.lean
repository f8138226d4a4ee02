import LineChart.Proofs.Number.Display
import LineChart.Proofs.Table.Rows

/-!
# Cells that are not a number

The fields of a delimited file are read as numbers unless they are texts for a missing cell. A number
may be spelled as the word `nan`, in any case and with a sign. Four of these spellings are texts for a
missing cell, and all others give a cell that holds NaN.

* `SpellsNaN` : a sign or none, and the letters of `nan` in any case.
* `Double.read?_isNaN_iff` : the texts that are read as NaN.
* `Delimited.cell_isNaN_iff`, `Delimited.cell_missing_iff` : the fields that give NaN, and those that
  give a missing cell.
* `Delimited.FieldAt` : the text in a row and at a place of a file.
* `Delimited.cell_of_columns` : every cell of a delimited file is read from the field at its place.
-/

namespace LineChart

/-- The word `nan` in any case, with a sign in front or without one. -/
def SpellsNaN (text : List Char) : Prop :=
  ∃ word, word.map Char.toLower = ['n', 'a', 'n'] ∧
    (text = word ∨ text = '+' :: word ∨ text = '-' :: word)

/-! ### Reading words -/

/-- Digits have no other case. -/
theorem toLower_of_isDigit {c : Char} (h : isDigit c = true) : c.toLower = c := by
  have hbound : c.val.toNat ≤ 57 := (of_decide_eq_true h).2
  have hnot : ¬ (c.val ≥ 'A'.val ∧ c.val ≤ 'Z'.val) := by
    intro hupper
    have hlow : 65 ≤ c.val.toNat := hupper.1
    omega
  exact dif_neg hnot

/-- The first letter of the word is no digit, no point and no sign. -/
theorem not_isDigit_of_toLower {c : Char} (h : c.toLower = 'n') :
    isDigit c = false ∧ c ≠ '.' ∧ c ≠ '+' ∧ c ≠ '-' := by
  refine ⟨?_, ?_, ?_, ?_⟩
  · by_contra hdigit
    have hdigit : isDigit c = true := by simpa using hdigit
    rw [toLower_of_isDigit hdigit] at h
    rw [h] at hdigit
    exact absurd hdigit (by decide)
  · rintro rfl
    exact absurd h (by decide)
  · rintro rfl
    exact absurd h (by decide)
  · rintro rfl
    exact absurd h (by decide)

theorem exists_cons_of_word {word : List Char} (h : word.map Char.toLower = ['n', 'a', 'n']) :
    ∃ first rest, word = first :: rest ∧ first.toLower = 'n' := by
  cases word with
  | nil => cases h
  | cons first rest => exact ⟨first, rest, rfl, (List.cons.inj h).1⟩

/-- Behind the sign, the text is the word. -/
theorem spellsNaN_iff {text : List Char} :
    SpellsNaN text ↔ (splitSign text).2.map Char.toLower = ['n', 'a', 'n'] := by
  constructor
  · rintro ⟨word, hword, rfl | rfl | rfl⟩
    · obtain ⟨first, rest, rfl, hfirst⟩ := exists_cons_of_word hword
      obtain ⟨-, -, hplus, hminus⟩ := not_isDigit_of_toLower hfirst
      rw [splitSign.eq_def]
      split
      · next heq => exact absurd (List.cons.inj heq).1 hminus
      · next heq => exact absurd (List.cons.inj heq).1 hplus
      · exact hword
    · exact hword
    · exact hword
  · intro h
    rw [splitSign.eq_def] at h
    split at h
    · exact ⟨_, h, .inr (.inr rfl)⟩
    · exact ⟨_, h, .inr (.inl rfl)⟩
    · exact ⟨_, h, .inl rfl⟩

instance (text : List Char) : Decidable (SpellsNaN text) := decidable_of_iff _ spellsNaN_iff.symm

theorem readDecimal?_of_head {first : Char} {rest : List Char} (hdigit : isDigit first = false)
    (hpoint : first ≠ '.') : readDecimal? (first :: rest) = none := by
  have htake : (first :: rest).takeWhile isDigit = [] :=
    List.takeWhile_cons_of_neg (by simp [hdigit])
  have hdrop : (first :: rest).dropWhile isDigit = first :: rest :=
    List.dropWhile_cons_of_neg (by simp [hdigit])
  rw [readDecimal?, htake, hdrop]
  dsimp only
  split
  · next hcons => exact absurd (List.cons.inj hcons).1 hpoint
  · simp

theorem readInteger?_of_head {text rest : List Char} {first : Char}
    (h : (splitSign text).2 = first :: rest) (hdigit : isDigit first = false) :
    readInteger? text = none := by
  rw [readInteger?]
  simp [h, hdigit]

/-- **The texts that are read as NaN** spell the word. -/
theorem Double.read?_isNaN_iff {text : List Char} :
    (∃ x, Double.read? text = some x ∧ x.isNaN = true) ↔ SpellsNaN text := by
  rw [spellsNaN_iff, Double.read?]
  dsimp only
  constructor
  · rintro ⟨x, hx, hnan⟩
    split at hx
    · rw [← Option.some.inj hx, Binary.isNaN_ofDecimal] at hnan
      cases hnan
    · split_ifs at hx with hinfinite hword
      · rw [← Option.some.inj hx] at hnan
        exact absurd (of_decide_eq_true hnan) (Nat.lt_irrefl _)
      · exact hword
      · exact hword
  · intro hword
    obtain ⟨first, rest, hsplit, hfirst⟩ := exists_cons_of_word hword
    obtain ⟨hdigit, hpoint, -, -⟩ := not_isDigit_of_toLower hfirst
    have hdecimal : readDecimal? (splitSign text).2 = none := by
      rw [hsplit, readDecimal?_of_head hdigit hpoint]
    have hnan : ∀ negative : Bool,
        (if negative then -Binary.nan else Binary.nan : Double).isNaN = true := by
      intro negative
      cases negative <;> decide +kernel
    rw [hdecimal, hword]
    exact ⟨_, rfl, hnan _⟩

namespace Delimited

/-! ### Fields -/

/-- The spellings of NaN that are texts for a missing cell. -/
def missingNaNs : List String := ["nan", "NaN", "-nan", "-NaN"]

theorem mem_missingNaNs_iff {text : String} (h : SpellsNaN text.toList) :
    text ∈ missingNaNs ↔ text ∈ missingTexts := by
  have hlisted : ∀ text ∈ missingTexts, SpellsNaN text.toList → text ∈ missingNaNs := by decide
  have hmissing : ∀ text ∈ missingNaNs, text ∈ missingTexts := by decide
  exact ⟨hmissing text, fun hmem => hlisted text hmem h⟩

/-- **The fields that give a missing cell.** -/
theorem cell_missing_iff {text : String} : cell text = .missing ↔ text ∈ missingTexts := by
  rw [cell]
  constructor
  · intro h
    by_contra hnot
    rw [if_neg hnot] at h
    split at h
    · cases h
    · split at h
      · cases h
      · split_ifs at h
  · intro h
    rw [if_pos h]

/-- A field gives a number if it is read as one and as nothing that comes before. -/
theorem cell_number_iff {text : String} {x : Double} :
    cell text = .number x ↔ text ∉ missingTexts ∧ readInt64? text.toList = none ∧
      Double.read? text.toList = some x := by
  rw [cell]
  by_cases hmissing : text ∈ missingTexts
  · simp [hmissing]
  · rw [if_neg hmissing]
    cases readInt64? text.toList with
    | some n => simp
    | none =>
      cases Double.read? text.toList with
      | some y => simp [hmissing]
      | none =>
        dsimp only
        split_ifs <;> simp

/-- **The fields that give NaN** spell it, and are none of its four spellings for a missing cell. -/
theorem cell_isNaN_iff {text : String} :
    (∃ x, cell text = .number x ∧ x.isNaN = true) ↔
      SpellsNaN text.toList ∧ text ∉ missingNaNs := by
  simp only [cell_number_iff]
  constructor
  · rintro ⟨x, ⟨hmissing, -, hread⟩, hnan⟩
    have hspells : SpellsNaN text.toList := Double.read?_isNaN_iff.1 ⟨x, hread, hnan⟩
    exact ⟨hspells, fun hmem => hmissing ((mem_missingNaNs_iff hspells).1 hmem)⟩
  · rintro ⟨hspells, hnot⟩
    obtain ⟨x, hread, hnan⟩ := Double.read?_isNaN_iff.2 hspells
    obtain ⟨first, rest, hsplit, hfirst⟩ := exists_cons_of_word (spellsNaN_iff.1 hspells)
    have hinteger : readInt64? text.toList = none := by
      rw [readInt64?, readInteger?_of_head hsplit (not_isDigit_of_toLower hfirst).1]
    exact ⟨x, ⟨fun hmem => hnot ((mem_missingNaNs_iff hspells).2 hmem), hinteger, hread⟩, hnan⟩

/-! ### Files -/

/-- The text at a place of a row, without outer blanks. Rows are the records behind the headings. -/
def FieldAt (bytes : List UInt8) (row place : Nat) (text : String) : Prop :=
  ∃ record field written, (records bytes).tail[row]? = some record ∧ record[place]? = some field ∧
    fieldText? field = some written ∧ text = trim written

theorem getElem?_texts? {record : Record} {texts : List String} (h : texts? record = some texts)
    (place : Nat) : texts[place]? = record[place]?.bind fieldText? := by
  induction record generalizing texts place with
  | nil =>
    obtain rfl := Option.some.inj h
    rfl
  | cons field rest ih =>
    rw [texts?] at h
    split at h
    · next text others htext hothers =>
      obtain rfl := Option.some.inj h
      cases place with
      | zero => simp [htext]
      | succ place => exact ih hothers place
    · cases h

/-- Every row of cells is read from the record at its place, which is as wide as the headings. -/
theorem exists_texts_of_rows {width row : Nat} {body : List Record} {cells : List (List Cell)}
    (h : rows width row body = .ok cells) :
    List.Forall₂ (fun record cells => record.length = width ∧
      ∃ texts, texts? record = some texts ∧ cells = cellsOf texts) body cells := by
  induction body generalizing row cells with
  | nil =>
    obtain rfl := Except.ok.inj h
    exact .nil
  | cons record body ih =>
    rw [rows] at h
    split at h
    · cases h
    · next hwidth =>
      split at h
      · cases h
      · next texts htexts =>
        split at h
        · cases h
        · next rest hrest =>
          obtain rfl := Except.ok.inj h
          exact .cons ⟨not_not.1 hwidth, texts, htexts, rfl⟩ (ih hrest)

/-- The column at a place holds the cell at this place of every row. -/
theorem getElem?_columnsOf {headings : List String} {rows : List (List Cell)} {place : Nat}
    {c : Column} (h : (columnsOf (columnNames 0 headings) rows)[place]? = some c) :
    place < headings.length ∧ c.cells = rows.map fun row => row[place]?.getD .missing := by
  rw [columnsOf, List.getElem?_map, Option.map_eq_some_iff] at h
  obtain ⟨⟨name, i⟩, hentry, rfl⟩ := h
  obtain ⟨hplace, hi⟩ := List.getElem?_eq_some_iff.1 hentry
  rw [List.length_zipIdx, length_columnNames] at hplace
  rw [List.getElem_zipIdx, Prod.mk.injEq, Nat.zero_add] at hi
  rw [← hi.2]
  exact ⟨hplace, rfl⟩

theorem FieldAt.unique {bytes : List UInt8} {row place : Nat} {text text' : String}
    (h : FieldAt bytes row place text) (h' : FieldAt bytes row place text') : text = text' := by
  obtain ⟨record, field, written, hrecord, hfield, hwritten, rfl⟩ := h
  obtain ⟨record', field', written', hrecord', hfield', hwritten', rfl⟩ := h'
  rw [hrecord] at hrecord'
  obtain rfl := Option.some.inj hrecord'
  rw [hfield] at hfield'
  obtain rfl := Option.some.inj hfield'
  rw [hwritten] at hwritten'
  rw [Option.some.inj hwritten']

variable {bytes : List UInt8} {columns : List Column} {place row : Nat} {c : Column}

/-- Every cell is read from the field at its place. -/
theorem exists_fieldAt (h : Delimited.columns bytes = .ok columns) (hc : columns[place]? = some c)
    {k : Cell} (hk : c.cells[row]? = some k) :
    ∃ text, FieldAt bytes row place text ∧ k = cell text := by
  cases headed_of_columns h with
  | empty => cases hc
  | @headings first body headings cells hrecords _ hrows =>
    obtain ⟨hplace, hcells⟩ := getElem?_columnsOf hc
    rw [hcells, List.getElem?_map, Option.map_eq_some_iff] at hk
    obtain ⟨line, hline, rfl⟩ := hk
    obtain ⟨hrow, rfl⟩ := List.getElem?_eq_some_iff.1 hline
    have hlines := exists_texts_of_rows hrows
    have hrecord : row < body.length := by rw [hlines.length_eq]; exact hrow
    obtain ⟨hwidth, texts, htext, hcellsOf⟩ := hlines.get hrecord hrow
    rw [List.get_eq_getElem] at hwidth htext hcellsOf
    have hfield : place < body[row].length := by rw [hwidth]; exact hplace
    have hinside : place < texts.length := by rw [length_texts? htext]; exact hfield
    have hwritten : fieldText? body[row][place] = some texts[place] := by
      have hget := getElem?_texts? htext place
      rw [List.getElem?_eq_getElem hfield, List.getElem?_eq_getElem hinside] at hget
      exact hget.symm
    have htail : (records bytes).tail = body := by rw [hrecords, List.tail_cons]
    refine ⟨trim texts[place], ⟨_, _, _, ?_, List.getElem?_eq_getElem hfield, hwritten, rfl⟩, ?_⟩
    · rw [htail]
      exact List.getElem?_eq_getElem hrecord
    · rw [hcellsOf, cellsOf, List.getElem?_map, List.getElem?_eq_getElem hinside]
      rfl

/-- **The cells of a delimited file are read from the fields at their places.** -/
theorem cell_of_columns (h : Delimited.columns bytes = .ok columns)
    (hc : columns[place]? = some c) {k : Cell} :
    c.cells[row]? = some k ↔ ∃ text, FieldAt bytes row place text ∧ k = cell text := by
  refine ⟨exists_fieldAt h hc, ?_⟩
  rintro ⟨text, hfield, rfl⟩
  have hrow : row < c.cells.length := by
    rw [length_cells_of_columns h c (List.mem_of_getElem? hc)]
    obtain ⟨record, _, _, hrecord, -⟩ := hfield
    exact (List.getElem?_eq_some_iff.1 hrecord).1
  obtain ⟨text', hfield', hk⟩ := exists_fieldAt h hc (List.getElem?_eq_getElem hrow)
  rw [hfield.unique hfield', ← hk]
  exact List.getElem?_eq_getElem hrow

end Delimited

/-- A table that is loaded from a delimited file has the columns that its bytes give. -/
theorem Table.exists_bytes_of_load {files : Files} {path : Path} {t : Table}
    (hextension : path.extension = "csv") (h : load files path = .ok t) :
    ∃ bytes, files.openFile path = .ok (.bytes bytes) ∧ Delimited.columns bytes = .ok t.columns := by
  cases columnsFrom_of_loadColumns (loadColumns_of_load h) with
  | delimited _ hfile hcolumns => exact ⟨_, hfile, hcolumns⟩
  | records hjson => rw [hextension] at hjson; exact absurd hjson (by decide)
  | columnar hcolumnar => rw [hextension] at hcolumnar; exact absurd hcolumnar (by decide)

end LineChart
