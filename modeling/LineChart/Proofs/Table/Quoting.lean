import LineChart.Proofs.Table.Texts

/-!
# Quoted tables

A table of texts is written with every text between quotes. Loading the file gives the texts back,
whatever characters they hold, each read as a cell. A row of another width than the headings is an
error, except for the row without any text: it is an empty line, which is passed over and not
counted.

* `Delimited.quoteRows` : the file of some rows of texts.
* `Delimited.records_quoteRows` : its records are the rows, the empty ones apart.
* `Delimited.load_quoteRows` : the table that is loaded, or the row that keeps it from being one.
-/

namespace LineChart.Delimited

/-! ### Writing -/

/-- A text between quotes, inner quotes doubled. -/
def quoteText (s : String) : List Char :=
  '"' :: (s.toList.flatMap (fun c => if c = '"' then ['"', '"'] else [c]) ++ ['"'])

/-- The file of some rows of texts, each text between quotes and each row on its line. -/
def quoteRows (rows : List (List String)) : String := textFile (rows.map (List.map quoteText))

/-- Doubling quotes among the characters doubles them among the bytes. -/
theorem encode_doubled (text : List Char) :
    encode (text.flatMap fun c => if c = '"' then ['"', '"'] else [c]) =
      (encode text).flatMap fun b => if b = quote then [quote, quote] else [b] := by
  induction text with
  | nil => rfl
  | cons c text ih =>
    have hc : encode (if c = '"' then ['"', '"'] else [c]) =
        (encode [c]).flatMap fun b => if b = quote then [quote, quote] else [b] := by
      by_cases hquote : c = '"'
      · subst hquote
        decide
      · -- no byte of another character is a quote
        have hbytes : ∀ b ∈ encode [c], (if b = quote then [quote, quote] else [b]) = [b] := by
          intro b hb
          rw [if_neg]
          rintro rfl
          rw [encode, List.flatMap_singleton, mem_utf8EncodeChar_iff (by decide)] at hb
          exact hquote (Char.toNat_inj.1 hb)
        rw [if_neg hquote, List.flatMap_congr hbytes, List.flatMap_singleton']
    rw [List.flatMap_cons, encode_append, hc, ih, ← List.flatMap_append, ← encode_append]
    rfl

theorem encode_quoteText (s : String) : encode (quoteText s) = writeField (utf8 s) := by
  have hquote : encode ['"'] = [quote] := by decide
  rw [quoteText, writeField, ← List.singleton_append, encode_append, encode_append, encode_doubled,
    hquote, utf8_eq]
  rfl

theorem utf8_quoteRows (rows : List (List String)) :
    utf8 (quoteRows rows) =
      (rows.map (List.map fun s => writeField (utf8 s))).flatMap line := by
  rw [quoteRows, utf8_textFile, List.map_map]
  simp only [Function.comp_def, List.map_map, encode_quoteText]

/-! ### Reading -/

/-- **The records of a file of quoted texts** are its rows, the empty ones apart. -/
theorem records_quoteRows (rows : List (List String)) :
    records (utf8 (quoteRows rows)) = (rows.filter (· ≠ [])).map (List.map utf8) := by
  have hspelled : List.Forall₂ (List.Forall₂ Spells)
      (rows.map (List.map fun s => writeField (utf8 s))) (rows.map (List.map utf8)) := by
    rw [List.forall₂_map_left_iff, List.forall₂_map_right_iff, List.forall₂_same]
    intro row _
    rw [List.forall₂_map_left_iff, List.forall₂_map_right_iff, List.forall₂_same]
    intro s _
    exact .quoted _
  have hmark : ((rows.map (List.map fun s => writeField (utf8 s))).flatMap line).head? ≠
      some 0xEF := by
    -- the first byte is a quote, or the line feed of an empty row
    rcases rows with _ | ⟨_ | ⟨s, row⟩, rows⟩
    · decide
    · show some lineFeed ≠ some 0xEF
      decide
    · have hhead : ((((s :: row) :: rows).map
          (List.map fun s => writeField (utf8 s))).flatMap line).head? = some quote := by
        cases row <;> rfl
      rw [hhead]
      decide
  rw [utf8_quoteRows, records_lines hspelled hmark, List.filter_map]
  congr 1
  refine List.filter_congr ?_
  intro row _
  simp

/-! ### Loading -/

section

variable {files : Files} {path : Path} {headings : List String} {body : List (List String)}

theorem records_quoteRows_cons (hne : headings ≠ []) (body : List (List String)) :
    records (utf8 (quoteRows (headings :: body))) =
      (headings :: body.filter (· ≠ [])).map (List.map utf8) := by
  rw [records_quoteRows, List.filter_cons_of_pos (by simpa using hne)]

variable (hextension : path.extension = "csv") (hne : headings ≠ [])
  (hfile : files.openFile path = .ok (.ofText (quoteRows (headings :: body))))

include hextension hne hfile

theorem exists_load_quoteRows
    (hbody : ∀ texts ∈ body, texts = [] ∨ texts.length = headings.length) :
    ∃ t, Table.load files path = .ok t ∧ Shows t headings (body.filter (· ≠ [])) := by
  refine exists_load hextension hfile (records_quoteRows_cons hne body) hne ?_
  intro texts htexts
  obtain ⟨hmem, hpresent⟩ := List.mem_filter.1 htexts
  exact (hbody texts hmem).resolve_left (by simpa using hpresent)

theorem load_quoteRows_eq_error {before after : List (List String)} {texts : List String}
    (hsplit : body.filter (· ≠ []) = before ++ texts :: after)
    (hbefore : ∀ other ∈ before, other.length = headings.length)
    (htexts : texts.length ≠ headings.length) :
    Table.load files path = .error (.file path (.delimited (.rowLength before.length))) :=
  load_eq_rowLength hextension hfile (records_quoteRows_cons hne body) hsplit hbefore htexts

end

/-- The message of a row of the wrong length names the file and the row. -/
theorem message_rowLength (path : Path) (row : Nat) :
    (LoadError.file path (.delimited (.rowLength row))).message =
      "loading " ++ path.text ++ ": " ++ ("CSV row " ++ toString row) := by
  have hmessage : (LoadCause.delimited (.rowLength row)).message = "CSV row " ++ toString row := by
    simp only [LoadCause.message]
    rfl
  have hne : "CSV row " ++ toString row ≠ "" := by
    intro h
    exact absurd (String.append_eq_empty_iff.1 h).1 (by decide)
  rw [LoadError.message_file path (hmessage ▸ hne), hmessage]

/-- **A file of quoted texts is loaded as the table of its texts.** Rows without a text are passed
over. If another row has more or fewer texts than there are headings, the first one is the error, by
its number among the rows that have a text. -/
theorem load_quoteRows (files : Files) (path : Path) (headings : List String)
    (body : List (List String)) (hextension : path.extension = "csv") (hne : headings ≠ [])
    (hfile : files.openFile path = .ok (.ofText (quoteRows (headings :: body)))) :
    ((∀ texts ∈ body, texts = [] ∨ texts.length = headings.length) →
      ∃ t, Table.load files path = .ok t ∧ Shows t headings (body.filter (· ≠ []))) ∧
    ∀ before texts after, body.filter (· ≠ []) = before ++ texts :: after →
      (∀ other ∈ before, other.length = headings.length) → texts.length ≠ headings.length →
      ∃ e, Table.load files path = .error e ∧
        e = .file path (.delimited (.rowLength before.length)) ∧
        e.message = "loading " ++ path.text ++ ": " ++ ("CSV row " ++ toString before.length) := by
  constructor
  · intro hbody
    exact exists_load_quoteRows hextension hne hfile hbody
  · intro before texts after hsplit hbefore htexts
    exact ⟨_, load_quoteRows_eq_error hextension hne hfile hsplit hbefore htexts, rfl,
      message_rowLength path before.length⟩

/-! ### A file of notes -/

/-- A single file of quoted texts. -/
def notes (rows : List (List String)) : Files :=
  { entries := [(["notes.csv"], .file (.ofText (quoteRows rows)))] }

theorem openFile_notes (rows : List (List String)) :
    (notes rows).openFile ⟨"notes.csv"⟩ = .ok (.ofText (quoteRows rows)) := rfl

theorem extension_notes : (⟨"notes.csv"⟩ : Path).extension = "csv" := by decide +kernel

/-- Commas, quotes and line ends in the texts, a heading without a name and an empty row; then the
same rows with a short one at the end. -/
theorem load_notes :
    (∃ t, Table.load (notes [["", " said "], ["1", "\"a,\r\nb\""], [], ["", "é"]]) ⟨"notes.csv"⟩ =
        .ok t ∧ Shows t ["", " said "] [["1", "\"a,\r\nb\""], ["", "é"]]) ∧
      ∃ e, Table.load (notes [["", " said "], ["1", "\"a,\r\nb\""], [], ["2"]]) ⟨"notes.csv"⟩ =
        .error e ∧ e.message = "loading notes.csv: CSV row 1" := by
  have hne : ["", " said "] ≠ [] := List.cons_ne_nil _ _
  constructor
  · refine (load_quoteRows _ _ _ _ extension_notes hne (openFile_notes _)).1 ?_
    decide
  · obtain ⟨e, he, -, hmessage⟩ := (load_quoteRows _ _ _ [["1", "\"a,\r\nb\""], [], ["2"]]
      extension_notes hne (openFile_notes _)).2 [["1", "\"a,\r\nb\""]] ["2"] [] (by decide)
        (by decide) (by decide)
    refine ⟨e, he, ?_⟩
    rw [hmessage]
    decide +kernel

/-- **A row without a text is not refused**, although it has fewer texts than there are headings. -/
theorem exists_short_row_loaded :
    ¬ ∀ (files : Files) (path : Path) (headings : List String)
      (body before after : List (List String)) (texts : List String), path.extension = "csv" → headings ≠ [] →
      files.openFile path = .ok (.ofText (quoteRows (headings :: body))) →
      body = before ++ texts :: after → (∀ other ∈ before, other.length = headings.length) →
      texts.length ≠ headings.length →
      Table.load files path = .error (.file path (.delimited (.rowLength before.length))) := by
  intro h
  have hne : ["a"] ≠ [] := List.cons_ne_nil _ _
  have herror := h (notes [["a"], []]) ⟨"notes.csv"⟩ ["a"] [[]] [] [] [] extension_notes hne
    (openFile_notes _) rfl (by decide) (by decide)
  have hbody : ∀ texts ∈ [([] : List String)], texts = [] ∨ texts.length = ["a"].length := by
    decide
  obtain ⟨t, ht, -⟩ := exists_load_quoteRows extension_notes hne (openFile_notes [["a"], []]) hbody
  rw [ht] at herror
  cases herror

end LineChart.Delimited
