import LineChart.Proofs.Table.Lines
import LineChart.Proofs.Table.Loading

/-!
# Tables of texts

What is made of the records of a delimited file whose fields are texts: the first record names the
columns, and every other one is a row of cells, unless its length differs.

* `Delimited.rows_eq_ok`, `Delimited.rows_eq_error` : the rows, or the first of another width.
* `Delimited.Shows` : a table with the columns and cells of some headings and rows.
* `Delimited.exists_load` : a file of such records is loaded as the table that shows them.
-/

namespace LineChart.Delimited

/-! ### Rows -/

theorem fieldText?_utf8 (s : String) : fieldText? (utf8 s) = some s := fromUTF8?_utf8 s

theorem texts?_map_utf8 (row : List String) : texts? (row.map utf8) = some row := by
  induction row with
  | nil => rfl
  | cons s row ih => rw [List.map_cons, texts?, fieldText?_utf8, ih]

/-- The cells of a row. -/
def cellsOf (row : List String) : List Cell := row.map fun text => cell (trim text)

variable {width row : Nat} {body : List (List String)}

theorem rows_eq_ok (h : ∀ texts ∈ body, texts.length = width) :
    rows width row (body.map (List.map utf8)) = .ok (body.map cellsOf) := by
  induction body generalizing row with
  | nil => rfl
  | cons texts body ih =>
    obtain ⟨htexts, hbody⟩ := List.forall_mem_cons.1 h
    have hlength : ¬ (texts.map utf8).length ≠ width := by rw [List.length_map, htexts]; simp
    rw [List.map_cons, rows, if_neg hlength, texts?_map_utf8, ih hbody]
    rfl

/-- **The first row of another width is the error.** -/
theorem rows_eq_error {before after : List (List String)} {texts : List String}
    (hbefore : ∀ other ∈ before, other.length = width) (htexts : texts.length ≠ width) :
    rows width row ((before ++ texts :: after).map (List.map utf8)) =
      .error (.rowLength (row + before.length)) := by
  induction before generalizing row with
  | nil =>
    have hlength : (texts.map utf8).length ≠ width := by rw [List.length_map]; exact htexts
    rw [List.nil_append, List.map_cons, rows, if_pos hlength]
    rfl
  | cons other before ih =>
    obtain ⟨hother, hbefore⟩ := List.forall_mem_cons.1 hbefore
    have hlength : ¬ (other.map utf8).length ≠ width := by rw [List.length_map, hother]; simp
    rw [List.cons_append, List.map_cons, rows, if_neg hlength, texts?_map_utf8, ih hbefore,
      List.length_cons, Nat.add_assoc, Nat.add_comm 1]

/-! ### Tables -/

theorem columnName_eq (j : Nat) (heading : String) :
    columnName j heading =
      if trim heading = "" then "Unnamed: " ++ toString j else trim heading := by
  simp only [columnName]
  rfl

theorem columnNames_eq (j : Nat) (headings : List String) :
    columnNames j headings = (headings.zipIdx j).map fun entry => columnName entry.2 entry.1 := by
  induction headings generalizing j with
  | nil => rfl
  | cons heading headings ih => rw [columnNames, ih, List.zipIdx_cons, List.map_cons]

theorem length_columnNames (j : Nat) (headings : List String) :
    (columnNames j headings).length = headings.length := by
  rw [columnNames_eq, List.length_map, List.length_zipIdx]

/-- A table has a column for each heading, in order, and a row for each row of texts: the column of
heading `j` holds the text `j` of every row as a cell. -/
structure Shows (t : Table) (headings : List String) (body : List (List String)) : Prop where
  length : t.length = body.length
  columns : List.Forall₂ (fun (entry : String × Nat) (c : Column) =>
    (c.name = if trim entry.1 = "" then "Unnamed: " ++ toString entry.2 else trim entry.1) ∧
      List.Forall₂ (fun (texts : List String) k =>
        ∃ text, texts[entry.2]? = some text ∧ k = cell (trim text)) body c.cells)
    headings.zipIdx t.columns

/-- **Rows of one width make a table** that shows them. -/
theorem exists_shows {headings : List String} (hne : headings ≠ [])
    (hbody : ∀ texts ∈ body, texts.length = headings.length) :
    ∃ t, Table.ofColumns (columnsOf (columnNames 0 headings) (body.map cellsOf)) = .ok t ∧
      Shows t headings body := by
  have hlength : ∀ c ∈ columnsOf (columnNames 0 headings) (body.map cellsOf),
      c.cells.length = body.length := by
    intro c hc
    obtain ⟨entry, -, rfl⟩ := List.mem_map.1 hc
    rw [List.length_map, List.length_map]
  obtain ⟨t, ht, hcolumns, hrows⟩ := Table.exists_ofColumns hlength
  have hcolumnsne : columnsOf (columnNames 0 headings) (body.map cellsOf) ≠ [] := by
    simpa [columnsOf, columnNames_eq] using hne
  refine ⟨t, ht, hrows hcolumnsne, ?_⟩
  · rw [hcolumns]
    refine List.forall₂_iff_get.2 ⟨?_, ?_⟩
    · simp [columnsOf, length_columnNames]
    · intro j hj hj'
      have hheading : j < headings.length := by simpa using hj
      have hcolumn : (columnsOf (columnNames 0 headings) (body.map cellsOf)).get ⟨j, hj'⟩ =
          ⟨columnName j headings[j], (body.map cellsOf).map fun row => row[j]?.getD .missing⟩ := by
        simp [columnsOf, columnNames_eq]
      rw [hcolumn, List.get_eq_getElem, List.getElem_zipIdx, Nat.zero_add]
      dsimp only
      refine ⟨columnName_eq j _, ?_⟩
      rw [List.map_map, List.forall₂_map_right_iff, List.forall₂_same]
      intro texts htexts
      have htext : j < texts.length := by rw [hbody texts htexts]; exact hheading
      refine ⟨texts[j], List.getElem?_eq_getElem htext, ?_⟩
      simp [cellsOf, htext]

/-! ### Loading -/

section

variable {files : Files} {path : Path} {text : String} {headings : List String}

/-- The columns of a file by its records. -/
theorem columns_of_records {bytes : List UInt8}
    (hrecords : records bytes = (headings :: body).map (List.map utf8)) :
    columns bytes = (rows headings.length 0 (body.map (List.map utf8))).map
      (columnsOf (columnNames 0 headings)) := by
  rw [columns, hrecords, List.map_cons]
  simp only [texts?_map_utf8]
  cases rows headings.length 0 (body.map (List.map utf8)) <;> rfl

variable (hextension : path.extension = "csv") (hfile : files.openFile path = .ok (.ofText text))
  (hrecords : records (utf8 text) = (headings :: body).map (List.map utf8))

include hextension hfile hrecords

/-- **A file of rows of one width is loaded as the table that shows them.** -/
theorem exists_load (hne : headings ≠ [])
    (hbody : ∀ texts ∈ body, texts.length = headings.length) :
    ∃ t, Table.load files path = .ok t ∧ Shows t headings body := by
  obtain ⟨t, ht, hshows⟩ := exists_shows hne hbody
  refine ⟨t, Table.load_eq_ok ?_ ht, hshows⟩
  rw [loadColumns_csv hextension hfile, columns_of_records hrecords, rows_eq_ok hbody]
  rfl

/-- **A row of another width keeps a file from being loaded.** -/
theorem load_eq_rowLength {before after : List (List String)} {texts : List String}
    (hsplit : body = before ++ texts :: after)
    (hbefore : ∀ other ∈ before, other.length = headings.length)
    (htexts : texts.length ≠ headings.length) :
    Table.load files path = .error (.file path (.delimited (.rowLength before.length))) := by
  subst hsplit
  refine Table.load_eq_error ?_
  rw [loadColumns_csv hextension hfile, columns_of_records hrecords,
    rows_eq_error hbefore htexts, Nat.zero_add]
  rfl

end

end LineChart.Delimited
