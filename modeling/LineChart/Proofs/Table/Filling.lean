import LineChart.Proofs.Table.Texts

/-!
# Columns filled as the records are read

The columns of a delimited file can be filled while its records are read: field `i` of a record goes
behind the cells that column `i` has so far. Here a field for which there is no column is an outcome
of its own. It never comes about, and the columns are those of the file, because a record is taken
up only if it has a field for each heading.

* `Delimited.fill` : the columns of a file, filled record by record and field by field.
* `Delimited.fillRow_eq` : a record puts one cell behind every column.
* `Delimited.fillRecords_eq` : records put their rows behind the columns.
* `Delimited.fill_eq` : no field is without a column, and the columns are those of the file.
-/

namespace LineChart.Delimited

/-! ### Filling -/

/-- Puts a cell behind those of column `i`, if there is such a column. -/
def append? (columns : List (List Cell)) (i : Nat) (k : Cell) : Option (List (List Cell)) :=
  if i < columns.length then some (columns.modify i (· ++ [k])) else none

/-- Puts the cells of a row behind those of the columns from column `i` on. -/
def fillRow (columns : List (List Cell)) (i : Nat) : List Cell → Option (List (List Cell))
  | [] => some columns
  | k :: row =>
    match append? columns i k with
    | none => none
    | some columns => fillRow columns (i + 1) row

/-- Puts the fields of the records behind those of the columns, from row `row` on, up to the first
record that cannot be taken up. -/
def fillRecords (width : Nat) :
    Nat → List (List Cell) → List Record → Option (Except RecordError (List (List Cell)))
  | _, columns, [] => some (.ok columns)
  | row, columns, record :: rest =>
    if record.length ≠ width then some (.error (.rowLength row))
    else
      match texts? record with
      | none => some (.error (.rowNotText row))
      | some texts =>
        match fillRow columns 0 (cellsOf texts) with
        | none => none
        | some columns => fillRecords width (row + 1) columns rest

/-- The columns of a file. `none` is a field without a column. -/
def fill (bytes : List UInt8) : Option (Except RecordError (List Column)) :=
  match records bytes with
  | [] => some (.ok [])
  | headings :: body =>
    match texts? headings with
    | none => some (.error .headingsNotText)
    | some headings =>
      (fillRecords headings.length 0 (List.replicate headings.length []) body).map fun result =>
        result.map (List.zipWith Column.mk (columnNames 0 headings))

/-! ### Rows -/

/-- The texts of a record are as many as its fields. -/
theorem length_texts? {record : Record} {texts : List String} (h : texts? record = some texts) :
    texts.length = record.length := by
  induction record generalizing texts with
  | nil =>
    obtain rfl := Option.some.inj h
    rfl
  | cons field record ih =>
    rw [texts?] at h
    cases hfield : fieldText? field with
    | none => rw [hfield] at h; cases h
    | some text =>
      cases hrecord : texts? record with
      | none => rw [hfield, hrecord] at h; cases h
      | some rest =>
        rw [hfield, hrecord] at h
        obtain rfl := Option.some.inj h
        rw [List.length_cons, List.length_cons, ih hrecord]

/-- The cells of some records are rows of their width, one for each record. -/
theorem length_of_rows {width row : Nat} {records : List Record} {cells : List (List Cell)}
    (h : rows width row records = .ok cells) :
    cells.length = records.length ∧ ∀ row ∈ cells, row.length = width := by
  induction records generalizing row cells with
  | nil =>
    obtain rfl := Except.ok.inj h
    exact ⟨rfl, by simp⟩
  | cons record records ih =>
    rw [rows] at h
    by_cases hwidth : record.length ≠ width
    · rw [if_pos hwidth] at h
      cases h
    · rw [if_neg hwidth] at h
      cases htexts : texts? record with
      | none => rw [htexts] at h; cases h
      | some texts =>
        cases hrest : rows width (row + 1) records with
        | error e => rw [htexts, hrest] at h; cases h
        | ok rest =>
          rw [htexts, hrest] at h
          obtain rfl := Except.ok.inj h
          obtain ⟨hlength, hrows⟩ := ih hrest
          refine ⟨by rw [List.length_cons, List.length_cons, hlength], ?_⟩
          refine List.forall_mem_cons.2 ⟨?_, hrows⟩
          rw [List.length_map, length_texts? htexts]
          exact Decidable.not_not.1 hwidth

/-- The columns with a cell of a row behind each. -/
def put (columns : List (List Cell)) (row : List Cell) : List (List Cell) :=
  List.zipWith (fun column k => column ++ [k]) columns row

theorem fillRow_append {front back : List (List Cell)} {row : List Cell}
    (h : row.length = back.length) :
    fillRow (front ++ back) front.length row = some (front ++ put back row) := by
  induction row generalizing front back with
  | nil =>
    obtain rfl := List.eq_nil_of_length_eq_zero h.symm
    rfl
  | cons k row ih =>
    obtain ⟨column, back, rfl⟩ := List.exists_cons_of_length_eq_add_one h.symm
    have happend : append? (front ++ column :: back) front.length k =
        some (front ++ (column ++ [k]) :: back) := by
      have hlt : front.length < (front ++ column :: back).length := by simp
      rw [append?, if_pos hlt, List.modify_eq_take_cons_drop hlt]
      simp
    have hrow : fillRow ((front ++ [column ++ [k]]) ++ back) (front.length + 1) row =
        some ((front ++ [column ++ [k]]) ++ put back row) := by
      rw [← ih (by simpa using h), List.length_append, List.length_singleton]
    rw [fillRow, happend]
    simpa [put] using hrow

/-- **A record puts one cell behind every column.** -/
theorem fillRow_eq {columns : List (List Cell)} {row : List Cell}
    (h : row.length = columns.length) : fillRow columns 0 row = some (put columns row) := by
  show fillRow ([] ++ columns) ([] : List (List Cell)).length row = some ([] ++ put columns row)
  exact fillRow_append h

theorem length_put {columns : List (List Cell)} {row : List Cell}
    (h : row.length = columns.length) : (put columns row).length = columns.length := by
  rw [put, List.length_zipWith, h, Nat.min_self]

/-! ### Records -/

/-- **Records put their rows behind the columns**, unless one of them cannot be taken up. -/
theorem fillRecords_eq {width row : Nat} {columns : List (List Cell)} {records : List Record}
    (h : columns.length = width) :
    fillRecords width row columns records =
      some ((rows width row records).map fun cells => cells.foldl put columns) := by
  induction records generalizing row columns with
  | nil => rfl
  | cons record records ih =>
    rw [fillRecords, rows]
    by_cases hwidth : record.length ≠ width
    · rw [if_pos hwidth, if_pos hwidth]
      rfl
    · rw [if_neg hwidth, if_neg hwidth]
      cases htexts : texts? record with
      | none => rfl
      | some texts =>
        have hcells : (cellsOf texts).length = columns.length := by
          rw [cellsOf, List.length_map, length_texts? htexts, h]
          exact Decidable.not_not.1 hwidth
        dsimp only
        rw [fillRow_eq hcells]
        dsimp only
        rw [ih ((length_put hcells).trans h)]
        cases rows width (row + 1) records <;> rfl

/-- Rows behind the columns, one after the other: every column takes up its cell of each row. -/
theorem foldl_put {columns : List (List Cell)} {cells : List (List Cell)}
    (h : ∀ row ∈ cells, row.length = columns.length) :
    cells.foldl put columns = columns.mapIdx fun j column =>
      column ++ cells.map fun row => row[j]?.getD .missing := by
  induction cells generalizing columns with
  | nil => exact List.ext_getElem (by simp) (by simp)
  | cons row cells ih =>
    obtain ⟨hrow, hcells⟩ := List.forall_mem_cons.1 h
    rw [List.foldl_cons, ih (by rwa [length_put hrow])]
    refine List.ext_getElem (by simp [length_put hrow]) ?_
    intro j hj hj'
    have hlt : j < row.length := by
      rw [hrow]
      simpa using hj'
    simp [put, List.getElem?_eq_getElem hlt]

/-- The columns that are filled row by row are those that take their cells out of all rows. -/
theorem zipWith_foldl_put {names : List String} {cells : List (List Cell)}
    (h : ∀ row ∈ cells, row.length = names.length) :
    List.zipWith Column.mk names (cells.foldl put (List.replicate names.length [])) =
      columnsOf names cells := by
  rw [foldl_put (by simpa using h), columnsOf]
  refine List.ext_getElem (by simp) ?_
  intro j hj hj'
  simp

/-- **No field is without a column**, and the columns that are filled are those of the file. -/
theorem fill_eq (bytes : List UInt8) : fill bytes = some (columns bytes) := by
  rw [fill, columns]
  cases records bytes with
  | nil => rfl
  | cons headings body =>
    dsimp only
    cases htexts : texts? headings with
    | none => rfl
    | some headings =>
      dsimp only
      rw [fillRecords_eq List.length_replicate]
      cases hrows : rows headings.length 0 body with
      | error e => rfl
      | ok cells =>
        have hnames : ∀ row ∈ cells, row.length = (columnNames 0 headings).length := by
          rw [length_columnNames]
          exact (length_of_rows hrows).2
        have hfilled := zipWith_foldl_put hnames
        rw [length_columnNames] at hfilled
        exact congrArg (fun columns => some (Except.ok columns)) hfilled

end LineChart.Delimited
