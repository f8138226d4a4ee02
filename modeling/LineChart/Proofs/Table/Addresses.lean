import LineChart.Proofs.Table.Conversion
import LineChart.Proofs.Table.Gathering
import LineChart.Proofs.Table.Rows

/-!
# Columns reached by their names

A column is asked for by its name and the first of that name is found. So a column is reached exactly
if no column in front of it has the same name, and all columns are reached exactly if their names are
distinct. The names of a list of records always are. Headings and the names in a columnar file need
not be.

* `Table.position?` : the position at which the search for a name stops.
* `Table.Reached` : all questions under the name of a column are about that column.
* `FileNames` : the names that a file gives to its columns.
* `Table.load_reaches` : which columns of a loaded table are reached.
-/

namespace LineChart

namespace Table

variable {t : Table} {name : String} {c : Column} {j : Nat}

/-- The position of the first column of a name. -/
def position? (t : Table) (name : String) : Option Nat :=
  t.columns.findIdx? fun c => c.name = name

theorem position?_eq_some_iff : t.position? name = some j ↔
    t.columnNames[j]? = some name ∧ ∀ i < j, t.columnNames[i]? ≠ some name := by
  rw [position?, List.findIdx?_eq_some_iff_getElem]
  simp only [columnNames, List.getElem?_map, Option.map_eq_some_iff, ne_eq]
  constructor
  · intro h
    obtain ⟨hj, hname, hbefore⟩ := h
    refine ⟨⟨t.columns[j], List.getElem?_eq_getElem hj, by simpa using hname⟩, ?_⟩
    intro i hi hsame
    obtain ⟨b, hb, hbname⟩ := hsame
    obtain ⟨_, rfl⟩ := List.getElem?_eq_some_iff.1 hb
    exact absurd hbname (by simpa using hbefore i hi)
  · intro h
    obtain ⟨⟨c, hc, hname⟩, hbefore⟩ := h
    obtain ⟨hj, rfl⟩ := List.getElem?_eq_some_iff.1 hc
    refine ⟨hj, by simpa using hname, ?_⟩
    intro i hi
    have hne := hbefore i hi
    rw [List.getElem?_eq_getElem (Nat.lt_trans hi hj)] at hne
    simpa using hne

/-- **The column of a name is the one at which the search stops.** -/
theorem column_of_position? (h : t.position? name = some j) (hc : t.columns[j]? = some c) :
    t.column name = .ok c := by
  obtain ⟨hj, rfl⟩ := List.getElem?_eq_some_iff.1 hc
  have hfind : t.columns.find? (fun c => c.name = name) = some t.columns[j] := by
    rw [position?, List.findIdx?_eq_some_iff_findIdx_eq] at h
    rw [List.find?_eq_some_iff_getElem]
    obtain ⟨hname, hbefore⟩ := (List.findIdx_eq hj).1 h.2
    exact ⟨hname, j, hj, rfl, fun i hi => by simpa using hbefore i hi⟩
  rw [column, hfind]

/-- The name of column `j`, which is `c`, stands for that very column: the search for the name stops
there, and whatever is asked under the name is about its cells. -/
structure Reached (t : Table) (j : Nat) (c : Column) : Prop where
  position : t.position? c.name = some j
  column : t.column c.name = .ok c
  numbers : t.numbers c.name = numbersFrom c.name 0 c.cells
  groups : t.groups c.name = .ok (Groups.ofCells 0 c.cells)
  rowsWhere : ∀ wanted, t.rowsWhere c.name wanted = .ok (rowsAgreeing wanted 0 c.cells)

theorem reached_of_position? (hc : t.columns[j]? = some c) (h : t.position? c.name = some j) :
    t.Reached j c := by
  have hcolumn := column_of_position? h hc
  refine ⟨h, hcolumn, ?_, ?_, ?_⟩
  · rw [numbers, hcolumn]
  · rw [Table.groups, hcolumn]
    rfl
  · intro wanted
    rw [Table.rowsWhere, hcolumn]
    rfl

/-- **A column is reached exactly if no column in front of it has its name.** -/
theorem reached_iff (hc : t.columns[j]? = some c) :
    t.Reached j c ↔ ∀ i < j, t.columnNames[i]? ≠ some c.name := by
  have hname : t.columnNames[j]? = some c.name := by rw [columnNames, List.getElem?_map, hc]; rfl
  constructor
  · intro h
    exact (position?_eq_some_iff.1 h.position).2
  · intro h
    exact reached_of_position? hc (position?_eq_some_iff.2 ⟨hname, h⟩)

/-- The name of a column always reaches a column of that name, the first one. -/
theorem exists_reached (hc : t.columns[j]? = some c) :
    ∃ i b, i ≤ j ∧ t.columns[i]? = some b ∧ b.name = c.name ∧ t.Reached i b := by
  have hname : t.columnNames[j]? = some c.name := by rw [columnNames, List.getElem?_map, hc]; rfl
  cases hposition : t.position? c.name with
  | none =>
    have hnot : decide (c.name = c.name) = false :=
      List.findIdx?_eq_none_iff.1 hposition c (List.mem_of_getElem? hc)
    simp at hnot
  | some i =>
    obtain ⟨hi, hbefore⟩ := position?_eq_some_iff.1 hposition
    rw [columnNames, List.getElem?_map] at hi
    obtain ⟨b, hb, hsame⟩ := Option.map_eq_some_iff.1 hi
    refine ⟨i, b, ?_, hb, hsame, reached_of_position? hb (hsame ▸ hposition)⟩
    by_contra hlt
    exact hbefore j (Nat.lt_of_not_le hlt) hname

/-- The first column of a name stands where the search for the name stops. -/
theorem FirstNamed.exists_position (h : t.FirstNamed name c) :
    ∃ j, t.position? name = some j ∧ t.columns[j]? = some c := by
  obtain ⟨before, after, hcolumns, hname, -⟩ := id h
  have hc : t.columns[before.length]? = some c := by
    rw [hcolumns, List.getElem?_append_right (Nat.le_refl _), Nat.sub_self]
    rfl
  obtain ⟨j, b, -, hb, hsame, hreached⟩ := exists_reached hc
  rw [hname] at hsame
  have hfirst : t.FirstNamed name b := column_eq_ok_iff.1 (hsame ▸ hreached.column)
  rw [hfirst.unique h] at hb
  exact ⟨j, hsame ▸ hreached.position, hb⟩

/-- **All columns are reached exactly if their names are distinct.** -/
theorem all_reached_iff :
    (∀ j c, t.columns[j]? = some c → t.Reached j c) ↔ t.columnNames.Nodup := by
  rw [List.nodup_iff_getElem?_ne_getElem?]
  constructor
  · intro h i j hij hj hsame
    have hcolumn : j < t.columns.length := by simpa [columnNames] using hj
    have hc : t.columns[j]? = some t.columns[j] := List.getElem?_eq_getElem hcolumn
    have hno := (reached_iff hc).1 (h j _ hc) i hij
    rw [hsame, columnNames, List.getElem?_map, hc] at hno
    exact hno rfl
  · intro h j c hc
    refine (reached_iff hc).2 ?_
    intro i hi hsame
    obtain ⟨hj, rfl⟩ := List.getElem?_eq_some_iff.1 hc
    refine h i j hi (by simpa [columnNames] using hj) ?_
    rw [hsame, columnNames, List.getElem?_map, hc]
    rfl

end Table

/-! ### Names of files -/

/-- The names that a file gives to its columns: its headings without outer blanks, where a blank one
gets its number for a name, the names in its records in the order of first appearance, or those of its
typed columns. A delimited file without any record has no columns. -/
inductive FileNames (files : Files) (path : Path) : List String → Prop
  | empty {bytes : List UInt8} (hextension : path.extension = "csv")
      (hfile : files.openFile path = .ok (.bytes bytes)) (hrecords : Delimited.records bytes = []) :
      FileNames files path []
  | delimited {bytes : List UInt8} {first : Delimited.Record} {body : List Delimited.Record}
      {headings : List String} (hextension : path.extension = "csv")
      (hfile : files.openFile path = .ok (.bytes bytes))
      (hrecords : Delimited.records bytes = first :: body)
      (htexts : Delimited.texts? first = some headings) :
      FileNames files path (headings.zipIdx.map fun entry =>
        if Delimited.trim entry.1 = "" then "Unnamed: " ++ toString entry.2
        else Delimited.trim entry.1)
  | records {text : String} {records : List Records.Record} (hextension : path.extension = "json")
      (hfile : files.readText path = .ok text)
      (hread : Json.read? text = some (.list (records.map Json.record))) :
      FileNames files path (Records.names records)
  | columnar {file : Columnar.File} (hextension : path.extension = "parquet" ∨ path.extension = "pq")
      (hfile : files.openFile path = .ok (.columnar file)) : FileNames files path file.columnNames

/-- The columns of a delimited file are named by its headings. -/
theorem Delimited.names_of_columns {bytes : List UInt8} {columns : List Column}
    (h : Delimited.columns bytes = .ok columns) :
    (records bytes = [] ∧ columns = []) ∨
      ∃ first body headings, records bytes = first :: body ∧ texts? first = some headings ∧
        columns.map Column.name = headings.zipIdx.map fun entry =>
          if trim entry.1 = "" then "Unnamed: " ++ toString entry.2 else trim entry.1 := by
  cases headed_of_columns h with
  | empty hrecords => exact .inl ⟨hrecords, rfl⟩
  | @headings first body headings cells hrecords htexts _ =>
    refine .inr ⟨first, body, headings, hrecords, htexts, ?_⟩
    have hnames : (columnsOf (columnNames 0 headings) cells).map Column.name =
        columnNames 0 headings := by
      rw [columnsOf, List.map_map]
      exact List.zipIdx_map_fst 0 _
    rw [hnames, columnNames_eq]
    exact List.map_congr_left fun entry _ => columnName_eq entry.2 entry.1

/-- **Columns that are loaded have the names that the file gives.** -/
theorem fileNames_of_loadColumns {files : Files} {path : Path} {columns : List Column}
    (h : loadColumns files path = .ok columns) :
    FileNames files path (columns.map Column.name) := by
  cases columnsFrom_of_loadColumns h with
  | delimited hextension hfile hcolumns =>
    rcases Delimited.names_of_columns hcolumns with ⟨hrecords, rfl⟩ |
      ⟨first, body, headings, hrecords, htexts, hnames⟩
    · exact .empty hextension hfile hrecords
    · rw [hnames]
      exact .delimited hextension hfile hrecords htexts
  | records hextension hfile hread hcolumns =>
    obtain ⟨records, rfl, rfl⟩ := Records.columns_eq_ok_iff.1 hcolumns
    have hnames : ((Records.names records).map fun name =>
        (⟨name, records.map (Records.cellOf name)⟩ : Column)).map Column.name =
          Records.names records := by
      rw [List.map_map]
      exact List.map_id _
    rw [hnames]
    exact .records hextension hfile hread
  | @columnar file _ hextension hfile hcolumns =>
    obtain ⟨converted, hconverted, rfl⟩ := Columnar.columns_eq_ok_iff.1 hcolumns
    have hnames : (List.zipWith Column.mk file.columnNames converted).map Column.name =
        file.columnNames :=
      map_eq_map_of_forall₂
        ((Columnar.readFrom_of_converts hconverted).imp fun typed c hread => hread.name)
    rw [hnames]
    exact .columnar hextension hfile

/-- The names in a list of records are distinct. -/
theorem FileNames.nodup {files : Files} {path : Path} {names : List String}
    (h : FileNames files path names) (hjson : path.extension = "json") : names.Nodup := by
  cases h with
  | empty hcsv => rw [hjson] at hcsv; exact absurd hcsv (by decide)
  | delimited hcsv => rw [hjson] at hcsv; exact absurd hcsv (by decide)
  | columnar hcolumnar => rw [hjson] at hcolumnar; exact absurd hcolumnar (by decide)
  | records => exact Records.nodup_names _

namespace Table

/-- **A column of a loaded table is reached by its name exactly if no column in front of it has the
same name**; otherwise the name reaches the first column that has it. All columns are reached exactly
if the names in the file are distinct, as those of a list of records always are. -/
theorem load_reaches (files : Files) (path : Path) (t : Table) (h : load files path = .ok t) :
    FileNames files path t.columnNames ∧
    (path.extension = "json" → t.columnNames.Nodup) ∧
    (∀ j c, t.columns[j]? = some c →
      (t.Reached j c ↔ ∀ i < j, t.columnNames[i]? ≠ some c.name) ∧
        ∃ i b, i ≤ j ∧ t.columns[i]? = some b ∧ b.name = c.name ∧ t.Reached i b) ∧
    ((∀ j c, t.columns[j]? = some c → t.Reached j c) ↔ t.columnNames.Nodup) := by
  have hnames : FileNames files path t.columnNames :=
    fileNames_of_loadColumns (loadColumns_of_load h)
  exact ⟨hnames, hnames.nodup, fun j c hc => ⟨reached_iff hc, exists_reached hc⟩, all_reached_iff⟩

/-- A file with two columns of one name, and one with a blank heading. -/
def headedFiles : Files :=
  { entries := [(["twice.csv"], .file (.ofText "a,a\n1,2\n")),
      (["blank.csv"], .file (.ofText " a ,\n1,2\n"))] }

theorem load_reaches_headedFiles :
    (∃ t, load headedFiles ⟨"blank.csv"⟩ = .ok t ∧ t.columnNames = ["a", "Unnamed: 1"] ∧
      ∀ j c, t.columns[j]? = some c → t.Reached j c) ∧
    ∃ t, load headedFiles ⟨"twice.csv"⟩ = .ok t ∧ t.columnNames = ["a", "a"] ∧
      ¬ ∀ j c, t.columns[j]? = some c → t.Reached j c := by
  constructor
  · obtain ⟨t, ht, hnames⟩ := exists_ok_of_map (show (load headedFiles ⟨"blank.csv"⟩).toOption.map
      columnNames = some ["a", "Unnamed: 1"] by decide +kernel)
    refine ⟨t, ht, hnames, (load_reaches headedFiles ⟨"blank.csv"⟩ t ht).2.2.2.2 ?_⟩
    rw [hnames]
    decide
  · obtain ⟨t, ht, hnames⟩ := exists_ok_of_map (show (load headedFiles ⟨"twice.csv"⟩).toOption.map
      columnNames = some ["a", "a"] by decide +kernel)
    refine ⟨t, ht, hnames, ?_⟩
    rw [(load_reaches headedFiles ⟨"twice.csv"⟩ t ht).2.2.2, hnames]
    decide

/-- **A column of a loaded table need not be reached**: the name of the second column gives the
first. -/
theorem exists_column_not_reached :
    ∃ t c, load headedFiles ⟨"twice.csv"⟩ = .ok t ∧ t.columns[1]? = some c ∧
      t.column c.name ≠ .ok c := by
  obtain ⟨t, ht, hcolumns⟩ := exists_ok_of_map (show (load headedFiles ⟨"twice.csv"⟩).toOption.map
    columns = some [⟨"a", [.integer 1]⟩, ⟨"a", [.integer 2]⟩] by decide +kernel)
  refine ⟨t, ⟨"a", [.integer 2]⟩, ht, by rw [hcolumns]; rfl, ?_⟩
  intro hcolumn
  rw [column, hcolumns] at hcolumn
  exact absurd (Except.ok.inj hcolumn) (by decide)

end Table

end LineChart
