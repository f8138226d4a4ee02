import LineChart.Proofs.Table.Batches
import LineChart.Proofs.Table.Filling
import LineChart.Proofs.Table.Groups
import LineChart.Proofs.Table.Records

/-!
# The rows of a loaded table

A table that is loaded has a row for each row of its file, in every column. Whatever is asked of it
is therefore about the same rows, and its columns are never refused for their lengths.

* `FileRows` : the number of rows that a file holds.
* `Delimited.Headed` : the columns that come out of a delimited file.
* `exists_fileRows` : the columns that are loaded have that many cells each.
* `Table.HasRows` : all that can be asked of a table is about the rows below a number.
* `Table.hasRows` : it is about those below the table's length.
* `Table.exists_load_iff` : a file is loaded exactly if its columns are.
* `Table.load_rows` : loading never fails for the lengths of columns, finds every column that it asks
  for, and gives tables with the rows of their files.
-/

namespace LineChart

/-! ### Rows of files -/

/-- The number of rows that a file holds: its records behind the headings, the records of a list if
one of them has a field, or the rows of a columnar file. -/
inductive FileRows (files : Files) (path : Path) : Nat → Prop
  | delimited {bytes : List UInt8} (hextension : path.extension = "csv")
      (hfile : files.openFile path = .ok (.bytes bytes)) :
      FileRows files path (Delimited.records bytes).tail.length
  | records {text : String} {records : List Records.Record} (hextension : path.extension = "json")
      (hfile : files.readText path = .ok text)
      (hread : Json.read? text = some (.list (records.map Json.record)))
      (hfield : ∃ record ∈ records, record ≠ []) : FileRows files path records.length
  | noFields {text : String} {records : List Records.Record} (hextension : path.extension = "json")
      (hfile : files.readText path = .ok text)
      (hread : Json.read? text = some (.list (records.map Json.record)))
      (hnone : ∀ record ∈ records, record = []) : FileRows files path 0
  | columnar {file : Columnar.File} (hextension : path.extension = "parquet" ∨ path.extension = "pq")
      (hfile : files.openFile path = .ok (.columnar file)) : FileRows files path file.length

namespace Delimited

variable {bytes : List UInt8} {columns : List Column}

/-- The columns that come out of a delimited file: none of an empty file, and otherwise one for each
heading, which the first record holds, made of the rows behind it. -/
inductive Headed (bytes : List UInt8) : List Column → Prop
  | empty (hrecords : records bytes = []) : Headed bytes []
  | headings {first : Record} {body : List Record} {headings : List String}
      {cells : List (List Cell)} (hrecords : records bytes = first :: body)
      (htexts : texts? first = some headings) (hcells : rows headings.length 0 body = .ok cells) :
      Headed bytes (columnsOf (columnNames 0 headings) cells)

theorem headed_of_columns (h : Delimited.columns bytes = .ok columns) : Headed bytes columns := by
  rw [Delimited.columns] at h
  cases hrecords : records bytes with
  | nil =>
    rw [hrecords] at h
    obtain rfl := Except.ok.inj h
    exact .empty hrecords
  | cons first body =>
    rw [hrecords] at h
    dsimp only at h
    split at h
    · cases h
    · next headings htexts =>
      split at h
      · cases h
      · next cells hcells =>
        obtain rfl := Except.ok.inj h
        exact .headings hrecords htexts hcells

/-- Every column of a delimited file has a cell for each record behind the headings. -/
theorem length_cells_of_columns (h : Delimited.columns bytes = .ok columns) :
    ∀ c ∈ columns, c.cells.length = (records bytes).tail.length := by
  cases headed_of_columns h with
  | empty => simp
  | headings hrecords _ hcells =>
    intro c hc
    obtain ⟨entry, -, rfl⟩ := List.mem_map.1 hc
    rw [List.length_map, hrecords]
    exact (length_of_rows hcells).1

/-- A delimited file without columns has no record at all. -/
theorem records_of_columns_nil (h : Delimited.columns bytes = .ok []) : records bytes = [] := by
  generalize hcolumns : ([] : List Column) = columns at h
  cases headed_of_columns h with
  | empty hrecords => exact hrecords
  | @headings first body headings _ hrecords htexts =>
    -- without columns there are no headings, but every record has a field
    have hnone : headings = [] := by
      have hnames := hcolumns.symm
      simpa [columnsOf, columnNames_eq] using hnames
    have hlength := length_texts? htexts
    rw [hnone] at hlength
    have hne : first ≠ [] := ne_nil_of_mem_records (by rw [hrecords]; exact List.mem_cons_self)
    exact absurd (List.eq_nil_of_length_eq_zero hlength.symm) hne

end Delimited

namespace Columnar

variable {f : File} {columns : List Column}

/-- Every column of a columnar file has a cell for each of its rows. -/
theorem length_cells_of_columns (h : Columnar.columns f = .ok columns) :
    ∀ c ∈ columns, c.cells.length = f.length := by
  obtain ⟨converted, hconverted, rfl⟩ := columns_eq_ok_iff.1 h
  have hlengths := length_of_converts hconverted
  intro c hc
  obtain ⟨i, hi, rfl⟩ := List.mem_iff_getElem.1 hc
  rw [List.getElem_zipWith]
  exact hlengths _ (List.getElem_mem _)

theorem length_of_columns_nil (h : Columnar.columns f = .ok []) : f.length = 0 := by
  obtain ⟨converted, hconverted, hnil⟩ := columns_eq_ok_iff.1 h
  have hcolumns : f.columns = [] := by
    have hnone := congrArg List.length hnil
    rw [List.length_zipWith, ← hconverted.length_eq, File.columnNames, List.length_map,
      Nat.min_self] at hnone
    exact List.eq_nil_of_length_eq_zero hnone.symm
  rw [File.length, hcolumns]
  rfl

end Columnar

/-- **The columns that are loaded have a cell for each row of the file.** -/
theorem exists_fileRows {files : Files} {path : Path} {columns : List Column}
    (h : loadColumns files path = .ok columns) :
    ∃ n, FileRows files path n ∧ (∀ c ∈ columns, c.cells.length = n) ∧ (columns = [] → n = 0) := by
  cases columnsFrom_of_loadColumns h with
  | delimited hextension hfile hcolumns =>
    refine ⟨_, .delimited hextension hfile, Delimited.length_cells_of_columns hcolumns, ?_⟩
    rintro rfl
    rw [Delimited.records_of_columns_nil hcolumns]
    rfl
  | records hextension hfile hread hcolumns =>
    obtain ⟨records, rfl, rfl⟩ := Records.columns_eq_ok_iff.1 hcolumns
    have hlength : ∀ c ∈ (Records.names records).map fun name =>
        (⟨name, records.map (Records.cellOf name)⟩ : Column), c.cells.length = records.length := by
      intro c hc
      obtain ⟨name, -, rfl⟩ := List.mem_map.1 hc
      exact List.length_map _
    by_cases hnone : ∀ record ∈ records, record = []
    · refine ⟨0, .noFields hextension hfile hread hnone, ?_, fun _ => rfl⟩
      rw [Records.names_eq_nil_iff.2 hnone]
      simp
    · have hfield : ∃ record ∈ records, record ≠ [] := by simpa using hnone
      refine ⟨_, .records hextension hfile hread hfield, hlength, ?_⟩
      intro hnil
      exact absurd (Records.names_eq_nil_iff.1 (List.map_eq_nil_iff.1 hnil)) hnone
  | columnar hextension hfile hcolumns =>
    refine ⟨_, .columnar hextension hfile, Columnar.length_cells_of_columns hcolumns, ?_⟩
    rintro rfl
    exact Columnar.length_of_columns_nil hcolumns

/-! ### Rows of tables -/

namespace Table

/-- All that can be asked of a table is about the rows below `n`: its columns have a cell for each,
they are the row numbers, a column has a number for each, each is in the group of its cell and in no
other, and a filter keeps those of them whose cell agrees. -/
structure HasRows (t : Table) (n : Nat) : Prop where
  length : t.length = n
  columns : ∀ c ∈ t.columns, c.cells.length = n
  index : t.index = (List.range n).map Binary.ofNat
  cells : ∀ name c, t.column name = .ok c → ∀ row, row < n ↔ ∃ k, t.CellAt name row k
  numbers : ∀ name xs, t.numbers name = .ok xs → xs.length = n ∧
    ∀ row x, xs[row]? = some x → ∃ k, t.CellAt name row k ∧ k.number? = some x
  groups : ∀ name groups, t.groups name = .ok groups →
    ∀ row k, t.CellAt name row k ↔ ∃ rows, (k, rows) ∈ groups ∧ row ∈ rows
  filtered : ∀ name wanted rows, t.rowsWhere name wanted = .ok rows →
    ∀ row, row ∈ rows ↔ ∃ k, t.CellAt name row k ∧ k.agrees wanted = true

variable {t : Table} {name : String}

/-- A row is in the group of its cell, and in no other. -/
theorem cellAt_iff_mem_groups {groups : Groups} (h : t.groups name = .ok groups) (row : Nat)
    (k : Cell) : t.CellAt name row k ↔ ∃ rows, (k, rows) ∈ groups ∧ row ∈ rows := by
  obtain ⟨c, hc, rfl⟩ := groups_eq_ok_iff.1 h
  have hmem : ∀ rows, (k, rows) ∈ Groups.ofCells 0 c.cells →
      (row ∈ rows ↔ c.cells[row]? = some k) := by
    intro rows hrows
    have hpassing : rows = rowsPassing (fun cell => decide (cell = k)) 0 c.cells :=
      Groups.rows_of_mem_ofCells hrows
    rw [hpassing, mem_rowsPassing]
    simp
  rw [hc.cellAt_iff]
  constructor
  · intro hcell
    have hkey : k ∈ Groups.keys (Groups.ofCells 0 c.cells) :=
      Groups.mem_keys_ofCells.2 (List.mem_of_getElem? hcell)
    obtain ⟨⟨_, rows⟩, hentry, rfl⟩ := List.mem_map.1 hkey
    exact ⟨rows, hentry, (hmem rows hentry).2 hcell⟩
  · rintro ⟨rows, hentry, hrow⟩
    exact (hmem rows hentry).1 hrow

/-- **All that can be asked of a table is about the rows below its length.** -/
theorem hasRows (t : Table) : t.HasRows t.length where
  length := rfl
  columns := t.rectangular
  index := rfl
  cells name c hc := (column_eq_ok_iff.1 hc).lt_length_iff
  numbers name xs hxs := by
    have hrows := forall₂_numbers hxs
    have hlength : xs.length = t.length := by rw [← hrows.length_eq, List.length_range]
    refine ⟨hlength, ?_⟩
    intro row x hx
    obtain ⟨hrow, rfl⟩ := List.getElem?_eq_some_iff.1 hx
    have hcell := hrows.get (by rw [List.length_range, ← hlength]; exact hrow) hrow
    rw [List.get_eq_getElem, List.getElem_range] at hcell
    exact hcell
  groups name groups hgroups := cellAt_iff_mem_groups hgroups
  filtered name wanted rows hrows := by
    obtain ⟨c, hc, rfl⟩ := (rowsWhere_eq_ok_iff wanted).1 hrows
    exact (hc.rowsWhere _).2

/-! ### Loading -/

/-- Columns whose lengths differ are no outcome of reading a file. -/
theorem loadColumns_ne_table {files : Files} {path other : Path} {e : TableError} :
    loadColumns files path ≠ .error (.file other (.table e)) := by
  intro h
  rw [loadColumns] at h
  split at h
  · cases h
  · next load hload =>
    obtain ⟨cause, hcause, ⟨⟩⟩ := mapError_eq_error h
    obtain ⟨-, rfl⟩ | ⟨-, rfl⟩ | ⟨-, rfl⟩ := loader?_eq_some hload
    · rw [loadDelimited] at hcause
      split at hcause
      · cases hcause
      · cases hcause
      · split at hcause
        · cases hcause
        · obtain ⟨_, -, ⟨⟩⟩ := mapError_eq_error hcause
    · rw [loadRecords] at hcause
      split at hcause
      · cases hcause
      · split at hcause
        · cases hcause
        · obtain ⟨_, -, ⟨⟩⟩ := mapError_eq_error hcause
    · rw [loadColumnar] at hcause
      split at hcause
      · cases hcause
      · cases hcause
      · obtain ⟨_, -, ⟨⟩⟩ := mapError_eq_error hcause
      · cases hcause

/-- **Columns that are loaded make a table** with the rows of the file. -/
theorem exists_load_of_loadColumns {files : Files} {path : Path} {columns : List Column}
    (h : loadColumns files path = .ok columns) :
    ∃ t, load files path = .ok t ∧ t.columns = columns ∧ FileRows files path t.length := by
  obtain ⟨n, hrows, hcells, hnil⟩ := exists_fileRows h
  obtain ⟨t, ht, rfl, hlength⟩ := exists_ofColumns hcells
  have hn : t.length = n := by
    by_cases hne : t.columns = []
    · rw [hnil hne, length, hne]
      rfl
    · exact hlength hne
  refine ⟨t, load_eq_ok h ht, rfl, ?_⟩
  rw [hn]
  exact hrows

/-- **A file is loaded exactly if its columns are.** -/
theorem exists_load_iff {files : Files} {path : Path} {columns : List Column} :
    (∃ t, load files path = .ok t ∧ t.columns = columns) ↔ loadColumns files path = .ok columns := by
  constructor
  · intro h
    obtain ⟨t, ht, rfl⟩ := h
    exact loadColumns_of_load ht
  · intro h
    obtain ⟨t, ht, hcolumns, -⟩ := exists_load_of_loadColumns h
    exact ⟨t, ht, hcolumns⟩

/-- **Loading gives tables with the rows of their files.** It never fails because columns differ in
length. No field of a delimited file is without a column, however far the file is read, and every
batch of a columnar file has all columns of the file, of one length. A table that is loaded has as
many rows as its file, and whatever is asked of it is about these rows. -/
theorem load_rows (files : Files) (path : Path) :
    (∀ other e, load files path ≠ .error (.file other (.table e))) ∧
      (∀ bytes, Delimited.fill bytes = some (Delimited.columns bytes)) ∧
      (∀ (file : Columnar.File), ∀ batch ∈ file.batches,
        batch.length = file.columns.length ∧ ∃ count, ∀ typed ∈ batch, typed.length = count) ∧
      ∀ t, load files path = .ok t → ∃ n, FileRows files path n ∧ t.HasRows n := by
  refine ⟨?_, Delimited.fill_eq, fun file batch => Columnar.rectangular_of_mem_split, ?_⟩
  · intro other e h
    cases hcolumns : loadColumns files path with
    | error cause =>
      rw [load_eq_error hcolumns] at h
      rw [Except.error.inj h] at hcolumns
      exact loadColumns_ne_table hcolumns
    | ok columns =>
      obtain ⟨t, ht, -⟩ := exists_load_of_loadColumns hcolumns
      rw [ht] at h
      cases h
  · intro t h
    obtain ⟨t', ht', -, hrows⟩ := exists_load_of_loadColumns (loadColumns_of_load h)
    rw [h] at ht'
    obtain rfl := Except.ok.inj ht'
    exact ⟨t.length, hrows, t.hasRows⟩

/-- Files of two queues: an empty line in the first is no record, an empty record in the second is a
row. -/
def twoQueueFiles : Files :=
  { entries := [(["q.csv"], .file (.ofText "queue,elapsed\n0,NA\n\n1,7\n")),
      (["q.json"], .file (.ofText "[\x7b\"queue\": 0\x7d, \x7b\x7d, \x7b\"elapsed\": 7\x7d]")),
      (["q.pq"], .file (.columnar ⟨[("queue", .signed [some 0, some 1]),
        ("elapsed", .unsigned [none, some 7])], by decide⟩))] }

theorem load_rows_twoQueueFiles :
    (∃ t, load twoQueueFiles ⟨"q.csv"⟩ = .ok t ∧ FileRows twoQueueFiles ⟨"q.csv"⟩ 2 ∧ t.HasRows 2) ∧
      (∃ t, load twoQueueFiles ⟨"q.json"⟩ = .ok t ∧
        FileRows twoQueueFiles ⟨"q.json"⟩ 3 ∧ t.HasRows 3) ∧
      ∃ t, load twoQueueFiles ⟨"q.pq"⟩ = .ok t ∧ FileRows twoQueueFiles ⟨"q.pq"⟩ 2 ∧ t.HasRows 2 := by
  have hrows : ∀ path n, (load twoQueueFiles path).toOption.map length = some n →
      ∃ t, load twoQueueFiles path = .ok t ∧ FileRows twoQueueFiles path n ∧ t.HasRows n := by
    intro path n h
    obtain ⟨t, ht, hlength⟩ := exists_ok_of_map h
    obtain ⟨n', hfile, hhas⟩ := (load_rows twoQueueFiles path).2.2.2 t ht
    obtain rfl := hhas.length.symm.trans hlength
    exact ⟨t, ht, hfile, hhas⟩
  exact ⟨hrows ⟨"q.csv"⟩ 2 (by decide +kernel), hrows ⟨"q.json"⟩ 3 (by decide +kernel),
    hrows ⟨"q.pq"⟩ 2 (by decide +kernel)⟩

end Table

end LineChart
