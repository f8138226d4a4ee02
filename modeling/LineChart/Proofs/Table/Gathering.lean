import LineChart.Proofs.Json.Ascending
import LineChart.Proofs.Table.Columns
import LineChart.Proofs.Table.Loading
import LineChart.Proofs.Table.Records
import Mathlib.Data.List.Induction
import Mathlib.Data.List.Nodup

/-!
# Columns gathered from records

The columns of some records can be gathered in two passes: the first takes up the names of one record
after the other and turns every record into a row of cells, the second takes the cells of one name
after the other out of all rows. As every name is taken once, no cell is missed, and the columns are
those of the records.

* `Records.gather` : the columns of a JSON value, gathered in this way.
* `Records.names_concat` : a further record appends the names that are new in it.
* `Records.takeColumns_eq` : no name takes the cells of another one.
* `Records.Tabulates` : a table with the names and values of some records.
* `Table.load_tabulates` : the table of a JSON text, or the first item that is no record.
-/

namespace LineChart

namespace Records

/-! ### Gathering -/

/-- A record as a row: its cells by name. -/
abbrev Row := List (String × Cell)

/-- The row of a record, set field by field. -/
def rowOf (record : Record) : Row :=
  record.foldl (fun row field => Json.setField field.1 (Cell.ofJson field.2) row) []

/-- The names and the rows of some items behind those found so far. The first of the items is item
`i`. -/
def gatherItems (names : List String) (rows : List Row) (i : Nat) :
    List Json → Except RecordsError (List String × List Row)
  | [] => .ok (names, rows)
  | .record fields :: rest =>
    gatherItems ((fields.map Prod.fst).foldl addName names) (rows ++ [rowOf fields]) (i + 1) rest
  | _ :: _ => .error (.notRecord i)

/-- The cell of a name in a row. -/
def taken (name : String) (row : Row) : Cell :=
  match row.find? fun entry => entry.1 = name with
  | some entry => entry.2
  | none => .missing

/-- What is left of a row without a name. -/
def without (name : String) (row : Row) : Row := row.filter fun entry => entry.1 ≠ name

/-- The columns of some names, each of which takes its cells out of the rows. -/
def takeColumns : List String → List Row → List Column
  | [], _ => []
  | name :: names, rows => ⟨name, rows.map (taken name)⟩ :: takeColumns names (rows.map (without name))

/-- The columns of a JSON value, gathered from its rows. -/
def gather : Json → Except RecordsError (List Column)
  | .list items => (gatherItems [] [] 0 items).map fun found => takeColumns found.1 found.2
  | _ => .error .notList

/-! ### Names -/

/-- Distinct names are appended unless they are there already. -/
theorem foldl_addName_eq {added : List String} (h : added.Nodup) (names : List String) :
    added.foldl addName names = names ++ added.filter fun name => name ∉ names := by
  induction added generalizing names with
  | nil => simp
  | cons name added ih =>
    obtain ⟨hname, hadded⟩ := List.nodup_cons.1 h
    rw [List.foldl_cons, ih hadded, addName]
    by_cases hmem : name ∈ names
    · rw [if_pos hmem, List.filter_cons_of_neg (by simpa using hmem)]
    · have hrest : (added.filter fun other => other ∉ names ++ [name]) =
          added.filter fun other => other ∉ names := by
        refine List.filter_congr ?_
        intro other hother
        have hne : other ≠ name := by
          rintro rfl
          exact hname hother
        simp [hne]
      rw [if_neg hmem, hrest, List.filter_cons_of_pos (by simpa using hmem), List.append_assoc,
        List.singleton_append]

theorem nodup_addName {names : List String} (h : names.Nodup) (name : String) :
    (addName names name).Nodup := by
  rw [addName]
  by_cases hname : name ∈ names
  · rw [if_pos hname]
    exact h
  · rw [if_neg hname]
    refine List.nodup_append.2 ⟨h, by simp, ?_⟩
    rintro other hother _ hsingle rfl
    rw [List.mem_singleton.1 hsingle] at hother
    exact hname hother

/-- **Every name is there once.** -/
theorem nodup_names (records : List Record) : (names records).Nodup := by
  have hadded : ∀ (added found : List String), found.Nodup → (added.foldl addName found).Nodup := by
    intro added
    induction added with
    | nil => exact fun found hfound => hfound
    | cons name added ih => exact fun found hfound => ih _ (nodup_addName hfound name)
  have hfold : ∀ (records : List Record) (found : List String), found.Nodup →
      (records.foldl (fun names record => (record.map Prod.fst).foldl addName names) found).Nodup := by
    intro records
    induction records with
    | nil => exact fun found hfound => hfound
    | cons record records ih => exact fun found hfound => ih _ (hadded _ found hfound)
  exact hfold records [] List.nodup_nil

/-- **A further record appends the names that are new in it.** -/
theorem names_concat {record : Record} (h : Json.AscendingFields record) (records : List Record) :
    names (records ++ [record]) =
      names records ++ (record.map Prod.fst).filter fun name => name ∉ names records := by
  rw [names, List.foldl_append, List.foldl_cons, List.foldl_nil]
  exact foldl_addName_eq h.nodup (names records)

/-- A name is in record `i` and in no record before it. -/
def FirstIn (records : List Record) (name : String) (i : Nat) : Prop :=
  ∃ before record after, records = before ++ record :: after ∧ before.length = i ∧
    name ∈ record.map Prod.fst ∧ ∀ other ∈ before, name ∉ other.map Prod.fst

/-- The order of the columns: by the first record that has the name, then by the name. -/
def Precedes (records : List Record) (a b : String) : Prop :=
  ∃ i j, FirstIn records a i ∧ FirstIn records b j ∧ (i < j ∨ i = j ∧ a < b)

variable {records : List Record} {name : String}

theorem FirstIn.append {i : Nat} (h : FirstIn records name i) (further : List Record) :
    FirstIn (records ++ further) name i := by
  obtain ⟨before, record, after, rfl, hlength, hmem, hbefore⟩ := h
  exact ⟨before, record, after ++ further, by simp, hlength, hmem, hbefore⟩

theorem FirstIn.lt_length {i : Nat} (h : FirstIn records name i) : i < records.length := by
  obtain ⟨before, record, after, rfl, rfl, -⟩ := h
  simp

/-- The names that are new in a further record are first in it. -/
theorem firstIn_concat {record : Record} (hname : name ∈ record.map Prod.fst)
    (hnew : name ∉ names records) : FirstIn (records ++ [record]) name records.length := by
  refine ⟨records, record, [], rfl, rfl, hname, ?_⟩
  intro other hother hmem
  exact hnew (mem_names.2 ⟨other, hother, hmem⟩)

/-- **The columns are in the order of first appearance.** -/
theorem precedes_names (h : ∀ record ∈ records, Json.AscendingFields record) :
    (∀ name ∈ names records, ∃ i, FirstIn records name i) ∧
      (names records).Pairwise (Precedes records) := by
  induction records using List.reverseRecOn with
  | nil => exact ⟨by simp [names], List.Pairwise.nil⟩
  | append_singleton records record ih =>
    obtain ⟨hrecords, hrecord⟩ := List.forall_mem_append.1 h
    have hascending : Json.AscendingFields record := hrecord record (List.mem_singleton_self record)
    obtain ⟨hfirst, hpairwise⟩ := ih hrecords
    have hold : ∀ a ∈ names records, ∃ i < records.length,
        FirstIn (records ++ [record]) a i := by
      intro a ha
      obtain ⟨i, hi⟩ := hfirst a ha
      exact ⟨i, hi.lt_length, hi.append [record]⟩
    have hnew : ∀ b ∈ (record.map Prod.fst).filter (fun name => name ∉ names records),
        FirstIn (records ++ [record]) b records.length := by
      intro b hb
      obtain ⟨hmem, hb⟩ := List.mem_filter.1 hb
      exact firstIn_concat hmem (of_decide_eq_true hb)
    rw [names_concat hascending]
    constructor
    · intro name hname
      rcases List.mem_append.1 hname with hmem | hmem
      · obtain ⟨i, -, hi⟩ := hold name hmem
        exact ⟨i, hi⟩
      · exact ⟨records.length, hnew name hmem⟩
    · refine List.pairwise_append.2 ⟨?_, ?_, ?_⟩
      · refine hpairwise.imp ?_
        rintro a b ⟨i, j, ha, hb, hij⟩
        exact ⟨i, j, ha.append [record], hb.append [record], hij⟩
      · -- within the new record the names ascend, whichever of them are new
        have hnames : (record.map Prod.fst).Pairwise (· < ·) := List.pairwise_map.2 hascending
        refine (hnames.filter _).imp_of_mem ?_
        intro a b ha hb hlt
        exact ⟨_, _, hnew a ha, hnew b hb, .inr ⟨rfl, hlt⟩⟩
      · intro a ha b hb
        obtain ⟨i, hi, hfirst⟩ := hold a ha
        exact ⟨i, _, hfirst, hnew b hb, .inl hi⟩

/-! ### Rows -/

/-- Names that differ from the one taken find the same cells in what is left. -/
theorem taken_without {other : String} (h : other ≠ name) (row : Row) :
    taken other (without name row) = taken other row := by
  have hfind : (without name row).find? (fun entry => entry.1 = other) =
      row.find? fun entry => entry.1 = other := by
    rw [without, List.find?_filter]
    congr 1
    funext entry
    by_cases hentry : entry.1 = other
    · simp [hentry, h]
    · simp [hentry]
  rw [taken, hfind, taken]

/-- **No name takes the cells of another one.** -/
theorem takeColumns_eq {names : List String} (h : names.Nodup) (rows : List Row) :
    takeColumns names rows = names.map fun name => ⟨name, rows.map (taken name)⟩ := by
  induction names generalizing rows with
  | nil => rfl
  | cons name names ih =>
    obtain ⟨hname, hnames⟩ := List.nodup_cons.1 h
    rw [takeColumns, ih hnames, List.map_cons]
    congr 1
    refine List.map_congr_left ?_
    intro other hother
    have hne : other ≠ name := by
      rintro rfl
      exact hname hother
    rw [List.map_map]
    congr 1
    exact List.map_congr_left fun row _ => taken_without hne row

/-- The row of ascending fields has their cells. -/
theorem rowOf_eq {record : Record} (h : Json.AscendingFields record) :
    rowOf record = record.map fun field => (field.1, Cell.ofJson field.2) := by
  have hcells : (record.map fun field => (field.1, Cell.ofJson field.2)).Pairwise
      fun a b => a.1 < b.1 := List.pairwise_map.2 h
  have hsorted := Json.sortFields_of_pairwise hcells
  rw [Json.sortFields_eq, List.foldl_map] at hsorted
  exact hsorted

theorem taken_rowOf {record : Record} (h : Json.AscendingFields record) (name : String) :
    taken name (rowOf record) = cellOf name record := by
  have hfind : (rowOf record).find? (fun entry => entry.1 = name) =
      (record.find? fun field => field.1 = name).map fun field => (field.1, Cell.ofJson field.2) := by
    rw [rowOf_eq h, List.find?_map]
    rfl
  rw [taken, hfind, cellOf]
  cases record.find? fun field => field.1 = name <;> rfl

/-- The items are gathered up to the first that is no record. -/
theorem gatherItems_eq (names : List String) (rows : List Row) (i : Nat) (items : List Json) :
    gatherItems names rows i items = (ofItems i items).map fun records =>
      (records.foldl (fun names record => (record.map Prod.fst).foldl addName names) names,
        rows ++ records.map rowOf) := by
  induction items generalizing names rows i with
  | nil => simp [gatherItems, ofItems, Except.map]
  | cons item items ih =>
    cases item with
    | record fields =>
      rw [gatherItems, ih, ofItems]
      cases ofItems (i + 1) items with
      | error e => rfl
      | ok records => simp [Except.map]
    | null | flag | integer | decimal | text | list => rfl

/-- **The columns that are gathered are those of the records.** -/
theorem gather_eq {json : Json}
    (h : ∀ items, json = .list items → ∀ fields, .record fields ∈ items → Json.AscendingFields fields) :
    gather json = columns json := by
  cases json with
  | list items =>
    rw [gather, columns, gatherItems_eq]
    cases hitems : ofItems 0 items with
    | error e => rfl
    | ok records =>
      have hcolumns : takeColumns (names records) (records.map rowOf) =
          (names records).map fun name => ⟨name, records.map (cellOf name)⟩ := by
        rw [takeColumns_eq (nodup_names records)]
        refine List.map_congr_left ?_
        intro name _
        rw [List.map_map]
        congr 1
        refine List.map_congr_left ?_
        intro record hrecord
        refine taken_rowOf (h items rfl record ?_) name
        rw [eq_map_record_of_ofItems hitems]
        exact List.mem_map_of_mem hrecord
      exact congrArg Except.ok hcolumns
  | null | flag | integer | decimal | text | record => rfl

/-! ### Tables -/

/-- A table has a column for each name of some records, in the order of first appearance, and a row
for each record. The cell of a record under a name is that of its value, and missing if it has
none. -/
structure Tabulates (records : List Record) (t : Table) : Prop where
  names : ∀ name, name ∈ t.columnNames ↔ ∃ record ∈ records, name ∈ record.map Prod.fst
  nodup : t.columnNames.Nodup
  order : t.columnNames.Pairwise (Precedes records)
  length : ∀ c ∈ t.columns, c.cells.length = records.length
  present : ∀ row record name value, records[row]? = some record → (name, value) ∈ record →
    t.CellAt name row (.ofJson value)
  absent : ∀ row record name, records[row]? = some record → name ∈ t.columnNames →
    name ∉ record.map Prod.fst → t.CellAt name row .missing

theorem cellOf_of_mem {record : Record} (h : Json.AscendingFields record) {value : Json}
    (hmem : (name, value) ∈ record) : cellOf name record = .ofJson value := by
  have hfind : record.find? (fun field => field.1 = name) = some (name, value) := by
    cases hfound : record.find? fun field => field.1 = name with
    | none => exact absurd (List.find?_eq_none.1 hfound _ hmem) (by simp)
    | some field =>
      have hname : field.1 = name := by simpa using List.find?_some hfound
      rw [List.inj_on_of_nodup_map h.nodup (List.mem_of_find?_eq_some hfound) hmem hname]
  rw [cellOf, hfind]

theorem cellOf_of_not_mem {record : Record} (h : name ∉ record.map Prod.fst) :
    cellOf name record = .missing := by
  have hfind : record.find? (fun field => field.1 = name) = none := by
    rw [List.find?_eq_none]
    intro field hfield hname
    exact h (List.mem_map.2 ⟨field, hfield, of_decide_eq_true hname⟩)
  rw [cellOf, hfind]

/-- **The columns of ascending records make a table** of them. -/
theorem exists_tabulates (h : ∀ record ∈ records, Json.AscendingFields record) :
    ∃ t, Table.ofColumns
        ((Records.names records).map fun name => ⟨name, records.map (cellOf name)⟩) = .ok t ∧
      Tabulates records t ∧ gather (.list (records.map Json.record)) = .ok t.columns := by
  have hlength : ∀ c ∈ (Records.names records).map fun name =>
      (⟨name, records.map (cellOf name)⟩ : Column), c.cells.length = records.length := by
    intro c hc
    obtain ⟨name, -, rfl⟩ := List.mem_map.1 hc
    exact List.length_map _
  obtain ⟨t, ht, hcolumns, -⟩ := Table.exists_ofColumns hlength
  have hnames : t.columnNames = Records.names records := by
    rw [Table.columnNames, hcolumns, List.map_map]
    exact List.map_id _
  have hfound : ∀ name ∈ Records.names records,
      t.FirstNamed name ⟨name, records.map (cellOf name)⟩ := by
    intro name hname
    refine Table.column_eq_ok_iff.1 (Table.column_eq_ok_of_forall (c := ⟨name, _⟩) ?_ ?_)
    · rw [hcolumns]
      exact List.mem_map.2 ⟨name, hname, rfl⟩
    · intro other hother hsame
      rw [hcolumns] at hother
      obtain ⟨name', -, rfl⟩ := List.mem_map.1 hother
      obtain rfl : name' = name := hsame
      rfl
  have hcell : ∀ row record name, records[row]? = some record → name ∈ Records.names records →
      t.CellAt name row (cellOf name record) := by
    intro row record name hrow hname
    refine (hfound name hname).cellAt_iff.2 ?_
    rw [List.getElem?_map, hrow]
    rfl
  have hgather : gather (.list (records.map Json.record)) = .ok t.columns := by
    have hrecords : ∀ items, Json.list (records.map Json.record) = .list items →
        ∀ fields, .record fields ∈ items → Json.AscendingFields fields := by
      rintro _ ⟨⟩ fields hfields
      obtain ⟨record, hrecord, hsame⟩ := List.mem_map.1 hfields
      rw [← Json.record.inj hsame]
      exact h record hrecord
    rw [gather_eq hrecords, columns_list, hcolumns]
  refine ⟨t, ht, ⟨?_, ?_, ?_, ?_, ?_, ?_⟩, hgather⟩
  · intro name
    rw [hnames, mem_names]
  · rw [hnames]
    exact nodup_names records
  · rw [hnames]
    exact (precedes_names h).2
  · rw [hcolumns]
    exact hlength
  · intro row record name value hrow hvalue
    have hrecord : record ∈ records := List.mem_of_getElem? hrow
    rw [← cellOf_of_mem (h record hrecord) hvalue]
    refine hcell row record name hrow ?_
    exact mem_names.2 ⟨record, hrecord, List.mem_map.2 ⟨_, hvalue, rfl⟩⟩
  · intro row record name hrow hname habsent
    rw [← cellOf_of_not_mem habsent]
    exact hcell row record name hrow (hnames ▸ hname)

/-- The first item that is no record is the error. -/
theorem ofItems_eq_error {item : Json} (hitem : ∀ fields, item ≠ .record fields)
    (records : List Record) (i : Nat) (rest : List Json) :
    ofItems i (records.map Json.record ++ item :: rest) =
      .error (.notRecord (i + records.length)) := by
  induction records generalizing i with
  | nil =>
    cases item with
    | record fields => exact absurd rfl (hitem fields)
    | null | flag | integer | decimal | text | list => rfl
  | cons record records ih =>
    rw [List.map_cons, List.cons_append, ofItems, ih, List.length_cons, Nat.add_assoc,
      Nat.add_comm 1]

end Records

/-! ### Loading -/

namespace Table

variable {files : Files} {path : Path} {text : String}

/-- The message of an item that is no record names the file and the item. -/
theorem message_notRecord (path : Path) (row : Nat) :
    (LoadError.file path (.records (.notRecord row))).message =
      "loading " ++ path.text ++ ": " ++ ("Row " ++ toString row ++ " is not a JSON object") := by
  have hmessage : (LoadCause.records (.notRecord row)).message =
      "Row " ++ toString row ++ " is not a JSON object" := by
    simp only [LoadCause.message]
    rfl
  have hne : "Row " ++ toString row ++ " is not a JSON object" ≠ "" := by
    intro h
    exact absurd (String.append_eq_empty_iff.1 h).2 (by decide)
  rw [LoadError.message_file path (hmessage ▸ hne), hmessage]

section

variable (hextension : path.extension = "json") (hfile : files.openFile path = .ok (.ofText text))

include hextension hfile

/-- **A text of records is loaded as a table** of them. -/
theorem exists_load_records {records : List Records.Record}
    (hread : Json.read? text = some (.list (records.map .record))) :
    ∃ t, load files path = .ok t ∧ Records.Tabulates records t ∧
      Records.gather (.list (records.map .record)) = .ok t.columns := by
  have hascending : ∀ record ∈ records, Json.AscendingFields record := by
    intro record hrecord
    exact Json.ascendingFields_of_read? hread (List.mem_map_of_mem hrecord)
  obtain ⟨t, ht, htable⟩ := Records.exists_tabulates hascending
  refine ⟨t, load_eq_ok ?_ ht, htable⟩
  rw [loadColumns_json hextension hfile hread, Records.columns_list]
  rfl

/-- **Only a text of records is loaded.** -/
theorem exists_records_of_load {t : Table} (h : load files path = .ok t) :
    ∃ records : List Records.Record, Json.read? text = some (.list (records.map .record)) := by
  cases columnsFrom_of_loadColumns (loadColumns_of_load h) with
  | delimited hcsv => rw [hextension] at hcsv; exact absurd hcsv (by decide)
  | columnar hcolumnar => rw [hextension] at hcolumnar; exact absurd hcolumnar (by decide)
  | records _ htext hread hrecords =>
    rw [readText_of_openFile hfile] at htext
    obtain rfl := Except.ok.inj htext
    obtain ⟨records, rfl, -⟩ := Records.columns_eq_ok_iff.1 hrecords
    exact ⟨records, hread⟩

/-- **The first item that is no record is the error.** -/
theorem load_eq_notRecord {records : List Records.Record} {item : Json} {rest : List Json}
    (hitem : ∀ fields, item ≠ .record fields)
    (hread : Json.read? text = some (.list (records.map .record ++ item :: rest))) :
    load files path = .error (.file path (.records (.notRecord records.length))) := by
  refine load_eq_error ?_
  rw [loadColumns_json hextension hfile hread, Records.columns,
    Records.ofItems_eq_error hitem, Nat.zero_add]
  rfl

end

/-- **A JSON text is loaded exactly if it is a list of records**, and then as the table of them: a
column for each name, in the order of first appearance, and a row for each record, whose values stand
under their names. It makes no difference whether the cells are taken out of the records name by name.
Of a list with other items, the first one is the error. -/
theorem load_tabulates (files : Files) (path : Path) (text : String)
    (hextension : path.extension = "json") (hfile : files.openFile path = .ok (.ofText text)) :
    ((∃ t, load files path = .ok t) ↔
      ∃ records : List Records.Record, Json.read? text = some (.list (records.map .record))) ∧
    (∀ records : List Records.Record, Json.read? text = some (.list (records.map .record)) →
      ∃ t, load files path = .ok t ∧ Records.Tabulates records t ∧
        Records.gather (.list (records.map .record)) = .ok t.columns) ∧
    ∀ (records : List Records.Record) (item : Json) (rest : List Json),
      (∀ fields, item ≠ .record fields) →
      Json.read? text = some (.list (records.map .record ++ item :: rest)) →
      ∃ e, load files path = .error e ∧ e = .file path (.records (.notRecord records.length)) ∧
        e.message = "loading " ++ path.text ++ ": " ++
          ("Row " ++ toString records.length ++ " is not a JSON object") := by
  refine ⟨⟨?_, ?_⟩, ?_, ?_⟩
  · rintro ⟨t, ht⟩
    exact exists_records_of_load hextension hfile ht
  · rintro ⟨records, hread⟩
    obtain ⟨t, ht, -⟩ := exists_load_records hextension hfile hread
    exact ⟨t, ht⟩
  · intro records hread
    exact exists_load_records hextension hfile hread
  · intro records item rest hitem hread
    exact ⟨_, load_eq_notRecord hextension hfile hitem hread, rfl, message_notRecord path _⟩

/-- Records with different fields, one of them without any. -/
def mixedRecords : List Records.Record :=
  [[("elapsed", .integer ⟨7, by decide⟩), ("queue", .flag true)], [],
    [("a", .text "x"), ("elapsed", .null)]]

/-- A list whose last item is no record. -/
def brokenItems : List Json := [.record [("queue", .null)], .record [], .text "x"]

/-- The text of the mixed records, and that of the broken list. -/
def mixedFiles : Files :=
  { entries := [(["mixed.json"], .file (.ofText (Json.list (mixedRecords.map .record)).render)),
      (["broken.json"], .file (.ofText (Json.list brokenItems).render))] }

theorem read?_mixedRecords : Json.read? (Json.list (mixedRecords.map .record)).render =
    some (.list (mixedRecords.map .record)) := by
  have hascending : (Json.list (mixedRecords.map .record)).Ascending := by
    refine .list (List.forall_mem_cons.2 ⟨.record (by decide) ?_, List.forall_mem_cons.2
      ⟨.record .nil (by simp), List.forall_mem_cons.2 ⟨.record (by decide) ?_, by simp⟩⟩⟩)
    · simp [Json.Ascending.integer, Json.Ascending.flag]
    · simp [Json.Ascending.text, Json.Ascending.null]
  have hreadable : (Json.list (mixedRecords.map .record)).Readable 2 :=
    .list (List.forall_mem_cons.2 ⟨.record (by simp), List.forall_mem_cons.2
      ⟨.record (by simp), List.forall_mem_cons.2 ⟨.record (by simp), by simp⟩⟩⟩)
  exact Json.read?_render hascending hreadable (by decide)

theorem read?_brokenItems : Json.read? (Json.list brokenItems).render = some (.list brokenItems) := by
  have hascending : (Json.list brokenItems).Ascending := by
    refine .list (List.forall_mem_cons.2 ⟨.record (by decide) ?_, List.forall_mem_cons.2
      ⟨.record .nil (by simp), List.forall_mem_cons.2 ⟨.text "x", by simp⟩⟩⟩)
    simp [Json.Ascending.null]
  have hreadable : (Json.list brokenItems).Readable 2 :=
    .list (List.forall_mem_cons.2 ⟨.record (by simp), List.forall_mem_cons.2
      ⟨.record (by simp), List.forall_mem_cons.2 ⟨.text "x", by simp⟩⟩⟩)
  exact Json.read?_render hascending hreadable (by decide)

theorem load_tabulates_mixedFiles :
    (∃ t, load mixedFiles ⟨"mixed.json"⟩ = .ok t ∧ Records.Tabulates mixedRecords t ∧
      Records.gather (.list (mixedRecords.map .record)) = .ok t.columns) ∧
    ∃ e, load mixedFiles ⟨"broken.json"⟩ = .error e ∧
      e.message = "loading broken.json: Row 2 is not a JSON object" := by
  constructor
  · exact (load_tabulates mixedFiles ⟨"mixed.json"⟩ _ (by decide +kernel) rfl).2.1 _
      read?_mixedRecords
  · obtain ⟨e, he, -, hmessage⟩ :=
      (load_tabulates mixedFiles ⟨"broken.json"⟩ _ (by decide +kernel) rfl).2.2
        [[("queue", .null)], []] (.text "x") [] (by simp) read?_brokenItems
    refine ⟨e, he, ?_⟩
    rw [hmessage]
    decide +kernel

end Table

end LineChart
