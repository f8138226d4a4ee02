import LineChart.Proofs.Table.Batches
import LineChart.Proofs.Table.Columns
import LineChart.Proofs.Table.Loading
import LineChart.Proofs.Table.Plain
import LineChart.Proofs.Table.Records
import Mathlib.Data.List.Nodup

/-!
# Integers in every kind of file

A table of nullable integers can be written as a delimited file, as JSON records and as a columnar
file. All three are loaded with the same columns: an integer stays an integer where it fits, becomes
the number nearest to it where it does not, and a missing one is a missing cell.

* `IntegerData` : named columns of nullable integers of one length.
* `HoldsInteger` : what a cell holds of a nullable integer.
* `IntegerData.csv` : the data as the text of a delimited file.
* `IntegerData.Recorded` : the data as JSON records, with fields in any order.
* `IntegerData.Stored` : the data as a columnar file, with signed or unsigned columns.
* `IntegerData.loaders_agree` : the tables that are loaded from all three.
-/

namespace LineChart

/-! ### Cells -/

/-- The integers that a cell holds as integers, and those that a columnar file holds without a
sign. -/
def FitsSigned (n : Int) : Prop := Int64.minValue.toInt ≤ n ∧ n ≤ Int64.maxValue.toInt
def FitsUnsigned (n : Int) : Prop := 0 ≤ n ∧ n < UInt64.size

/-- What a cell holds of a nullable integer: the integer itself, or above the greatest integer of a
cell the number that it is rounded to. -/
inductive HoldsInteger : Option Int → Cell → Prop
  | missing : HoldsInteger none .missing
  | integer (n : Int64) : HoldsInteger (some n.toInt) (.integer n)
  | number {n : Nat} {x : Double} (h : Int64.maxValue.toInt < n) (hx : x.IsRounded n) :
    HoldsInteger (some n) (.number x)

/-- The cell of a nullable integer. -/
def Cell.ofInteger : Option Int → Cell
  | none => .missing
  | some n => if n ≤ Int64.maxValue.toInt then .integer (.ofInt n) else .number (.ofInt n)

theorem bounds_of_fits {n : Int} (h : FitsSigned n ∨ FitsUnsigned n) :
    Int64.minValue.toInt ≤ n ∧ n < UInt64.size := by
  simp only [FitsSigned, FitsUnsigned, Int64.toInt_minValue, Int64.toInt_maxValue, UInt64.size] at h ⊢
  omega

/-- **The cell of an integer holds it.** -/
theorem holdsInteger_ofInteger {value : Option Int}
    (h : ∀ n, value = some n → FitsSigned n ∨ FitsUnsigned n) :
    HoldsInteger value (.ofInteger value) := by
  cases value with
  | none => exact .missing
  | some n =>
    obtain ⟨hlow, hhigh⟩ := bounds_of_fits (h n rfl)
    rw [Int64.toInt_minValue] at hlow
    rw [UInt64.size] at hhigh
    rw [Cell.ofInteger]
    by_cases hfits : n ≤ Int64.maxValue.toInt
    · have hn : (Int64.ofInt n).toInt = n := by
        rw [Int64.toInt_maxValue] at hfits
        exact Int64.toInt_ofInt_of_le (by omega) (by omega)
      have hholds := HoldsInteger.integer (Int64.ofInt n)
      rw [hn] at hholds
      rw [if_pos hfits]
      exact hholds
    · rw [if_neg hfits]
      rw [Int64.toInt_maxValue] at hfits
      obtain ⟨m, rfl⟩ := Int.eq_ofNat_of_zero_le (show 0 ≤ n by omega)
      refine .number ?_ (Binary.isRounded_ofNat_double (by omega))
      rw [Int64.toInt_maxValue]
      omega

/-! ### Data -/

/-- Named columns of nullable integers. There is a column and a row, names are distinct words, and
every column fits into sixty-four bits with or without a sign. -/
structure IntegerData where
  columns : List (String × List (Option Int))
  rows : Nat
  columns_ne : columns ≠ []
  rows_pos : 0 < rows
  nodup : (columns.map Prod.fst).Nodup
  word : ∀ column ∈ columns,
    column.1 ≠ "" ∧ ∀ c ∈ column.1.toList, c.isAlphanum = true ∨ c = '_'
  rectangular : ∀ column ∈ columns, column.2.length = rows
  fits : ∀ column ∈ columns,
    (∀ n, some n ∈ column.2 → FitsSigned n) ∨ ∀ n, some n ∈ column.2 → FitsUnsigned n

namespace IntegerData

variable {d : IntegerData}

def names (d : IntegerData) : List String := d.columns.map Prod.fst

/-- A row: the name and the value of every column. -/
def row (d : IntegerData) (i : Nat) : List (String × Option Int) :=
  d.columns.map fun column => (column.1, column.2[i]?.join)

/-- The columns of the table. -/
def tableColumns (d : IntegerData) : List Column :=
  d.columns.map fun column => ⟨column.1, column.2.map .ofInteger⟩

theorem mem_tableColumns {column : String × List (Option Int)} (h : column ∈ d.columns) :
    ⟨column.1, column.2.map .ofInteger⟩ ∈ d.tableColumns :=
  List.mem_map.2 ⟨column, h, rfl⟩

theorem fits_of_mem {column : String × List (Option Int)} (hcolumn : column ∈ d.columns) {n : Int}
    (hn : some n ∈ column.2) : FitsSigned n ∨ FitsUnsigned n := by
  rcases d.fits column hcolumn with h | h
  · exact .inl (h n hn)
  · exact .inr (h n hn)

/-- Values that are taken row by row are those of the column. -/
theorem map_range_join {α : Type} (f : Option Int → α) {values : List (Option Int)} {n : Nat}
    (h : values.length = n) :
    ((List.range n).map fun i => f values[i]?.join) = values.map f := by
  subst h
  refine List.ext_getElem (by simp) ?_
  intro i hi hi'
  have hlt : i < values.length := by simpa using hi'
  simp [List.getElem?_eq_getElem hlt]

theorem eq_of_mem_row {i : Nat} {name : String} {value value' : Option Int}
    (h : (name, value) ∈ d.row i) (h' : (name, value') ∈ d.row i) : value = value' := by
  obtain ⟨column, hcolumn, heq⟩ := List.mem_map.1 h
  obtain ⟨column', hcolumn', heq'⟩ := List.mem_map.1 h'
  obtain ⟨rfl, rfl⟩ := Prod.mk.inj heq
  obtain ⟨hname, rfl⟩ := Prod.mk.inj heq'
  rw [List.inj_on_of_nodup_map d.nodup hcolumn' hcolumn hname]

/-! ### The table -/

/-- A table holds the data. -/
structure Held (d : IntegerData) (t : Table) : Prop where
  length : t.length = d.rows
  column : ∀ column ∈ d.columns, t.column column.1 = .ok ⟨column.1, column.2.map .ofInteger⟩

/-- **Columns that are those of the data, in any order, make a table that holds the data.** -/
theorem exists_held {files : Files} {path : Path} {columns : List Column}
    (hload : loadColumns files path = .ok columns) (hmem : ∀ c, c ∈ columns ↔ c ∈ d.tableColumns) :
    ∃ t, Table.load files path = .ok t ∧ d.Held t := by
  have hlength : ∀ c ∈ columns, c.cells.length = d.rows := by
    intro c hc
    obtain ⟨column, hcolumn, rfl⟩ := List.mem_map.1 ((hmem c).1 hc)
    rw [List.length_map, d.rectangular column hcolumn]
  obtain ⟨t, ht, rfl, hrows⟩ := Table.exists_ofColumns hlength
  have hne : t.columns ≠ [] := by
    obtain ⟨column, rest, hcolumns⟩ := List.exists_cons_of_ne_nil d.columns_ne
    have hcolumn : column ∈ d.columns := by rw [hcolumns]; exact List.mem_cons_self
    exact List.ne_nil_of_mem ((hmem _).2 (mem_tableColumns hcolumn))
  refine ⟨t, Table.load_eq_ok hload ht, hrows hne, ?_⟩
  intro column hcolumn
  refine Table.column_eq_ok_of_forall (c := ⟨column.1, column.2.map .ofInteger⟩) ?_ ?_
  · exact (hmem _).2 (mem_tableColumns hcolumn)
  · intro other hother hname
    obtain ⟨column', hcolumn', rfl⟩ := List.mem_map.1 ((hmem other).1 hother)
    rw [List.inj_on_of_nodup_map d.nodup hcolumn' hcolumn hname]

/-! ### Delimited files -/

/-- The text of a nullable integer in a delimited file. -/
def fieldText : Option Int → String
  | none => "NA"
  | some n => toString n

/-- The rows of texts below the names. -/
def textRows (d : IntegerData) : List (List String) :=
  (List.range d.rows).map fun i => (d.row i).map fun entry => fieldText entry.2

/-- The data as the text of a delimited file. -/
def csv (d : IntegerData) : String := Delimited.plainRows (d.names :: d.textRows)

theorem plain_fieldText (value : Option Int) : Delimited.Plain (fieldText value) := by
  cases value with
  | none => exact ⟨by decide, by simp [fieldText]⟩
  | some n =>
    have hchars : ∀ c ∈ (toString n).toList, c = '-' ∨ isDigit c = true := by
      intro c hc
      rw [toList_toString_int, List.mem_append] at hc
      rcases hc with hsign | hdigit
      · refine .inl ?_
        rw [signText] at hsign
        split at hsign
        · exact List.mem_singleton.1 hsign
        · cases hsign
      · exact .inr (isDigit_of_mem_toDigits hdigit)
    refine ⟨?_, ?_⟩
    · rw [fieldText, toList_toString_int]
      simp [Nat.toDigits_ne_nil]
    · intro c hc
      rcases hchars c hc with rfl | hdigit
      · decide
      · rw [isDigit_eq] at hdigit
        exact Delimited.between_of_isAlphanum (by simp [Char.isAlphanum, hdigit])

theorem plain_name {name : String} (hne : name ≠ "")
    (h : ∀ c ∈ name.toList, c.isAlphanum = true ∨ c = '_') : Delimited.Plain name := by
  refine ⟨by simpa using hne, ?_⟩
  intro c hc
  rcases h c hc with halphanum | rfl
  · exact Delimited.between_of_isAlphanum halphanum
  · decide

/-- **The text of an integer is read as its cell.** -/
theorem cell_fieldText {value : Option Int}
    (h : ∀ n, value = some n → FitsSigned n ∨ FitsUnsigned n) :
    Delimited.cell (fieldText value) = .ofInteger value := by
  cases value with
  | none => decide
  | some n =>
    obtain ⟨hlow, hhigh⟩ := bounds_of_fits (h n rfl)
    have hpresent : toString n ∉ Delimited.missingTexts := by
      have hmissing : ∀ text ∈ Delimited.missingTexts, readInteger? text.toList = none := by decide
      intro hmem
      have hnone := hmissing _ hmem
      rw [readInteger?_toString] at hnone
      cases hnone
    rw [fieldText, Delimited.cell, if_neg hpresent, readInt64?_toString, Cell.ofInteger]
    by_cases hfits : n ≤ Int64.maxValue.toInt
    · rw [if_pos ⟨hlow, hfits⟩, if_pos hfits]
    · rw [if_neg fun h => hfits h.2, if_neg hfits]
      rw [Int64.toInt_maxValue] at hfits
      rw [UInt64.size] at hhigh
      rw [Double.read?_toString (show n.natAbs < 2 ^ 64 by omega)]

/-- A value that is taken from a column fits. -/
theorem fits_join {column : String × List (Option Int)} (hcolumn : column ∈ d.columns) {i : Nat}
    {n : Int} (hn : column.2[i]?.join = some n) : FitsSigned n ∨ FitsUnsigned n := by
  refine d.fits_of_mem hcolumn ?_
  rw [Option.join_eq_some_iff] at hn
  exact List.mem_of_getElem? hn

theorem records_csv :
    Delimited.records (utf8 d.csv) = (d.names :: d.textRows).map (List.map utf8) := by
  have hcolumns : d.columns ≠ [] := d.columns_ne
  refine Delimited.records_plainRows ?_ ?_
  · refine List.forall_mem_cons.2 ⟨by simpa [names] using hcolumns, ?_⟩
    intro texts htexts
    obtain ⟨i, -, rfl⟩ := List.mem_map.1 htexts
    simpa [row] using hcolumns
  · refine List.forall_mem_cons.2 ⟨?_, ?_⟩
    · intro name hname
      obtain ⟨column, hcolumn, rfl⟩ := List.mem_map.1 hname
      exact plain_name (d.word column hcolumn).1 (d.word column hcolumn).2
    · intro texts htexts text htext
      obtain ⟨i, -, rfl⟩ := List.mem_map.1 htexts
      obtain ⟨entry, -, rfl⟩ := List.mem_map.1 htext
      exact plain_fieldText entry.2

/-- The columns of the texts are those of the table. -/
theorem columnsOf_textRows :
    Delimited.columnsOf d.names (d.textRows.map Delimited.cellsOf) = d.tableColumns := by
  refine List.ext_getElem (by simp [Delimited.columnsOf, names, tableColumns]) ?_
  intro j hj hj'
  have hcolumn : j < d.columns.length := by simpa [tableColumns] using hj'
  have hmem : d.columns[j] ∈ d.columns := List.getElem_mem hcolumn
  have hcell : ∀ i, (Delimited.cellsOf ((d.row i).map fun entry => fieldText entry.2))[j]?.getD
      .missing = .ofInteger d.columns[j].2[i]?.join := by
    intro i
    have htext : (Delimited.cellsOf ((d.row i).map fun entry => fieldText entry.2))[j]? =
        some (Delimited.cell (Delimited.trim (fieldText d.columns[j].2[i]?.join))) := by
      simp [Delimited.cellsOf, row, List.getElem?_eq_getElem hcolumn]
    rw [htext, Option.getD_some, Delimited.trim_of_plain (plain_fieldText _),
      cell_fieldText fun n hn => d.fits_join hmem hn]
  have hcells : ((d.textRows.map Delimited.cellsOf).map fun row => row[j]?.getD .missing) =
      d.columns[j].2.map .ofInteger := by
    rw [textRows, List.map_map, List.map_map, ← map_range_join _ (d.rectangular _ hmem)]
    exact List.map_congr_left fun i _ => hcell i
  simp only [Delimited.columnsOf, tableColumns, names, List.getElem_map, List.getElem_zipIdx,
    Nat.zero_add]
  rw [hcells]

/-- **The columns of the delimited file.** -/
theorem columns_csv : Delimited.columns (utf8 d.csv) = .ok d.tableColumns := by
  have hwidth : ∀ texts ∈ d.textRows, texts.length = d.names.length := by
    intro texts htexts
    obtain ⟨i, -, rfl⟩ := List.mem_map.1 htexts
    simp [row, names]
  have hplain : ∀ name ∈ d.names, Delimited.Plain name := by
    intro name hname
    obtain ⟨column, hcolumn, rfl⟩ := List.mem_map.1 hname
    exact plain_name (d.word column hcolumn).1 (d.word column hcolumn).2
  rw [Delimited.columns_of_records d.records_csv, Delimited.rows_eq_ok hwidth,
    Delimited.columnNames_of_plain hplain]
  exact congrArg Except.ok d.columnsOf_textRows

/-! ### JSON records -/

/-- The JSON value of a nullable integer. -/
def jsonOf : Option Int → Json
  | none => .null
  | some n => .ofInt n

/-- A record of a row: its fields are distinct columns of the row in any order, and only missing
values may be left out. -/
structure RecordOf (row : List (String × Option Int)) (record : Records.Record) : Prop where
  nodup : (record.map Prod.fst).Nodup
  fields : ∀ field ∈ record, ∃ value, (field.1, value) ∈ row ∧ field.2 = jsonOf value
  values : ∀ name n, (name, some n) ∈ row → name ∈ record.map Prod.fst

/-- The data as records, a record for each row. Every column occurs in some record. -/
structure Recorded (d : IntegerData) (records : List Records.Record) : Prop where
  rows : List.Forall₂ (fun i record => RecordOf (d.row i) record) (List.range d.rows) records
  columns : ∀ name ∈ d.names, ∃ record ∈ records, name ∈ record.map Prod.fst

theorem jsonOf_eq {n : Int} (h : FitsSigned n ∨ FitsUnsigned n) :
    ∃ m : JsonInteger, jsonOf (some n) = .integer m ∧ m.value = n :=
  ⟨⟨n, bounds_of_fits h⟩, dif_pos (bounds_of_fits h), rfl⟩

theorem ofJson_jsonOf {value : Option Int}
    (h : ∀ n, value = some n → FitsSigned n ∨ FitsUnsigned n) :
    Cell.ofJson (jsonOf value) = .ofInteger value := by
  cases value with
  | none => rfl
  | some n =>
    obtain ⟨m, hm, rfl⟩ := jsonOf_eq (h n rfl)
    rw [hm]
    rfl

/-- A value of a row fits. -/
theorem fits_of_mem_row {i : Nat} {name : String} {n : Int} (h : (name, some n) ∈ d.row i) :
    FitsSigned n ∨ FitsUnsigned n := by
  obtain ⟨column, hcolumn, heq⟩ := List.mem_map.1 h
  exact d.fits_join hcolumn (Prod.mk.inj heq).2

/-- **The cell of a record is the cell of the row**, whether a missing value is written or not. -/
theorem cellOf_eq {i : Nat} {record : Records.Record} (h : RecordOf (d.row i) record)
    {name : String} {value : Option Int} (hvalue : (name, value) ∈ d.row i) :
    Records.cellOf name record = .ofInteger value := by
  rw [Records.cellOf]
  cases hfound : record.find? fun field => field.1 = name with
  | some field =>
    have hname : field.1 = name := by simpa using List.find?_some hfound
    obtain ⟨value', hmem, hjson⟩ := h.fields field (List.mem_of_find?_eq_some hfound)
    rw [hname] at hmem
    obtain rfl := eq_of_mem_row hvalue hmem
    dsimp only
    rw [hjson]
    refine ofJson_jsonOf ?_
    rintro n rfl
    exact fits_of_mem_row hvalue
  | none =>
    cases value with
    | none => rfl
    | some n =>
      have hmem := h.values name n hvalue
      rw [Json.mem_map_fst_iff, hfound] at hmem
      cases hmem

/-- Every record is that of a row. -/
theorem Recorded.exists_row {records : List Records.Record} (h : d.Recorded records) :
    ∀ record ∈ records, ∃ i, RecordOf (d.row i) record := by
  have hrow : ∀ {is : List Nat} {records : List Records.Record},
      List.Forall₂ (fun i record => RecordOf (d.row i) record) is records →
        ∀ record ∈ records, ∃ i, RecordOf (d.row i) record := by
    intro is records h
    induction h with
    | nil => simp
    | @cons i record is records hfirst _ ih => exact List.forall_mem_cons.2 ⟨⟨i, hfirst⟩, ih⟩
  exact hrow h.rows

/-- The values of records are read back as they are. -/
theorem readable_and_json? {records : List Records.Record} (h : d.Recorded records) :
    ∀ record ∈ records, ∀ field ∈ record,
      field.2.Readable 0 ∧ field.2.document.json? = some field.2 := by
  intro record hrecord field hfield
  obtain ⟨i, hrow⟩ := h.exists_row record hrecord
  obtain ⟨value, hvalue, hjson⟩ := hrow.fields field hfield
  rw [hjson]
  cases value with
  | none => exact ⟨.null, rfl⟩
  | some n =>
    obtain ⟨m, hm, -⟩ := jsonOf_eq (fits_of_mem_row hvalue)
    rw [hm]
    exact ⟨.integer m, congrArg some (dif_pos m.fits)⟩

/-- The names in sorted records are those of the columns. -/
theorem mem_names_iff {records : List Records.Record} (h : d.Recorded records) {name : String} :
    name ∈ Records.names (records.map Json.sortFields) ↔ name ∈ d.names := by
  rw [Records.mem_names]
  constructor
  · intro hname
    obtain ⟨sorted, hsorted, hname⟩ := hname
    obtain ⟨record, hrecord, rfl⟩ := List.mem_map.1 hsorted
    obtain ⟨i, hrow⟩ := h.exists_row record hrecord
    rw [Json.mem_map_fst_sortFields hrow.nodup] at hname
    obtain ⟨field, hfield, rfl⟩ := List.mem_map.1 hname
    obtain ⟨value, hvalue, -⟩ := hrow.fields field hfield
    obtain ⟨column, hcolumn, heq⟩ := List.mem_map.1 hvalue
    exact List.mem_map.2 ⟨column, hcolumn, (Prod.mk.inj heq).1⟩
  · intro hname
    obtain ⟨record, hrecord, hmem⟩ := h.columns name hname
    obtain ⟨i, hrow⟩ := h.exists_row record hrecord
    exact ⟨_, List.mem_map_of_mem hrecord, (Json.mem_map_fst_sortFields hrow.nodup).2 hmem⟩

/-- The cells of sorted records are those of the column. -/
theorem map_cellOf {records : List Records.Record} (h : d.Recorded records)
    {column : String × List (Option Int)} (hcolumn : column ∈ d.columns) :
    (records.map Json.sortFields).map (Records.cellOf column.1) = column.2.map .ofInteger := by
  have hsorted : (records.map Json.sortFields).map (Records.cellOf column.1) =
      records.map (Records.cellOf column.1) := by
    rw [List.map_map]
    refine List.map_congr_left fun record hrecord => ?_
    obtain ⟨i, hrow⟩ := h.exists_row record hrecord
    exact Records.cellOf_sortFields hrow.nodup column.1
  rw [hsorted, ← map_range_join _ (d.rectangular column hcolumn)]
  refine map_eq_map_of_forall₂ (h.rows.imp fun i record hrow => ?_)
  exact cellOf_eq hrow (List.mem_map.2 ⟨column, hcolumn, rfl⟩)

/-- **The columns of the records**, in some order. -/
theorem exists_columns_records {records : List Records.Record} (h : d.Recorded records) :
    ∃ columns,
      Records.columns (.list ((records.map Json.sortFields).map Json.record)) = .ok columns ∧
        ∀ c, c ∈ columns ↔ c ∈ d.tableColumns := by
  refine ⟨_, Records.columns_list _, ?_⟩
  intro c
  constructor
  · intro hc
    obtain ⟨name, hname, rfl⟩ := List.mem_map.1 hc
    obtain ⟨column, hcolumn, rfl⟩ := List.mem_map.1 ((mem_names_iff h).1 hname)
    rw [map_cellOf h hcolumn]
    exact mem_tableColumns hcolumn
  · intro hc
    obtain ⟨column, hcolumn, rfl⟩ := List.mem_map.1 hc
    rw [← map_cellOf h hcolumn]
    exact List.mem_map.2 ⟨column.1, (mem_names_iff h).2 (List.mem_map_of_mem hcolumn), rfl⟩

/-! ### Columnar files -/

/-- The cells of a typed column are some nullable integers. -/
inductive TypedAs : List (Option Int) → TypedCells → Prop
  | signed (cells : List (Option Int64)) :
    TypedAs (cells.map (Option.map Int64.toInt)) (.signed cells)
  | unsigned (cells : List (Option UInt64)) :
    TypedAs (cells.map (Option.map fun n => (n.toNat : Int))) (.unsigned cells)

/-- The data as a columnar file, each column signed or unsigned. -/
def Stored (d : IntegerData) (file : Columnar.File) : Prop :=
  List.Forall₂ (fun column typed => typed.1 = column.1 ∧ TypedAs column.2 typed.2)
    d.columns file.columns

theorem cells_of_typedAs {values : List (Option Int)} {typed : TypedCells}
    (h : TypedAs values typed) : typed.cells = .ok (values.map .ofInteger) := by
  cases h with
  | signed cells =>
    have hcell : ∀ c : Option Int64,
        c.elim .missing .integer = Cell.ofInteger (c.map Int64.toInt) := by
      intro c
      cases c with
      | none => rfl
      | some n =>
        rw [Option.map_some, Cell.ofInteger, if_pos n.toInt_le, Int64.ofInt_toInt]
        rfl
    rw [TypedCells.cells, List.map_map]
    exact congrArg Except.ok (List.map_congr_left fun c _ => hcell c)
  | unsigned cells =>
    have hcell : ∀ c : Option UInt64, c.elim .missing TypedCells.cellOfUnsigned =
        Cell.ofInteger (c.map fun n => (n.toNat : Int)) := by
      intro c
      cases c <;> rfl
    rw [TypedCells.cells, List.map_map]
    exact congrArg Except.ok (List.map_congr_left fun c _ => hcell c)

/-- **The columns of the columnar file.** -/
theorem columns_stored {file : Columnar.File} (h : d.Stored file) :
    Columnar.columns file = .ok d.tableColumns := by
  have hconverts : List.Forall₂ Columnar.Converts file.columns
      (d.columns.map fun column => column.2.map .ofInteger) := by
    rw [List.forall₂_map_right_iff]
    exact h.flip.imp fun typed column htyped => cells_of_typedAs htyped.2
  have hnames : file.columnNames = d.columns.map Prod.fst :=
    map_eq_map_of_forall₂ (h.imp fun column typed htyped => htyped.1)
  rw [Columnar.columns_eq_ok hconverts, hnames, List.zipWith_map, List.zipWith_self]
  rfl

/-! ### All three -/

/-- **The three files are loaded with the same columns.** -/
theorem loaders_agree (d : IntegerData) (files : Files) (csvPath jsonPath columnarPath : Path)
    (records : List Records.Record) (file : Columnar.File)
    (hcsv : csvPath.extension = "csv") (hjson : jsonPath.extension = "json")
    (hcolumnar : columnarPath.extension = "parquet" ∨ columnarPath.extension = "pq")
    (hcsvFile : files.openFile csvPath = .ok (.ofText d.csv))
    (hjsonFile : files.openFile jsonPath = .ok (.ofText (Records.recordsText records)))
    (hcolumnarFile : files.openFile columnarPath = .ok (.columnar file))
    (hrecorded : d.Recorded records) (hstored : d.Stored file) :
    ∃ t₁ t₂ t₃, Table.load files csvPath = .ok t₁ ∧ Table.load files jsonPath = .ok t₂ ∧
      Table.load files columnarPath = .ok t₃ ∧
      t₁.length = d.rows ∧ t₂.length = d.rows ∧ t₃.length = d.rows ∧
      ∀ column ∈ d.columns, ∃ cells, List.Forall₂ HoldsInteger column.2 cells ∧
        t₁.column column.1 = .ok ⟨column.1, cells⟩ ∧ t₂.column column.1 = .ok ⟨column.1, cells⟩ ∧
        t₃.column column.1 = .ok ⟨column.1, cells⟩ := by
  have hread : Json.read? (Records.recordsText records) =
      some (.list ((records.map Json.sortFields).map Json.record)) := by
    have hfields := readable_and_json? hrecorded
    refine Records.read?_recordsText ?_ ?_
    · exact fun record hrecord field hfield => (hfields record hrecord field hfield).1
    · exact fun record hrecord field hfield => (hfields record hrecord field hfield).2
  obtain ⟨columns, hcolumns, hmem⟩ := exists_columns_records hrecorded
  have hload₁ : loadColumns files csvPath = .ok d.tableColumns := by
    rw [loadColumns_csv hcsv hcsvFile, d.columns_csv]
    rfl
  have hload₂ : loadColumns files jsonPath = .ok columns := by
    rw [loadColumns_json hjson hjsonFile hread, hcolumns]
    rfl
  have hload₃ : loadColumns files columnarPath = .ok d.tableColumns := by
    rw [loadColumns_parquet hcolumnar hcolumnarFile, columns_stored hstored]
    rfl
  obtain ⟨t₁, ht₁, hheld₁⟩ := exists_held hload₁ fun _ => Iff.rfl
  obtain ⟨t₂, ht₂, hheld₂⟩ := exists_held hload₂ hmem
  obtain ⟨t₃, ht₃, hheld₃⟩ := exists_held hload₃ fun _ => Iff.rfl
  refine ⟨t₁, t₂, t₃, ht₁, ht₂, ht₃, hheld₁.length, hheld₂.length, hheld₃.length, ?_⟩
  intro column hcolumn
  refine ⟨column.2.map .ofInteger, ?_, hheld₁.column column hcolumn, hheld₂.column column hcolumn,
    hheld₃.column column hcolumn⟩
  rw [List.forall₂_map_right_iff, List.forall₂_same]
  rintro value hvalue
  refine holdsInteger_ofInteger ?_
  rintro n rfl
  exact d.fits_of_mem hcolumn hvalue

/-! ### The ends of the ranges -/

/-- The ends of the signed integers in one column and of the unsigned ones in another. -/
def extremes : IntegerData where
  columns := [("start_1", [some (2 ^ 63 - 1), none, some (-2 ^ 63)]),
    ("End", [some (2 ^ 63), some (2 ^ 64 - 1), none])]
  rows := 3
  columns_ne := List.cons_ne_nil _ _
  rows_pos := by decide
  nodup := by decide
  word := by simp
  rectangular := by decide
  fits := by
    refine List.forall_mem_cons.2 ⟨.inl ?_, List.forall_mem_cons.2 ⟨.inr ?_, by simp⟩⟩
    · simp [FitsSigned, Int64.toInt_maxValue]
    · simp [FitsUnsigned, UInt64.size]

/-- The records of the extremes. A missing value is left out once and null once. -/
def extremeRecords : List Records.Record :=
  [[("start_1", .ofInt (2 ^ 63 - 1)), ("End", .ofInt (2 ^ 63))],
   [("End", .ofInt (2 ^ 64 - 1))],
   [("End", .null), ("start_1", .ofInt (-2 ^ 63))]]

theorem recorded_extremeRecords : extremes.Recorded extremeRecords := by
  refine ⟨.cons ?_ (.cons ?_ (.cons ?_ .nil)), ?_⟩
  · refine ⟨by decide, by simp [extremes, row, jsonOf], ?_⟩
    simp [extremes, row]
    tauto
  · refine ⟨by decide, by simp [extremes, row, jsonOf], ?_⟩
    simp [extremes, row]
  · refine ⟨by decide, by simp [extremes, row, jsonOf], ?_⟩
    simp [extremes, row]
  · simp [extremes, names, extremeRecords]

/-- The columnar file of the extremes. -/
def extremeFile : Columnar.File where
  columns := [("start_1", .signed [some Int64.maxValue, none, some Int64.minValue]),
    ("End", .unsigned [some (.ofNat (2 ^ 63)), some (.ofNat (2 ^ 64 - 1)), none])]
  rectangular := by decide

theorem stored_extremeFile : extremes.Stored extremeFile := by
  have hsigned : [some Int64.maxValue, none, some Int64.minValue].map (Option.map Int64.toInt) =
      [some (2 ^ 63 - 1), none, some (-2 ^ 63)] := by decide
  have hunsigned : [some (UInt64.ofNat (2 ^ 63)), some (.ofNat (2 ^ 64 - 1)), none].map
      (Option.map fun n => (n.toNat : Int)) = [some (2 ^ 63), some (2 ^ 64 - 1), none] := by decide
  refine .cons ⟨rfl, ?_⟩ (.cons ⟨rfl, ?_⟩ .nil)
  · show TypedAs [some (2 ^ 63 - 1), none, some (-2 ^ 63)] (.signed _)
    rw [← hsigned]
    exact .signed _
  · show TypedAs [some (2 ^ 63), some (2 ^ 64 - 1), none] (.unsigned _)
    rw [← hunsigned]
    exact .unsigned _

/-- The three files of the extremes. -/
def extremeFiles : Files :=
  { entries := [(["t.csv"], .file (.ofText extremes.csv)),
      (["t.json"], .file (.ofText (Records.recordsText extremeRecords))),
      (["t.parquet"], .file (.columnar extremeFile))] }

theorem loaders_agree_extremes :
    ∃ t₁ t₂ t₃, Table.load extremeFiles ⟨"t.csv"⟩ = .ok t₁ ∧
      Table.load extremeFiles ⟨"t.json"⟩ = .ok t₂ ∧ Table.load extremeFiles ⟨"t.parquet"⟩ = .ok t₃ ∧
      t₁.length = 3 ∧ t₂.length = 3 ∧ t₃.length = 3 ∧
      ∀ column ∈ extremes.columns, ∃ cells, List.Forall₂ HoldsInteger column.2 cells ∧
        t₁.column column.1 = .ok ⟨column.1, cells⟩ ∧ t₂.column column.1 = .ok ⟨column.1, cells⟩ ∧
        t₃.column column.1 = .ok ⟨column.1, cells⟩ :=
  loaders_agree extremes extremeFiles ⟨"t.csv"⟩ ⟨"t.json"⟩ ⟨"t.parquet"⟩ extremeRecords extremeFile
    (by decide +kernel) (by decide +kernel) (.inl (by decide +kernel)) rfl rfl rfl
    recorded_extremeRecords stored_extremeFile

end IntegerData

end LineChart
