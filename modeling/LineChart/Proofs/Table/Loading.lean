import LineChart.Proofs.Text.Bytes
import LineChart.Table.Loading

/-!
# Loading, one kind of file after the other

What loading comes to once the extension of the path and the file at it are known.

* `Table.exists_ofColumns` : columns of one length make a table.
* `Table.loadColumns_of_load` : a table has the columns that are loaded.
* `loadColumns_csv`, `loadColumns_json`, `loadColumns_parquet` : the columns of a file by its
  extension.
* `LoadError.message_file` : the message of an error in a file.
* `ColumnsFrom`, `columnsFrom_of_loadColumns` : where columns that are loaded come from.
-/

namespace LineChart

theorem mapError_eq_ok {ε δ α : Type} {result : Except ε α} {g : ε → δ} {a : α}
    (h : result.mapError g = .ok a) : result = .ok a := by
  cases result with
  | error e => cases h
  | ok b => rw [Except.ok.inj h]

theorem mapError_eq_error {ε δ α : Type} {result : Except ε α} {g : ε → δ} {d : δ}
    (h : result.mapError g = .error d) : ∃ e, result = .error e ∧ g e = d := by
  cases result with
  | error e => exact ⟨e, rfl, Except.error.inj h⟩
  | ok b => cases h

namespace Table

/-- Columns of one length make a table. -/
theorem exists_ofColumns {columns : List Column} {n : Nat} (h : ∀ c ∈ columns, c.cells.length = n) :
    ∃ t, Table.ofColumns columns = .ok t ∧ t.columns = columns ∧ (columns ≠ [] → t.length = n) := by
  have hcount : columns ≠ [] → rowCount columns = n := by
    intro hne
    obtain ⟨first, rest, rfl⟩ := List.exists_cons_of_ne_nil hne
    exact h first List.mem_cons_self
  have hfind : columns.find? (fun c => c.cells.length ≠ rowCount columns) = none := by
    rw [List.find?_eq_none]
    intro c hc
    rw [hcount (List.ne_nil_of_mem hc), h c hc]
    simp
  have hof : ∃ t, Table.ofColumns columns = .ok t ∧ t.columns = columns := by
    rw [Table.ofColumns]
    split
    · next hsome =>
      rw [hfind] at hsome
      cases hsome
    · exact ⟨_, rfl, rfl⟩
  obtain ⟨t, ht, hcolumns⟩ := hof
  refine ⟨t, ht, hcolumns, ?_⟩
  intro hne
  rw [Table.length, hcolumns, hcount hne]

variable {files : Files} {path : Path} {columns : List Column}

theorem load_eq_ok {t : Table} (hcolumns : loadColumns files path = .ok columns)
    (ht : ofColumns columns = .ok t) : load files path = .ok t := by
  rw [load, hcolumns]
  show (ofColumns columns).mapError _ = _
  rw [ht]
  rfl

theorem load_eq_error {e : LoadError} (h : loadColumns files path = .error e) :
    load files path = .error e := by
  rw [load, h]

/-- **A table that is loaded has the columns that are loaded.** -/
theorem loadColumns_of_load {t : Table} (h : load files path = .ok t) :
    loadColumns files path = .ok t.columns := by
  rw [load] at h
  split at h
  · cases h
  · next columns hcolumns =>
    have ht := mapError_eq_ok h
    rw [ofColumns] at ht
    split at ht
    · cases ht
    · obtain rfl := Except.ok.inj ht
      exact hcolumns

end Table

variable {files : Files} {path : Path}

theorem loadColumns_csv {text : String} (hextension : path.extension = "csv")
    (hfile : files.openFile path = .ok (.ofText text)) :
    loadColumns files path =
      (Delimited.columns (utf8 text)).mapError fun e => .file path (.delimited e) := by
  have hload : loadDelimited files path = (Delimited.columns (utf8 text)).mapError .delimited := by
    rw [loadDelimited, hfile]
    rfl
  rw [loadColumns, hextension]
  show (loadDelimited files path).mapError _ = _
  rw [hload]
  cases Delimited.columns (utf8 text) <;> rfl

/-- The text of a file of text. -/
theorem readText_of_openFile {text : String} (h : files.openFile path = .ok (.ofText text)) :
    files.readText path = .ok text := by
  have hcontent : (FileContent.ofText text).text? = some text := fromUTF8?_utf8 text
  rw [Files.readText, h]
  simp only [hcontent]

theorem loadColumns_json {text : String} {json : Json} (hextension : path.extension = "json")
    (hfile : files.openFile path = .ok (.ofText text)) (hread : Json.read? text = some json) :
    loadColumns files path = (Records.columns json).mapError fun e => .file path (.records e) := by
  have hload : loadRecords files path = (Records.columns json).mapError .records := by
    rw [loadRecords, readText_of_openFile hfile]
    simp only [hread]
  rw [loadColumns, hextension]
  show (loadRecords files path).mapError _ = _
  rw [hload]
  cases Records.columns json <;> rfl

theorem loadColumns_parquet {file : Columnar.File}
    (hextension : path.extension = "parquet" ∨ path.extension = "pq")
    (hfile : files.openFile path = .ok (.columnar file)) :
    loadColumns files path =
      (Columnar.columns file).mapError fun e => .file path (.foreignCell e) := by
  have hload : loadColumnar files path = (Columnar.columns file).mapError .foreignCell := by
    rw [loadColumnar, hfile]
  have hloader : loader? path.extension = some loadColumnar := by
    rcases hextension with hextension | hextension <;> rw [hextension] <;> rfl
  rw [loadColumns, hloader]
  show (loadColumnar files path).mapError _ = _
  rw [hload]
  cases Columnar.columns file <;> rfl

/-! ### Messages -/

/-- The message of an error in a file names the file. -/
theorem LoadError.message_file {cause : LoadCause} (path : Path) (h : cause.message ≠ "") :
    (LoadError.file path cause).message = "loading " ++ path.text ++ ": " ++ cause.message := by
  show inContext ("loading " ++ path.text) cause.message = _
  rw [inContext, if_neg h]

/-! ### Whatever is loaded -/

/-- The columns of a file are those of its bytes, of the value in its text or of the typed columns in
it, as the extension of its path says. -/
inductive ColumnsFrom (files : Files) (path : Path) : List Column → Prop
  | delimited {bytes : List UInt8} {columns : List Column} (hextension : path.extension = "csv")
      (hfile : files.openFile path = .ok (.bytes bytes))
      (hcolumns : Delimited.columns bytes = .ok columns) : ColumnsFrom files path columns
  | records {text : String} {json : Json} {columns : List Column}
      (hextension : path.extension = "json") (hfile : files.readText path = .ok text)
      (hread : Json.read? text = some json) (hcolumns : Records.columns json = .ok columns) :
      ColumnsFrom files path columns
  | columnar {file : Columnar.File} {columns : List Column}
      (hextension : path.extension = "parquet" ∨ path.extension = "pq")
      (hfile : files.openFile path = .ok (.columnar file))
      (hcolumns : Columnar.columns file = .ok columns) : ColumnsFrom files path columns

/-- The reader of an extension, and the extensions that have it. -/
theorem loader?_eq_some {extension : String} {load : Files → Path → Except LoadCause (List Column)}
    (h : loader? extension = some load) :
    (extension = "csv" ∧ load = loadDelimited) ∨ (extension = "json" ∧ load = loadRecords) ∨
      (extension = "parquet" ∨ extension = "pq") ∧ load = loadColumnar := by
  rw [loader?] at h
  split at h
  · next hcsv => exact .inl ⟨hcsv, (Option.some.inj h).symm⟩
  · split at h
    · next hjson => exact .inr (.inl ⟨hjson, (Option.some.inj h).symm⟩)
    · split at h
      · next hcolumnar => exact .inr (.inr ⟨hcolumnar, (Option.some.inj h).symm⟩)
      · cases h

variable {columns : List Column}

theorem columnsFrom_of_loadDelimited (hextension : path.extension = "csv")
    (h : loadDelimited files path = .ok columns) : ColumnsFrom files path columns := by
  rw [loadDelimited] at h
  split at h
  · cases h
  · cases h
  · next content hfile =>
    cases content with
    | bytes bytes => exact .delimited hextension hfile (mapError_eq_ok h)
    | columnar file => cases h
    | drawing format scene => cases h
    | part content count => cases h

theorem columnsFrom_of_loadRecords (hextension : path.extension = "json")
    (h : loadRecords files path = .ok columns) : ColumnsFrom files path columns := by
  rw [loadRecords] at h
  split at h
  · cases h
  · next text hfile =>
    split at h
    · cases h
    · next json hread => exact .records hextension hfile hread (mapError_eq_ok h)

theorem columnsFrom_of_loadColumnar
    (hextension : path.extension = "parquet" ∨ path.extension = "pq")
    (h : loadColumnar files path = .ok columns) : ColumnsFrom files path columns := by
  rw [loadColumnar] at h
  split at h
  · cases h
  · cases h
  · next file hfile => exact .columnar hextension hfile (mapError_eq_ok h)
  · cases h

/-- **Columns that are loaded come from the file**, read as its extension says. -/
theorem columnsFrom_of_loadColumns (h : loadColumns files path = .ok columns) :
    ColumnsFrom files path columns := by
  rw [loadColumns] at h
  split at h
  · cases h
  · next load hload =>
    have hcolumns := mapError_eq_ok h
    obtain ⟨hextension, rfl⟩ | ⟨hextension, rfl⟩ | ⟨hextension, rfl⟩ := loader?_eq_some hload
    · exact columnsFrom_of_loadDelimited hextension hcolumns
    · exact columnsFrom_of_loadRecords hextension hcolumns
    · exact columnsFrom_of_loadColumnar hextension hcolumns

end LineChart
