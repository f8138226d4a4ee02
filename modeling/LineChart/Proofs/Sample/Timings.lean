import LineChart.Proofs.Files.Saved
import LineChart.Proofs.Table.Integers
import LineChart.Sample.Writing

/-!
# Request times, written and loaded

Request times are written twice, as a delimited and as a columnar file. Both are loaded as the same
table, which holds the times as they were: no integer is taken for a missing cell or for a number,
and the rows of all batches are there.

* `Sample.timingColumns` : the columns of some request times.
* `Sample.columns_timingsText`, `Sample.columns_timingsFile` : both files have these columns.
* `Sample.openFile_of_saveAll` : files that were saved one after the other are at their paths.
* `Sample.load_timings` : the table that is loaded from both files.
* `Sample.load_contents` : the same for the sample files of any seed.
-/

namespace LineChart

/-- The cell of an integer that fits is the integer. -/
theorem Cell.ofInteger_toInt (n : Int64) : Cell.ofInteger (some n.toInt) = .integer n := by
  rw [Cell.ofInteger, if_pos n.toInt_le, Int64.ofInt_toInt]

namespace Sample

/-! ### Lines -/

theorem toList_writeLine (fields : List String) :
    (writeLine fields).toList = Delimited.textLine (fields.map String.toList) := by
  rw [writeLine, String.toList_append, String.toList_intercalate]
  rfl

/-- Lines without quotes are those of a file of plain texts. -/
theorem writeLines_eq (lines : List (List String)) :
    writeLines lines = Delimited.plainRows lines := by
  have hline : String.toList ∘ writeLine = Delimited.textLine ∘ List.map String.toList := by
    funext fields
    exact toList_writeLine fields
  apply String.toList_injective
  rw [writeLines, String.toList_join, Delimited.plainRows, Delimited.textFile,
    String.toList_ofList, List.flatMap_def, List.flatMap_def, List.map_map, List.map_map, hline]

/-! ### Columns -/

/-- The columns of some request times: the queues, the starts and the elapsed times. -/
def timingColumns (timings : List Timing) : List Column :=
  [⟨"queue_id", (timings.map Timing.queue).map .integer⟩,
   ⟨"start_time", (timings.map Timing.start).map .integer⟩,
   ⟨"elapsed", (timings.map Timing.elapsed).map .integer⟩]

theorem plain_timingNames : ∀ name ∈ timingNames, Delimited.Plain name := by
  have hplain : ∀ name ∈ timingNames,
      name ≠ "" ∧ ∀ c ∈ name.toList, c.isAlphanum = true ∨ c = '_' := by simp [timingNames]
  intro name hname
  obtain ⟨hne, hchars⟩ := hplain name hname
  exact IntegerData.plain_name hne hchars

theorem plain_fields (t : Timing) : ∀ text ∈ t.fields, Delimited.Plain text := by
  intro text htext
  obtain ⟨n, -, rfl⟩ := List.mem_map.1 htext
  exact IntegerData.plain_fieldText (some n.toInt)

/-- The text of an integer is read as the integer, whatever its value. -/
theorem cell_toString (n : Int64) :
    Delimited.cell (Delimited.trim (toString n.toInt)) = .integer n := by
  have htext : toString n.toInt = IntegerData.fieldText (some n.toInt) := rfl
  rw [htext, Delimited.trim_of_plain (IntegerData.plain_fieldText _), IntegerData.cell_fieldText,
    Cell.ofInteger_toInt]
  rintro m hm
  obtain rfl := Option.some.inj hm
  exact .inl ⟨n.minValue_le_toInt, n.toInt_le⟩

theorem cellsOf_fields (t : Timing) :
    Delimited.cellsOf t.fields = [.integer t.queue, .integer t.start, .integer t.elapsed] := by
  show [Delimited.cell (Delimited.trim (toString t.queue.toInt)),
    Delimited.cell (Delimited.trim (toString t.start.toInt)),
    Delimited.cell (Delimited.trim (toString t.elapsed.toInt))] = _
  rw [cell_toString, cell_toString, cell_toString]

theorem records_timingsText (timings : List Timing) :
    Delimited.records (utf8 (timingsText timings)) =
      (timingNames :: timings.map Timing.fields).map (List.map utf8) := by
  rw [timingsText, writeLines_eq]
  apply Delimited.records_plainRows
  · rw [List.forall_mem_cons, List.forall_mem_map]
    exact ⟨List.cons_ne_nil _ _, fun t _ => List.cons_ne_nil _ _⟩
  · rw [List.forall_mem_cons, List.forall_mem_map]
    exact ⟨plain_timingNames, fun t _ => plain_fields t⟩

/-- **The delimited file has the columns of the request times.** -/
theorem columns_timingsText (timings : List Timing) :
    Delimited.columns (utf8 (timingsText timings)) = .ok (timingColumns timings) := by
  have hwidth : ∀ texts ∈ timings.map Timing.fields, texts.length = timingNames.length := by
    rw [List.forall_mem_map]
    exact fun t _ => rfl
  have hcells : (timings.map Timing.fields).map Delimited.cellsOf =
      timings.map fun t => [.integer t.queue, .integer t.start, .integer t.elapsed] := by
    rw [List.map_map]
    exact List.map_congr_left fun t _ => cellsOf_fields t
  rw [Delimited.columns_of_records (records_timingsText timings), Delimited.rows_eq_ok hwidth,
    Delimited.columnNames_of_plain plain_timingNames, hcells]
  show Except.ok (Delimited.columnsOf timingNames _) = _
  simp [Delimited.columnsOf, timingNames, timingColumns, List.zipIdx_cons]

/-- The cells of a column without nulls are its integers. -/
theorem cells_integers (cells : List Int64) :
    (integers cells).cells = .ok (cells.map .integer) := by
  rw [integers, TypedCells.cells, List.map_map]
  rfl

/-- **The columnar file has the columns of the request times**, from all of its batches. -/
theorem columns_timingsFile (timings : List Timing) :
    Columnar.columns (timingsFile timings) = .ok (timingColumns timings) := by
  have hconverts : List.Forall₂ Columnar.Converts (timingsFile timings).columns
      [(timings.map Timing.queue).map .integer, (timings.map Timing.start).map .integer,
        (timings.map Timing.elapsed).map .integer] :=
    .cons (cells_integers _) (.cons (cells_integers _) (.cons (cells_integers _) .nil))
  rw [Columnar.columns_eq_ok hconverts]
  rfl

/-! ### Loading -/

variable {files files' : Files} {textPath filePath : Path}

/-- **The table of both files.** -/
theorem exists_load (timings : List Timing) (htext : textPath.extension = "csv")
    (hfile : filePath.extension = "parquet" ∨ filePath.extension = "pq")
    (htextFile : files.openFile textPath = .ok (.ofText (timingsText timings)))
    (hfileFile : files.openFile filePath = .ok (.columnar (timingsFile timings))) :
    ∃ t, Table.load files textPath = .ok t ∧ Table.load files filePath = .ok t ∧
      t.length = timings.length ∧ t.columns = timingColumns timings := by
  have hlength : ∀ c ∈ timingColumns timings, c.cells.length = timings.length := by
    simp [timingColumns]
  obtain ⟨t, ht, hcolumns, hrows⟩ := Table.exists_ofColumns hlength
  have hloadText : loadColumns files textPath = .ok (timingColumns timings) := by
    rw [loadColumns_csv htext htextFile, columns_timingsText]
    rfl
  have hloadFile : loadColumns files filePath = .ok (timingColumns timings) := by
    rw [loadColumns_parquet hfile hfileFile, columns_timingsFile]
    rfl
  exact ⟨t, Table.load_eq_ok hloadText ht, Table.load_eq_ok hloadFile ht,
    hrows (List.cons_ne_nil _ _), hcolumns⟩

/-! ### Saving -/

theorem saveAll_cons_eq_ok {path : Path} {content : FileContent}
    {rest : List (Path × FileContent)}
    (h : saveAll files ((path, content) :: rest) = (files', .ok ())) :
    ∃ saved, files.save path content = (saved, .ok ()) ∧ saveAll saved rest = (files', .ok ()) := by
  rw [saveAll] at h
  split at h
  · cases h
  · next saved hsave => exact ⟨saved, hsave, h⟩

/-- Saving leaves the files with other names as they were. -/
theorem openFile_saveAll_of_ne {items : List (Path × FileContent)}
    (h : saveAll files items = (files', .ok ()))
    (hnamed : ∀ item ∈ items, ∃ name, item.1.fileName? = some name) {path : Path} {name : String}
    {content : FileContent} (hname : path.fileName? = some name)
    (hne : ∀ item ∈ items, item.1.fileName? ≠ some name)
    (hopen : files.openFile path = .ok content) : files'.openFile path = .ok content := by
  induction items generalizing files with
  | nil =>
    obtain ⟨rfl, -⟩ := Prod.mk.inj h
    exact hopen
  | cons item rest ih =>
    obtain ⟨saved, hsave, hrest⟩ := saveAll_cons_eq_ok h
    obtain ⟨⟨other, hother⟩, hnamed⟩ := List.forall_mem_cons.1 hnamed
    obtain ⟨hfirst, hne⟩ := List.forall_mem_cons.1 hne
    apply ih hrest hnamed hne
    apply FileTree.openFile_save_of_ne hname hother _ hopen hsave
    rintro rfl
    exact hfirst hother

/-- **Files that were saved one after the other are at their paths**, as long as their names
differ. -/
theorem openFile_of_saveAll {items : List (Path × FileContent)}
    (h : saveAll files items = (files', .ok ()))
    (hnamed : ∀ item ∈ items, ∃ name, item.1.fileName? = some name)
    (hnodup : (items.map fun item => item.1.fileName?).Nodup) :
    ∀ item ∈ items, files'.openFile item.1 = .ok item.2 := by
  induction items generalizing files with
  | nil => simp
  | cons item rest ih =>
    obtain ⟨saved, hsave, hrest⟩ := saveAll_cons_eq_ok h
    obtain ⟨⟨name, hname⟩, hnamed⟩ := List.forall_mem_cons.1 hnamed
    obtain ⟨hfirst, hnodup⟩ := List.nodup_cons.1 hnodup
    rw [List.forall_mem_cons]
    refine ⟨?_, ih hrest hnamed hnodup⟩
    apply openFile_saveAll_of_ne hrest hnamed hname _ (FileTree.openFile_save hsave)
    intro other hother heq
    exact hfirst (List.mem_map.2 ⟨other, hother, heq.trans hname.symm⟩)

/-! ### The sample files -/

/-- The request times that a seed gives, which come after the shares. -/
def seededTimings (seed : UInt64) : List Timing := (timings (shares (.ofSeed seed)).2).1

theorem contents_eq (seed : UInt64) : ∃ sharesContent, contents seed =
    [(sharesPath, sharesContent), (timingsTextPath, .ofText (timingsText (seededTimings seed))),
      (timingsFilePath, .columnar (timingsFile (seededTimings seed)))] := by
  rw [contents, seededTimings]
  generalize shares (.ofSeed seed) = shares
  obtain ⟨shares, g⟩ := shares
  dsimp only
  generalize timings g = timings
  exact ⟨_, rfl⟩

/-- **The sample files of any seed hold the same request times twice.** -/
theorem load_contents {seed : UInt64} (h : saveAll files (contents seed) = (files', .ok ())) :
    ∃ t, Table.load files' timingsTextPath = .ok t ∧ Table.load files' timingsFilePath = .ok t ∧
      t.columns = timingColumns (seededTimings seed) := by
  obtain ⟨sharesContent, hcontents⟩ := contents_eq seed
  have hnames : [sharesPath, timingsTextPath, timingsFilePath].map Path.fileName? =
      ["output.csv", "timestamp_output.csv", "timestamp_output.parquet"].map some := by
    decide +kernel
  simp only [List.map_cons, List.map_nil, List.cons.injEq, and_true] at hnames
  obtain ⟨hshares, htext, hfile⟩ := hnames
  rw [hcontents] at h
  have hopen := openFile_of_saveAll h (by simp [hshares, htext, hfile])
    (by simp [hshares, htext, hfile])
  simp only [List.forall_mem_cons] at hopen
  obtain ⟨-, hopenText, hopenFile, -⟩ := hopen
  obtain ⟨t, hloadText, hloadFile, -, hcolumns⟩ := exists_load _ (by decide +kernel)
    (.inl (by decide +kernel)) hopenText hopenFile
  exact ⟨t, hloadText, hloadFile, hcolumns⟩

/-! ### Both files of three lists -/

/-- The request times of three lists: the queues, the starts and the elapsed times. -/
def Timing.ofLists (queues starts elapsed : List Int64) : List Timing :=
  (queues.zip (starts.zip elapsed)).map fun (queue, start, elapsed) => ⟨queue, start, elapsed⟩

theorem length_ofLists {queues starts elapsed : List Int64}
    (hstarts : starts.length = queues.length) (helapsed : elapsed.length = queues.length) :
    (Timing.ofLists queues starts elapsed).length = queues.length := by
  rw [Timing.ofLists, List.length_map, List.length_zip, List.length_zip]
  omega

/-- The request times of three lists of one length have these lists as columns. -/
theorem timingColumns_ofLists {queues starts elapsed : List Int64}
    (hstarts : starts.length = queues.length) (helapsed : elapsed.length = queues.length) :
    timingColumns (Timing.ofLists queues starts elapsed) =
      [⟨"queue_id", queues.map .integer⟩, ⟨"start_time", starts.map .integer⟩,
        ⟨"elapsed", elapsed.map .integer⟩] := by
  have hinner : (starts.zip elapsed).length = queues.length := by
    rw [List.length_zip]
    omega
  have hpairs : (queues.zip (starts.zip elapsed)).map Prod.snd = starts.zip elapsed :=
    List.map_snd_zip (by omega)
  have hqueue : (Timing.ofLists queues starts elapsed).map Timing.queue = queues := by
    rw [Timing.ofLists, List.map_map]
    exact List.map_fst_zip (by omega)
  have hstart : (Timing.ofLists queues starts elapsed).map Timing.start = starts := by
    have hfst : (starts.zip elapsed).map Prod.fst = starts := List.map_fst_zip (by omega)
    rw [← hpairs, List.map_map] at hfst
    rw [Timing.ofLists, List.map_map]
    exact hfst
  have helapse : (Timing.ofLists queues starts elapsed).map Timing.elapsed = elapsed := by
    have hsnd : (starts.zip elapsed).map Prod.snd = elapsed := List.map_snd_zip (by omega)
    rw [← hpairs, List.map_map] at hsnd
    rw [Timing.ofLists, List.map_map]
    exact hsnd
  rw [timingColumns, hqueue, hstart, helapse]

/-- Both files are at their paths once they are saved, as their extensions differ. -/
theorem saved_timings {timings : List Timing} (htext : textPath.extension = "csv")
    (hfile : filePath.extension = "parquet" ∨ filePath.extension = "pq")
    (hsaved : saveAll files [(textPath, .ofText (timingsText timings)),
      (filePath, .columnar (timingsFile timings))] = (files', .ok ())) :
    files'.openFile textPath = .ok (.ofText (timingsText timings)) ∧
      files'.openFile filePath = .ok (.columnar (timingsFile timings)) := by
  have hfileNe : filePath.extension ≠ "" ∧ filePath.extension ≠ "csv" := by
    rcases hfile with hfile | hfile <;> rw [hfile] <;> decide
  have htextNe : textPath.extension ≠ "" := by
    rw [htext]
    decide
  obtain ⟨textName, htextName, -⟩ := Path.exists_fileName htextNe
  obtain ⟨fileName, hfileName, -⟩ := Path.exists_fileName hfileNe.1
  have hne : textPath.fileName? ≠ filePath.fileName? := by
    apply Path.fileName_ne
    rw [htext]
    exact Ne.symm hfileNe.2
  have hopen := openFile_of_saveAll hsaved (by simp [htextName, hfileName]) (by simpa using hne)
  exact ⟨hopen _ List.mem_cons_self, hopen _ (List.mem_cons_of_mem _ List.mem_cons_self)⟩

/-- **Request times are loaded as they were written.** Whatever the integers are and however many,
the delimited and the columnar file are loaded as the same table. -/
theorem load_timings (queues starts elapsed : List Int64)
    (hstarts : starts.length = queues.length) (helapsed : elapsed.length = queues.length)
    (files files' : Files) (textPath filePath : Path) (htext : textPath.extension = "csv")
    (hfile : filePath.extension = "parquet" ∨ filePath.extension = "pq")
    (hsaved : saveAll files
      [(textPath, .ofText (timingsText (Timing.ofLists queues starts elapsed))),
       (filePath, .columnar (timingsFile (Timing.ofLists queues starts elapsed)))] =
        (files', .ok ())) :
    ∃ t, Table.load files' textPath = .ok t ∧ Table.load files' filePath = .ok t ∧
      t.length = queues.length ∧
      t.columns = [⟨"queue_id", queues.map .integer⟩, ⟨"start_time", starts.map .integer⟩,
        ⟨"elapsed", elapsed.map .integer⟩] := by
  obtain ⟨htextFile, hfileFile⟩ := saved_timings htext hfile hsaved
  obtain ⟨t, hloadText, hloadFile, hlength, hcolumns⟩ :=
    exists_load _ htext hfile htextFile hfileFile
  rw [length_ofLists hstarts helapsed] at hlength
  rw [timingColumns_ofLists hstarts helapsed] at hcolumns
  exact ⟨t, hloadText, hloadFile, hlength, hcolumns⟩

/-- The ends of the integers, and more rows than a batch has. -/
def longQueues : List Int64 := List.replicate 3000 Int64.minValue
def longStarts : List Int64 := List.replicate 3000 Int64.maxValue

/-- The files of these request times. -/
def longItems : List (Path × FileContent) :=
  [(timingsTextPath, .ofText (timingsText (Timing.ofLists longQueues longStarts longQueues))),
   (timingsFilePath, .columnar (timingsFile (Timing.ofLists longQueues longStarts longQueues)))]

theorem length_longStarts : longStarts.length = longQueues.length := by
  rw [longStarts, longQueues, List.length_replicate, List.length_replicate]

theorem saveAll_longItems : saveAll .empty longItems = ((saveAll .empty longItems).1, .ok ()) := by
  apply Prod.ext
  · rfl
  · show (saveAll .empty longItems).2 = .ok ()
    decide +kernel

theorem load_timings_long :
    ∃ t, Table.load (saveAll .empty longItems).1 timingsTextPath = .ok t ∧
      Table.load (saveAll .empty longItems).1 timingsFilePath = .ok t ∧
      t.length = longQueues.length ∧
      t.columns = [⟨"queue_id", longQueues.map .integer⟩, ⟨"start_time", longStarts.map .integer⟩,
        ⟨"elapsed", longQueues.map .integer⟩] :=
  load_timings longQueues longStarts longQueues length_longStarts rfl .empty
    (saveAll .empty longItems).1 timingsTextPath timingsFilePath (by decide +kernel)
    (.inl (by decide +kernel)) saveAll_longItems

end Sample

end LineChart
