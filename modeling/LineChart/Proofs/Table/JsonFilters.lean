import LineChart.Proofs.Table.Division
import LineChart.Proofs.Table.Gathering

/-!
# Filters on tables of records

A filter names the value that it looks for as a JSON value, and so does a record its values. Both become
cells in the same way, and such a cell agrees with itself, since no JSON text stands for NaN. So a filter
finds every record that has its value.

* `Cell.ofField`, `Cell.ofWanted` : the cell of a value in a record, and the cell that a filter looks for.
* `Cell.ofJsonOr_eq` : they are the same cell.
* `Cell.agrees_self_iff` : every cell agrees with itself, NaN apart.
* `Records.Tabulates.mem_rowsWhere_iff` : the rows that a filter finds, by the values of their records.
* `Table.load_finds` : the records that a filter finds in a loaded table.
-/

namespace LineChart

/-! ### Cells of values -/

namespace Json

/-- The integer of sixty-four bits that a value is, if it is one. -/
def int64? : Json → Option Int64
  | .integer n => if n.value ≤ Int64.maxValue.toInt then some (.ofInt n.value) else none
  | _ => none

/-- The double nearest to a number. -/
def double? : Json → Option Double
  | .integer n => some (.ofInt n.value)
  | .decimal x => some x
  | _ => none

end Json

namespace Cell

/-- The cell of a JSON value, with a spare one for a number that has no double. -/
def ofJsonOr (spare : Cell) (json : Json) : Cell :=
  match json with
  | .null => .missing
  | .flag b => .flag b
  | .text s => .text s
  | .list _ | .record _ => .text json.render
  | .integer _ | .decimal _ =>
    match json.int64? with
    | some n => .integer n
    | none =>
      match json.double? with
      | some x => .number x
      | none => spare

/-- The cell of a value in a record, where a number without a double would become its text. -/
def ofField (json : Json) : Cell := ofJsonOr (.text json.render) json

/-- The cell that a filter looks for, where a number without a double would be missing. -/
def ofWanted (json : Json) : Cell := ofJsonOr .missing json

/-- **Every number has a double**, so the spare cell is never used. -/
theorem ofJsonOr_eq (spare : Cell) (json : Json) : ofJsonOr spare json = ofJson json := by
  cases json with
  | integer n =>
    rw [ofJson]
    by_cases hfits : n.value ≤ Int64.maxValue.toInt
    · rw [if_pos hfits]
      simp [ofJsonOr, Json.int64?, hfits]
    · rw [if_neg hfits]
      simp [ofJsonOr, Json.int64?, Json.double?, hfits]
  | null | flag | decimal | text | list | record => rfl

/-! ### Cells that agree with themselves -/

variable {cell : Cell}

/-- A cell with a number agrees with itself as the number does. -/
theorem agrees_self_of_number {x : Double} (hliteral : cell.isLiteral = false)
    (hx : cell.number? = some x) : cell.agrees cell = !x.isNaN := by
  rw [agrees, hliteral, hx]
  show x.equal x = !x.isNaN
  rw [Binary.equal]
  simp

/-- **A cell agrees with itself unless it is NaN.** -/
theorem agrees_self_iff : cell.agrees cell = true ↔ ∀ x, cell = .number x → x.isNaN = false := by
  have hinteger : ∀ n : Int, (Binary.ofInt n : Double).isNaN = false :=
    fun n => Binary.isNaN_ofUnits _ _
  cases cell with
  | integer n =>
    rw [agrees_self_of_number rfl rfl, hinteger]
    exact iff_of_true rfl fun _ h => Cell.noConfusion h
  | number x =>
    rw [agrees_self_of_number rfl rfl, Bool.not_eq_true']
    exact ⟨fun hx _ h => Cell.number.inj h ▸ hx, fun h => h x rfl⟩
  | flag b =>
    rw [agrees_self_of_number rfl rfl, hinteger]
    exact iff_of_true rfl fun _ h => Cell.noConfusion h
  | text s =>
    have hself : (text s).agrees (text s) = true := decide_eq_true rfl
    exact iff_of_true hself fun _ h => Cell.noConfusion h
  | missing => exact iff_of_true rfl fun _ h => Cell.noConfusion h

/-- The cell of a value without NaN agrees with itself. -/
theorem agrees_ofJson_self {json : Json} (h : json.DecimalsAre fun x => x.isNaN = false) :
    (ofJson json).agrees (ofJson json) = true := by
  rw [agrees_self_iff]
  intro x hx
  cases h with
  | decimal hnan =>
    rw [ofJson] at hx
    cases hx
    exact hnan
  | integer n =>
    rw [ofJson] at hx
    split at hx
    · cases hx
    · cases hx
      exact Binary.isNaN_ofUnits _ _
  | null | flag | text | list | record => cases hx

/-- A missing cell agrees with missing cells alone. -/
theorem agrees_missing_iff : cell.agrees .missing = true ↔ cell = .missing := by
  cases cell with
  | missing => exact iff_of_true rfl rfl
  | integer | number | text | flag => exact iff_of_false Bool.false_ne_true nofun

/-- Null alone becomes a missing cell. -/
theorem ofJson_eq_missing_iff {json : Json} : ofJson json = .missing ↔ json = .null := by
  cases json with
  | integer n =>
    rw [ofJson]
    split <;> simp
  | null | flag | decimal | text | list | record => simp [ofJson]

end Cell

/-! ### Records that are found -/

namespace Records

variable {records : List Record} {t : Table} {name : String} {row : Nat} {rows : List Nat}

/-- A row has the cell of its record's value under a name, or a missing one without a value. -/
theorem Tabulates.cellAt_iff (h : Tabulates records t) (hname : name ∈ t.columnNames) {cell : Cell} :
    t.CellAt name row cell ↔ ∃ record, records[row]? = some record ∧
      ((∃ value, (name, value) ∈ record ∧ cell = .ofJson value) ∨
        (name ∉ record.map Prod.fst ∧ cell = .missing)) := by
  constructor
  · intro hcell
    have hrow : row < records.length := by
      obtain ⟨c, hc, hat⟩ := hcell
      rw [← h.length c hc.mem_columns]
      exact (List.getElem?_eq_some_iff.1 hat).1
    have hrecord : records[row]? = some records[row] := List.getElem?_eq_getElem hrow
    refine ⟨records[row], hrecord, ?_⟩
    by_cases hmem : name ∈ records[row].map Prod.fst
    · obtain ⟨⟨_, value⟩, hvalue, rfl⟩ := List.mem_map.1 hmem
      exact .inl ⟨value, hvalue, hcell.unique (h.present row _ _ value hrecord hvalue)⟩
    · exact .inr ⟨hmem, hcell.unique (h.absent row _ name hrecord hname hmem)⟩
  · rintro ⟨record, hrecord, ⟨value, hvalue, rfl⟩ | ⟨hmem, rfl⟩⟩
    · exact h.present row record name value hrecord hvalue
    · exact h.absent row record name hrecord hname hmem

/-- The rows that a filter finds, by the values of their records. -/
theorem Tabulates.mem_rowsWhere_iff (h : Tabulates records t) (hname : name ∈ t.columnNames)
    {wanted : Cell} (hrows : t.rowsWhere name wanted = .ok rows) :
    row ∈ rows ↔ ∃ record, records[row]? = some record ∧
      ((∃ value, (name, value) ∈ record ∧ (Cell.ofJson value).agrees wanted = true) ∨
        (name ∉ record.map Prod.fst ∧ Cell.missing.agrees wanted = true)) := by
  obtain ⟨c, hc, rfl⟩ := (Table.rowsWhere_eq_ok_iff wanted).1 hrows
  rw [(hc.rowsWhere (·.agrees wanted)).2]
  simp only [h.cellAt_iff hname]
  constructor
  · rintro ⟨cell, ⟨record, hrecord, ⟨value, hvalue, rfl⟩ | ⟨hmem, rfl⟩⟩, hagrees⟩
    · exact ⟨record, hrecord, .inl ⟨value, hvalue, hagrees⟩⟩
    · exact ⟨record, hrecord, .inr ⟨hmem, hagrees⟩⟩
  · rintro ⟨record, hrecord, ⟨value, hvalue, hagrees⟩ | ⟨hmem, hagrees⟩⟩
    · exact ⟨_, ⟨record, hrecord, .inl ⟨value, hvalue, rfl⟩⟩, hagrees⟩
    · exact ⟨_, ⟨record, hrecord, .inr ⟨hmem, rfl⟩⟩, hagrees⟩

/-- The values of records that are read from a text are not NaN. -/
theorem decimalsAre_of_read? {text : String}
    (h : Json.read? text = some (.list (records.map .record))) {record : Record}
    (hrecord : record ∈ records) {field : String × Json} (hfield : field ∈ record) :
    field.2.DecimalsAre fun x => x.isNaN = false := by
  cases Json.inherited_isNaN.of_read? h with
  | list hitems =>
    cases hitems _ (List.mem_map_of_mem hrecord) with
    | record hfields => exact hfields field hfield

end Records

namespace Table

/-- **A filter finds the records that have its value.** A value becomes the same cell in a record as in
a filter. In the table of a JSON text, a filter on one of its columns finds every record that has the
very value that is wanted, and a filter for null finds just the records that have null there or
nothing. -/
theorem load_finds (files : Files) (path : Path) (text : String) (t : Table)
    (hextension : path.extension = "json") (hfile : files.openFile path = .ok (.ofText text))
    (h : load files path = .ok t) :
    (∀ json, Cell.ofField json = Cell.ofJson json ∧ Cell.ofWanted json = Cell.ofJson json) ∧
      ∃ records : List Records.Record, Json.read? text = some (.list (records.map .record)) ∧
        ∀ name ∈ t.columnNames, ∀ wanted, ∃ rows,
          t.rowsWhere name (Cell.ofJson wanted) = .ok rows ∧
            (∀ row record, records[row]? = some record → (name, wanted) ∈ record → row ∈ rows) ∧
            (wanted = .null → ∀ row, row ∈ rows ↔ ∃ record, records[row]? = some record ∧
              ((name, .null) ∈ record ∨ name ∉ record.map Prod.fst)) := by
  refine ⟨fun json => ⟨Cell.ofJsonOr_eq _ json, Cell.ofJsonOr_eq _ json⟩, ?_⟩
  obtain ⟨records, hread⟩ := exists_records_of_load hextension hfile h
  obtain ⟨t', ht', htable, -⟩ := exists_load_records hextension hfile hread
  obtain rfl := Except.ok.inj (h.symm.trans ht')
  refine ⟨records, hread, ?_⟩
  intro name hname wanted
  obtain ⟨c, hc⟩ := exists_firstNamed hname
  have hrows := (rowsWhere_eq_ok_iff (Cell.ofJson wanted)).2 ⟨c, hc, rfl⟩
  refine ⟨_, hrows, ?_, ?_⟩
  · intro row record hrecord hvalue
    have hnan := Records.decimalsAre_of_read? hread (List.mem_of_getElem? hrecord) hvalue
    exact (htable.mem_rowsWhere_iff hname hrows).2
      ⟨record, hrecord, .inl ⟨wanted, hvalue, Cell.agrees_ofJson_self hnan⟩⟩
  · rintro rfl row
    rw [htable.mem_rowsWhere_iff hname hrows, Cell.ofJson_eq_missing_iff.2 rfl]
    refine exists_congr fun record => and_congr_right fun _ => or_congr ?_ ?_
    · simp only [Cell.agrees_missing_iff, Cell.ofJson_eq_missing_iff, exists_eq_right]
    · simp only [Cell.agrees_missing_iff, and_true]

/-- Weights of queues, one of them with a burst that is not given. -/
def burstWeights : Json := .list [.integer ⟨500, by decide⟩, .record [("burst", .null)]]

/-- Records of which the first has these weights, the second has none, the third has null, and the last
has a text. -/
def weightRecords : List Records.Record :=
  [[("weights", burstWeights)], [], [("weights", .null)], [("weights", .text "none")]]

def weightFiles : Files :=
  { entries := [(["w.json"], .file (.ofText (Json.list (weightRecords.map .record)).render))] }

theorem burstWeights_ascending : burstWeights.Ascending := by
  refine .list (List.forall_mem_cons.2 ⟨.integer _, List.forall_mem_singleton.2 ?_⟩)
  exact .record (List.pairwise_singleton _ _) (List.forall_mem_singleton.2 .null)

theorem burstWeights_readable : burstWeights.Readable 2 := by
  refine .list (List.forall_mem_cons.2 ⟨.integer _, List.forall_mem_singleton.2 ?_⟩)
  exact .record (List.forall_mem_singleton.2 .null)

theorem read?_weightRecords : Json.read? (Json.list (weightRecords.map .record)).render =
    some (.list (weightRecords.map .record)) := by
  have hascending : ∀ record ∈ weightRecords, (Json.record record).Ascending := by
    refine List.forall_mem_cons.2 ⟨.record (List.pairwise_singleton _ _) ?_, List.forall_mem_cons.2
      ⟨.record .nil (by simp), List.forall_mem_cons.2 ⟨.record (List.pairwise_singleton _ _) ?_,
        List.forall_mem_singleton.2 (.record (List.pairwise_singleton _ _) ?_)⟩⟩⟩
    · exact List.forall_mem_singleton.2 burstWeights_ascending
    · exact List.forall_mem_singleton.2 .null
    · exact List.forall_mem_singleton.2 (.text "none")
  have hreadable : ∀ record ∈ weightRecords, (Json.record record).Readable 3 := by
    refine List.forall_mem_cons.2 ⟨.record ?_, List.forall_mem_cons.2
      ⟨.record (by simp), List.forall_mem_cons.2 ⟨.record ?_, List.forall_mem_singleton.2 (.record ?_)⟩⟩⟩
    · exact List.forall_mem_singleton.2 burstWeights_readable
    · exact List.forall_mem_singleton.2 .null
    · exact List.forall_mem_singleton.2 (.text "none")
  exact Json.read?_render (.list (List.forall_mem_map.2 hascending))
    (.list (List.forall_mem_map.2 hreadable)) (by decide)

/-- The weights are found in the first record, and null in the two behind it. -/
theorem load_finds_weightFiles :
    ∃ t, load weightFiles ⟨"w.json"⟩ = .ok t ∧
      (∃ rows, t.rowsWhere "weights" (Cell.ofJson burstWeights) = .ok rows ∧ 0 ∈ rows) ∧
      ∃ rows, t.rowsWhere "weights" (Cell.ofJson .null) = .ok rows ∧ 1 ∈ rows ∧ 2 ∈ rows ∧
        0 ∉ rows ∧ 3 ∉ rows := by
  have hextension : Path.extension ⟨"w.json"⟩ = "json" := by
    decide +kernel
  have hopened : weightFiles.openFile ⟨"w.json"⟩ =
      .ok (.ofText (Json.list (weightRecords.map .record)).render) := rfl
  obtain ⟨t, ht, htable, -⟩ := exists_load_records hextension hopened read?_weightRecords
  have hname : "weights" ∈ t.columnNames :=
    (htable.names "weights").2 ⟨_, List.mem_cons_self, by decide⟩
  obtain ⟨-, records, hread, hfound⟩ := load_finds weightFiles ⟨"w.json"⟩ _ t hextension hopened ht
  rw [read?_weightRecords, Option.some.injEq, Json.list.injEq] at hread
  obtain rfl := List.map_injective_iff.2 (fun _ _ => Json.record.inj) hread
  obtain ⟨found, hfirst, hhas, -⟩ := hfound "weights" hname burstWeights
  obtain ⟨missing, hsecond, -, hnull⟩ := hfound "weights" hname .null
  refine ⟨t, ht, ⟨found, hfirst, hhas 0 _ rfl List.mem_cons_self⟩, missing, hsecond, ?_⟩
  simp only [hnull rfl]
  refine ⟨⟨[], rfl, .inr (by simp)⟩, ⟨_, rfl, .inl List.mem_cons_self⟩, ?_, ?_⟩
  · rintro ⟨record, hrecord, hnone⟩
    obtain rfl := Option.some.inj hrecord
    simp [burstWeights] at hnone
  · rintro ⟨record, hrecord, hnone⟩
    obtain rfl := Option.some.inj hrecord
    simp at hnone

end Table

end LineChart
