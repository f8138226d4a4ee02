import LineChart.Proofs.Table.JsonFilters

/-!
# What filters see of cells

A filter sees of a cell the place of its number among all numbers, or its text, or that it is missing.
Different kinds of cells may show it the same number, and NaN shows it nothing. Cells agree exactly if it
sees the same of both, so agreement is symmetric and transitive across all kinds, and the filters by two
values find the same rows or no row in common.

* `Cell.FilterValue`, `Cell.filterValue?` : what a filter sees of a cell.
* `Cell.agrees_iff_filterValue` : cells agree if it sees the same of both.
* `Cell.agrees_comm`, `Cell.agrees_trans` : the laws that follow.
* `Table.filters_by_agreeing_values` : the laws, and the rows of the filters by two values.
-/

namespace LineChart

namespace Cell

/-- What a filter sees of a cell. -/
inductive FilterValue where
  | place (place : Int)
  | text (value : String)
  | missing

/-- What a filter sees of a number; NaN has no place. -/
def placed? (x : Double) : Option FilterValue := if x.isNaN then none else some (.place x.place)

/-- What a filter sees of a cell. Integers and truth values are seen as the numbers next to them. -/
def filterValue? : Cell → Option FilterValue
  | .integer n => placed? (.ofInt n.toInt)
  | .number x => placed? x
  | .flag b => placed? (.ofInt (if b then 1 else 0))
  | .text s => some (.text s)
  | .missing => some .missing

variable {a b c : Cell}

/-! ### Agreement by what is seen -/

theorem placed?_eq_some_iff {x : Double} {v : FilterValue} :
    placed? x = some v ↔ x.isNaN = false ∧ v = .place x.place := by
  rw [placed?]
  cases x.isNaN <;> simp [eq_comm]

/-- Numbers are equal if they are seen at one place. -/
theorem equal_iff_placed {x y : Double} :
    x.equal y = true ↔ ∃ v, placed? x = some v ∧ placed? y = some v := by
  simp only [placed?_eq_some_iff]
  constructor
  · intro h
    simp only [Binary.equal, Bool.and_eq_true, Bool.not_eq_true', decide_eq_true_eq] at h
    obtain ⟨⟨hx, hy⟩, hplace⟩ := h
    exact ⟨.place x.place, ⟨hx, rfl⟩, hy, by rw [hplace]⟩
  · intro h
    obtain ⟨v, ⟨hx, rfl⟩, hy, hplace⟩ := h
    exact (Binary.equal_iff hx hy).2 (FilterValue.place.inj hplace)

/-- A cell is compared by its content alone, or it has a number, at whose place it is seen. -/
theorem isLiteral_or_placed (cell : Cell) :
    cell.isLiteral = true ∨
      ∃ x, cell.isLiteral = false ∧ cell.number? = some x ∧ cell.filterValue? = placed? x := by
  cases cell with
  | integer | number | flag => exact .inr ⟨_, rfl, rfl, rfl⟩
  | text | missing => exact .inl rfl

theorem filterValue?_eq_text_iff {s : String} :
    a.filterValue? = some (.text s) ↔ a = .text s := by
  cases a <;> simp [filterValue?, placed?_eq_some_iff]

theorem filterValue?_eq_missing_iff : a.filterValue? = some .missing ↔ a = .missing := by
  cases a <;> simp [filterValue?, placed?_eq_some_iff]

theorem same_comm (a b : Cell) : a.same b = b.same a := by
  cases a with
  | integer n =>
    cases b with
    | integer m => exact decide_eq_decide.2 eq_comm
    | number | text | flag | missing => rfl
  | number x =>
    cases b with
    | number y => exact Binary.equal_comm x y
    | integer | text | flag | missing => rfl
  | text s =>
    cases b with
    | text s' => exact decide_eq_decide.2 eq_comm
    | integer | number | flag | missing => rfl
  | flag p =>
    cases b with
    | flag q => exact Bool.beq_comm
    | integer | number | text | missing => rfl
  | missing => cases b <;> rfl

theorem same_text_iff {s : String} : a.same (.text s) = true ↔ a = .text s := by
  cases a with
  | text s' => exact decide_eq_true_iff.trans (Cell.text.injEq s' s).symm.to_iff
  | integer | number | flag | missing => exact iff_of_false Bool.false_ne_true nofun

theorem same_missing_iff : a.same .missing = true ↔ a = .missing := by
  cases a with
  | missing => exact iff_of_true rfl rfl
  | integer | number | text | flag => exact iff_of_false Bool.false_ne_true nofun

/-- A cell and one that is compared by its content alone. -/
theorem same_iff_filterValue (h : b.isLiteral = true) :
    a.same b = true ↔ ∃ v, a.filterValue? = some v ∧ b.filterValue? = some v := by
  have hseen : ∀ {v}, b.filterValue? = some v →
      ((∃ w, a.filterValue? = some w ∧ b.filterValue? = some w) ↔ a.filterValue? = some v) := by
    intro v hv
    constructor
    · intro hw
      obtain ⟨w, ha, hb⟩ := hw
      rw [ha, ← hb, hv]
    · intro ha
      exact ⟨v, ha, hv⟩
  cases b with
  | integer | number | flag => exact absurd h Bool.false_ne_true
  | text s =>
    rw [hseen rfl, filterValue?_eq_text_iff, same_text_iff]
  | missing =>
    rw [hseen rfl, filterValue?_eq_missing_iff, same_missing_iff]

/-- **Cells agree exactly if a filter sees the same of both.** -/
theorem agrees_iff_filterValue :
    a.agrees b = true ↔ ∃ v, a.filterValue? = some v ∧ b.filterValue? = some v := by
  rcases isLiteral_or_placed a with ha | ⟨x, ha, hx, hax⟩
  · rw [agrees, ha, Bool.true_or, if_pos rfl, same_comm, same_iff_filterValue ha]
    exact exists_congr fun _ => And.comm
  · rcases isLiteral_or_placed b with hb | ⟨y, hb, hy, hby⟩
    · rw [agrees, hb, Bool.or_true, if_pos rfl]
      exact same_iff_filterValue hb
    · rw [hax, hby, ← equal_iff_placed]
      simp [agrees, ha, hb, hx, hy]

theorem agrees_comm (a b : Cell) : a.agrees b = b.agrees a := by
  rw [Bool.eq_iff_iff, agrees_iff_filterValue, agrees_iff_filterValue]
  exact exists_congr fun _ => And.comm

theorem agrees_trans (hab : a.agrees b = true) (hbc : b.agrees c = true) : a.agrees c = true := by
  obtain ⟨v, ha, hb⟩ := agrees_iff_filterValue.1 hab
  obtain ⟨w, hb', hc⟩ := agrees_iff_filterValue.1 hbc
  obtain rfl := Option.some.inj (hb.symm.trans hb')
  exact agrees_iff_filterValue.2 ⟨v, ha, hc⟩

/-- Cells that agree are taken for one another by every filter. -/
theorem agrees_congr (h : a.agrees b = true) (cell : Cell) : cell.agrees a = cell.agrees b := by
  rw [Bool.eq_iff_iff]
  constructor
  · intro ha
    exact agrees_trans ha h
  · intro hb
    exact agrees_trans hb ((agrees_comm b a).trans h)

end Cell

/-! ### Rows of two filters -/

namespace Table

variable {t : Table} {name : String} {c : Column} {a b : Cell}

/-- A row that both filters find holds a cell that agrees with both values. -/
theorem FirstNamed.agrees_of_mem_rows (hc : t.FirstNamed name c) {row : Nat}
    (ha : row ∈ rowsPassing (·.agrees a) 0 c.cells)
    (hb : row ∈ rowsPassing (·.agrees b) 0 c.cells) : a.agrees b = true := by
  obtain ⟨cell, hcell, hagrees⟩ := ((hc.rowsWhere (·.agrees a)).2 row).1 ha
  obtain ⟨cell', hcell', hagrees'⟩ := ((hc.rowsWhere (·.agrees b)).2 row).1 hb
  rw [← hcell.unique hcell'] at hagrees'
  exact Cell.agrees_trans ((Cell.agrees_comm a cell).trans hagrees) hagrees'

/-- **Agreement is a partial equivalence**: symmetric and transitive across all kinds of cells, and
reflexive for every cell but NaN. So in every column, filters by values that agree find the same rows, and
filters by values that do not agree find no row in common. -/
theorem filters_by_agreeing_values (a b c : Cell) (t : Table) (name : String) :
    a.agrees b = b.agrees a ∧
      (a.agrees b = true → b.agrees c = true → a.agrees c = true) ∧
      (a.agrees a = true ↔ ∀ x, a = .number x → x.isNaN = false) ∧
      (name ∈ t.columnNames → ∃ rows rows', t.rowsWhere name a = .ok rows ∧
        t.rowsWhere name b = .ok rows' ∧ (a.agrees b = true → rows = rows') ∧
        (a.agrees b = false → rows.Disjoint rows')) := by
  refine ⟨Cell.agrees_comm a b, Cell.agrees_trans, Cell.agrees_self_iff, ?_⟩
  intro hname
  obtain ⟨column, hc⟩ := exists_firstNamed hname
  refine ⟨_, _, (rowsWhere_eq_ok_iff a).2 ⟨column, hc, rfl⟩,
    (rowsWhere_eq_ok_iff b).2 ⟨column, hc, rfl⟩, ?_, ?_⟩
  · intro h
    have htest : (fun cell : Cell => cell.agrees a) = fun cell => cell.agrees b :=
      funext (Cell.agrees_congr h)
    rw [htest]
  · intro h row ha hb
    rw [hc.agrees_of_mem_rows ha hb] at h
    cases h

/-- One, the number one and the truth value agree, and a filter by any of them finds the rows of all three.
The filter by the other truth value finds the two zeros. -/
theorem filters_by_agreeing_values_looseQueues :
    (Cell.integer 1).agrees (.number (.ofNat 1)) = true ∧
      (Cell.number (.ofNat 1)).agrees (.flag true) = true ∧
      (Cell.integer 1).agrees (.flag true) = true ∧
      "queue" ∈ looseQueues.columnNames ∧
      ∃ rows rows', looseQueues.rowsWhere "queue" (.integer 1) = .ok rows ∧
        looseQueues.rowsWhere "queue" (.flag false) = .ok rows' ∧ rows = [1, 3, 7] ∧
        rows' = [0, 5] ∧ rows.Disjoint rows' := by
  have hone : (Cell.integer 1).agrees (.number (.ofNat 1)) = true := by decide +kernel
  have htrue : (Cell.number (.ofNat 1)).agrees (.flag true) = true := by decide +kernel
  have hfalse : (Cell.integer 1).agrees (.flag false) = false := by decide +kernel
  have hname : "queue" ∈ looseQueues.columnNames := List.mem_singleton_self _
  obtain ⟨-, htrans, -, -⟩ := filters_by_agreeing_values (.integer 1) (.number (.ofNat 1))
    (.flag true) looseQueues "queue"
  obtain ⟨-, -, -, hfilters⟩ := filters_by_agreeing_values (.integer 1) (.flag false) .missing
    looseQueues "queue"
  obtain ⟨rows, rows', hrows, hrows', -, hdisjoint⟩ := hfilters hname
  have hfound : (looseQueues.rowsWhere "queue" (.integer 1)).toOption = some [1, 3, 7] := by
    decide +kernel
  have hfound' : (looseQueues.rowsWhere "queue" (.flag false)).toOption = some [0, 5] := by
    decide +kernel
  rw [hrows] at hfound
  rw [hrows'] at hfound'
  exact ⟨hone, htrue, htrans hone htrue, hname, rows, rows', hrows, hrows', Option.some.inj hfound,
    Option.some.inj hfound', hdisjoint hfalse⟩

end Table

end LineChart
