import LineChart.Description.Fields
import LineChart.Proofs.Number.Exact
import LineChart.Proofs.Table.Columns
import LineChart.Table.Records

/-!
# Agreement of cells

Row filters compare cells more loosely than groups do. Among texts, among truth values and among
integers that numbers hold exactly, the two comparisons are the same.

* `Cell.toJson` : the JSON value that a filter gives for a cell, which `Cell.ofJson` takes back.
* `Table.OneKind` : a column with one of these kinds of cells, missing ones apart.
* `Table.OneKind.agrees_eq` : in such a column, agreement with a key is equality.
-/

namespace LineChart

namespace Cell

/-- The JSON value of a cell. -/
def toJson : Cell → Json
  | .integer n => .ofInt n.toInt
  | .number x => jsonNumber x
  | .text s => .text s
  | .flag b => .flag b
  | .missing => .null

/-- **A cell is read back from its JSON value**, if it holds no number beyond all bounds. -/
theorem ofJson_toJson {k : Cell} (h : ∀ x, k = .number x → x.isFinite = true) :
    ofJson k.toJson = k := by
  cases k with
  | integer n =>
    have hfits : Int64.minValue.toInt ≤ n.toInt ∧ n.toInt < UInt64.size :=
      ⟨n.minValue_le_toInt, Int.lt_trans n.toInt_lt (by decide)⟩
    have hinteger : n.toInt ≤ Int64.maxValue.toInt := n.toInt_le
    rw [toJson, Json.ofInt, dif_pos hfits, ofJson, if_pos hinteger, Int64.ofInt_toInt]
  | number x => rw [toJson, jsonNumber, if_pos (h x rfl), ofJson]
  | text s => rfl
  | flag b => rfl
  | missing => rfl

/-! ### Kinds of keys -/

def IsText (cell : Cell) : Prop := ∃ s, cell = .text s

def IsFlag (cell : Cell) : Prop := ∃ b, cell = .flag b

/-- An integer that a number holds exactly, as all integers next to it do. -/
def IsExactInteger (cell : Cell) : Prop := ∃ n : Int64, cell = .integer n ∧ n.toInt.natAbs ≤ 2 ^ 53

variable {a b : Cell}

/-- A missing cell agrees with no key. -/
theorem missing_agrees (h : b ≠ .missing) : missing.agrees b = false := by
  rw [agrees]
  cases b with
  | missing => exact absurd rfl h
  | _ => rfl

theorem IsText.agrees_iff (ha : a.IsText) (hb : b.IsText) : a.agrees b = true ↔ a = b := by
  obtain ⟨s, rfl⟩ := ha
  obtain ⟨s', rfl⟩ := hb
  show decide (s = s') = true ↔ _
  rw [decide_eq_true_eq, text.injEq]

theorem IsFlag.agrees_iff (ha : a.IsFlag) (hb : b.IsFlag) : a.agrees b = true ↔ a = b := by
  obtain ⟨x, rfl⟩ := ha
  obtain ⟨y, rfl⟩ := hb
  have hbound : ∀ z : Bool, (if z then 1 else 0 : Int).natAbs ≤ 2 ^ 53 := by
    intro z
    refine Nat.le_trans ?_ Nat.one_le_two_pow
    cases z <;> decide
  have hequal := Binary.equal_ofInt_iff FloatFormat.holdsIntegers_double (hbound x) (hbound y)
  simp only [agrees, isLiteral, number?, Bool.or_self, Bool.false_eq_true, if_false, hequal]
  cases x <;> cases y <;> simp

theorem IsExactInteger.agrees_iff (ha : a.IsExactInteger) (hb : b.IsExactInteger) :
    a.agrees b = true ↔ a = b := by
  obtain ⟨x, rfl, hx⟩ := ha
  obtain ⟨y, rfl, hy⟩ := hb
  have hequal := Binary.equal_ofInt_iff FloatFormat.holdsIntegers_double hx hy
  simp only [agrees, isLiteral, number?, Bool.or_self, Bool.false_eq_true, if_false, hequal]
  rw [Int64.toInt_inj, integer.injEq]

end Cell

/-! ### Columns of one kind -/

namespace Table

variable {t : Table} {name : String} {c : Column} {P : Cell → Prop}

/-- Every cell of a column has a property, missing ones apart. -/
def AllPresent (t : Table) (name : String) (P : Cell → Prop) : Prop :=
  ∀ row cell, t.CellAt name row cell → cell ≠ .missing → P cell

/-- The cells of a column are all texts, all truth values, or all integers that numbers hold exactly,
missing ones apart. -/
def OneKind (t : Table) (name : String) : Prop :=
  t.AllPresent name Cell.IsText ∨ t.AllPresent name Cell.IsFlag ∨
    t.AllPresent name Cell.IsExactInteger

theorem AllPresent.of_mem (h : t.AllPresent name P) (hc : t.FirstNamed name c) {cell : Cell}
    (hmem : cell ∈ c.cells) (hne : cell ≠ .missing) : P cell := by
  obtain ⟨row, hrow⟩ := List.mem_iff_getElem?.1 hmem
  exact h row cell (hc.cellAt_iff.2 hrow) hne

/-- Where agreement is equality among the cells present, it is so among all cells and the keys. -/
theorem AllPresent.agrees_eq (h : t.AllPresent name P) (hc : t.FirstNamed name c)
    (hagrees : ∀ a b, P a → P b → (a.agrees b = true ↔ a = b)) {cell k : Cell}
    (hcell : cell ∈ c.cells) (hk : k ∈ c.cells) (hne : k ≠ .missing) :
    cell.agrees k = decide (cell = k) := by
  by_cases hmissing : cell = .missing
  · rw [hmissing, Cell.missing_agrees hne, eq_comm, decide_eq_false_iff_not]
    exact Ne.symm hne
  · rw [Bool.eq_iff_iff, decide_eq_true_eq]
    exact hagrees cell k (h.of_mem hc hcell hmissing) (h.of_mem hc hk hne)

/-- **In a column of one kind, agreement with a key is equality.** -/
theorem OneKind.agrees_eq (h : t.OneKind name) (hc : t.FirstNamed name c) {cell k : Cell}
    (hcell : cell ∈ c.cells) (hk : k ∈ c.cells) (hne : k ≠ .missing) :
    cell.agrees k = decide (cell = k) := by
  rcases h with htext | hflag | hinteger
  · exact htext.agrees_eq hc (fun _ _ => Cell.IsText.agrees_iff) hcell hk hne
  · exact hflag.agrees_eq hc (fun _ _ => Cell.IsFlag.agrees_iff) hcell hk hne
  · exact hinteger.agrees_eq hc (fun _ _ => Cell.IsExactInteger.agrees_iff) hcell hk hne

/-- A key of a column of one kind is read back from its JSON value. -/
theorem OneKind.ofJson_toJson (h : t.OneKind name) (hc : t.FirstNamed name c) {k : Cell}
    (hk : k ∈ c.cells) : Cell.ofJson k.toJson = k := by
  refine Cell.ofJson_toJson ?_
  intro x hx
  subst hx
  have hne : Cell.number x ≠ .missing := by simp
  rcases h with htext | hflag | hinteger
  · obtain ⟨s, hs⟩ := htext.of_mem hc hk hne
    cases hs
  · obtain ⟨b, hb⟩ := hflag.of_mem hc hk hne
    cases hb
  · obtain ⟨n, hn, -⟩ := hinteger.of_mem hc hk hne
    cases hn

end Table

end LineChart
