import LineChart.Proofs.Number.Halves
import LineChart.Proofs.Table.Agreement
import LineChart.Proofs.Table.Groups

/-!
# Filtering by value

Integers, truth values and finite numbers have an exact value. A filter compares the numbers nearest
to the values, so it tells two values apart as far as doubles do: beyond `2 ^ 53` there are integers
that it takes for one another.

* `Cell.steps?` : the exact value of a cell.
* `Cell.agrees_iff_nearestTo` : cells agree if one number is nearest to both values.
* `Cell.agrees_eq_same` : cells of which one has no exact value agree if their contents are the same.
* `agrees_by_nearest` : the comparison of all cells, and the rows that a filter by an integer finds.
* `exists_integers_taken_for_one_another` : different integers that agree.
-/

namespace LineChart

open FloatFormat (double)

namespace Cell

/-- The exact value, in finest steps, of an integer, a truth value or a finite number. -/
def steps? : Cell → Option Int
  | .integer n => some (n.toInt * double.one)
  | .flag b => some ((if b then 1 else 0) * double.one)
  | .number x => if x.isFinite then some x.signedUnits else none
  | _ => none

/-! ### Numbers of cells -/

/-- The integers of sixty-four bits are in the range of doubles. -/
theorem isFinite_ofInt {n : Int} (h : n.natAbs ≤ 2 ^ 63) :
    (Binary.ofInt n : Double).isFinite = true := by
  rw [Binary.ofInt, Double.isFinite_ofUnits_iff, Binary.natAbs_mul_one]
  refine Nat.lt_of_le_of_lt (Nat.mul_le_mul_right _ h) ?_
  decide +kernel

theorem nearestTo_ofInt {n : Int} (h : n.natAbs ≤ 2 ^ 63) :
    (Binary.ofInt n : Double).NearestTo (n * double.one) :=
  Binary.nearestTo_ofUnits (by decide) (isFinite_ofInt h)

theorem natAbs_toInt_le (n : Int64) : n.toInt.natAbs ≤ 2 ^ 63 := by
  have hlow := n.le_toInt
  have hhigh := n.toInt_lt
  omega

theorem natAbs_flag_le (b : Bool) : (if b then 1 else 0 : Int).natAbs ≤ 2 ^ 63 :=
  Nat.le_trans (by cases b <;> decide) Nat.one_le_two_pow

/-- **A cell with an exact value is plotted at the number nearest to it.** -/
theorem exists_number {cell : Cell} {n : Int} (h : cell.steps? = some n) :
    ∃ x, cell.number? = some x ∧ cell.isLiteral = false ∧ x.NearestTo n := by
  cases cell with
  | integer value =>
    obtain rfl := Option.some.inj h
    exact ⟨_, rfl, rfl, nearestTo_ofInt (natAbs_toInt_le value)⟩
  | flag b =>
    obtain rfl := Option.some.inj h
    exact ⟨_, rfl, rfl, nearestTo_ofInt (natAbs_flag_le b)⟩
  | number x =>
    rw [steps?] at h
    split at h
    · obtain rfl := Option.some.inj h
      exact ⟨x, rfl, rfl, Binary.nearestTo_self ‹_›⟩
    · cases h
  | text _ => cases h
  | missing => cases h

/-! ### Agreement -/

variable {a b : Cell}

/-- **Cells with exact values agree if one number is nearest to both.** -/
theorem agrees_iff_nearestTo {m n : Int} (ha : a.steps? = some m) (hb : b.steps? = some n) :
    a.agrees b = true ↔ ∃ x : Double, x.NearestTo m ∧ x.NearestTo n := by
  obtain ⟨x, hx, haliteral, hxm⟩ := exists_number ha
  obtain ⟨y, hy, hbliteral, hyn⟩ := exists_number hb
  have hequal := Binary.equal_iff (Binary.isNaN_of_isFinite hxm.isFinite)
    (Binary.isNaN_of_isFinite hyn.isFinite)
  simp only [agrees, haliteral, hbliteral, hx, hy, Bool.or_self, Bool.false_eq_true, if_false]
  rw [hequal]
  constructor
  · intro hplace
    exact ⟨y, hxm.of_place_eq hplace, hyn⟩
  · rintro ⟨z, hzm, hzn⟩
    rw [Binary.place_eq_iff, hxm.unique hzm, hyn.unique hzn]

/-- A number that is not finite agrees with the contents that are the same. -/
theorem agrees_eq_same_of_number {x : Double} (hx : x.isFinite = false) (b : Cell) :
    (number x).agrees b = (number x).same b ∧ b.agrees (number x) = b.same (number x) := by
  cases b with
  | integer n =>
    have hequal := Binary.equal_of_isFinite_ne hx (isFinite_ofInt (natAbs_toInt_le n))
    exact ⟨hequal, (Binary.equal_comm _ _).trans hequal⟩
  | flag b =>
    have hequal := Binary.equal_of_isFinite_ne hx (isFinite_ofInt (natAbs_flag_le b))
    exact ⟨hequal, (Binary.equal_comm _ _).trans hequal⟩
  | number y => exact ⟨rfl, rfl⟩
  | text _ => exact ⟨rfl, rfl⟩
  | missing => exact ⟨rfl, rfl⟩

/-- Without an exact value, a cell is compared by its content alone or is a number that is not
finite. -/
theorem isLiteral_or_number (h : a.steps? = none) :
    a.isLiteral = true ∨ ∃ x, a = .number x ∧ x.isFinite = false := by
  cases a with
  | integer _ => cases h
  | flag _ => cases h
  | number x => exact .inr ⟨x, rfl, by simpa [steps?] using h⟩
  | text _ => exact .inl rfl
  | missing => exact .inl rfl

/-- **Without exact values, cells agree if their contents are the same.** -/
theorem agrees_eq_same (h : a.steps? = none ∨ b.steps? = none) : a.agrees b = a.same b := by
  rcases h with ha | hb
  · rcases isLiteral_or_number ha with hliteral | ⟨x, rfl, hx⟩
    · simp [agrees, hliteral]
    · exact (agrees_eq_same_of_number hx b).1
  · rcases isLiteral_or_number hb with hliteral | ⟨x, rfl, hx⟩
    · simp [agrees, hliteral]
    · exact (agrees_eq_same_of_number hx a).2

/-! ### Integers -/

theorem mul_one_le_iff {m n : Int} : m * double.one ≤ n * double.one ↔ m ≤ n := by
  have hpos : (0 : Int) < double.one := Int.natCast_pos.2 double.one_pos
  exact ⟨fun h => Int.le_of_mul_le_mul_right h hpos,
    fun h => Int.mul_le_mul_of_nonneg_right h hpos.le⟩

/-- **An integer below `2 ^ 53` is taken for no other integer.** -/
theorem eq_of_nearestTo {m n : Int} {x : Double} (hn : n.natAbs < 2 ^ 53)
    (hxm : x.NearestTo (m * double.one)) (hxn : x.NearestTo (n * double.one)) : m = n := by
  have hpower : (2 ^ 53 : Int).natAbs = 2 ^ 53 := by decide
  have hx : x.signedUnits = n * double.one := (Double.held_mul_one hn.le).signedUnits_eq hxn
  rcases Int.lt_trichotomy m n with hlt | rfl | hlt
  · -- an integer further down is rounded to one that is further down
    have hstep : Binary.Held double ((n - 1) * double.one) := Double.held_mul_one (by omega)
    have hle := hstep.signedUnits_le hxm (mul_one_le_iff.2 (by omega))
    rw [hx, mul_one_le_iff] at hle
    omega
  · rfl
  · have hstep : Binary.Held double ((n + 1) * double.one) := Double.held_mul_one (by omega)
    have hle := hstep.le_signedUnits hxm (mul_one_le_iff.2 (by omega))
    rw [hx, mul_one_le_iff] at hle
    omega

end Cell

/-! ### Filters by an integer -/

/-- The integers that a filter takes for one another: one double is nearest to both. -/
def Cell.ShareDouble (m n : Int64) : Prop :=
  ∃ x : Double, x.NearestTo (m.toInt * double.one) ∧ x.NearestTo (n.toInt * double.one)

namespace Table

variable {t : Table} {name : String} {c : Column}

/-- The filter by an integer, in a column of integers, keeps the rows of the integers that share its
double. -/
theorem FirstNamed.rowsWhere_integer (h : t.FirstNamed name c)
    (hintegers : ∀ cell ∈ c.cells, ∃ m, cell = .integer m) (n : Int64) :
    ∃ rows, t.rowsWhere name (.integer n) = .ok rows ∧
      t.RowsWhere name (fun cell => ∃ m, cell = .integer m ∧ Cell.ShareDouble m n) rows := by
  refine ⟨_, (rowsWhere_eq_ok_iff (.integer n)).2 ⟨c, h, rfl⟩, ?_⟩
  have hrows := h.rowsWhere (·.agrees (.integer n))
  refine ⟨hrows.1, fun row => ?_⟩
  rw [hrows.2]
  refine exists_congr fun cell => and_congr_right fun hcell => ?_
  obtain ⟨m, rfl⟩ := hintegers cell (h.exists_cellAt_iff.1 ⟨row, hcell⟩)
  show (Cell.integer m).agrees (.integer n) = true ↔ _
  rw [Cell.agrees_iff_nearestTo rfl rfl]
  simp [Cell.ShareDouble]

end Table

/-- **Cells are compared by the numbers nearest to their values.** Cells with an exact value agree if
one number is nearest to both values, which is to say that the values are equal if doubles have them;
other cells agree if their contents are the same. A filter by an integer, in a column of integers,
finds the rows of the integers that share its double; below `2 ^ 53` it finds the rows that hold the
integer. -/
theorem agrees_by_nearest (a b : Cell) (t : Table) (name : String) (c : Column) (n : Int64) :
    (∀ u v, a.steps? = some u → b.steps? = some v →
      (a.agrees b = true ↔ ∃ x : Double, x.NearestTo u ∧ x.NearestTo v) ∧
      (Binary.Held double u → Binary.Held double v → (a.agrees b = true ↔ u = v))) ∧
    (a.steps? = none ∨ b.steps? = none → a.agrees b = a.same b) ∧
    (t.FirstNamed name c → (∀ cell ∈ c.cells, ∃ m, cell = .integer m) →
      ∃ rows, t.rowsWhere name (Cell.ofJson (.ofInt n.toInt)) = .ok rows ∧
        t.RowsWhere name (fun cell => ∃ m, cell = .integer m ∧ Cell.ShareDouble m n) rows ∧
        (n.toInt.natAbs < 2 ^ 53 → t.RowsWhere name (fun cell => cell = .integer n) rows)) := by
  refine ⟨fun u v ha hb => ⟨Cell.agrees_iff_nearestTo ha hb, fun hu hv => ?_⟩,
    Cell.agrees_eq_same, fun hc hintegers => ?_⟩
  · rw [Cell.agrees_iff_nearestTo ha hb, Binary.exists_nearestTo_iff hu hv]
  · obtain ⟨rows, hrows, hshare⟩ := hc.rowsWhere_integer hintegers n
    have hjson : Cell.ofJson (.ofInt n.toInt) = .integer n :=
      Cell.ofJson_toJson (k := .integer n) (by simp)
    rw [hjson]
    refine ⟨rows, hrows, hshare, fun hn => ⟨hshare.1, fun row => ?_⟩⟩
    rw [hshare.2]
    refine exists_congr fun cell => and_congr_right fun _ => ?_
    constructor
    · rintro ⟨m, rfl, x, hxm, hxn⟩
      rw [Int64.toInt_inj.1 (Cell.eq_of_nearestTo hn hxm hxn)]
    · rintro rfl
      have hn' : (Cell.integer n).steps? = some (n.toInt * double.one) := rfl
      obtain ⟨x, -, -, hx⟩ := Cell.exists_number hn'
      exact ⟨n, rfl, x, hx, hx⟩

/-- A table with one column, of start times. -/
def startTimes (times : List Int64) : Table where
  columns := [⟨"start_time", times.map .integer⟩]
  rectangular := by simp [rowCount]

theorem firstNamed_startTimes (times : List Int64) :
    (startTimes times).FirstNamed "start_time" ⟨"start_time", times.map .integer⟩ :=
  ⟨[], [], rfl, rfl, by simp⟩

/-- One agrees with the truth value `true`, and of three integers around `2 ^ 53` the first is found
alone. -/
theorem firstTime_found :
    ((Cell.integer 1).agrees (.flag true) = true ↔ ∃ x : Double,
      x.NearestTo ((1 : Int64).toInt * double.one) ∧ x.NearestTo (1 * double.one)) ∧
    ∃ rows, (startTimes [9007199254740991, 9007199254740992, 9007199254740993]).rowsWhere
        "start_time" (Cell.ofJson (.ofInt (9007199254740991 : Int64).toInt)) = .ok rows ∧
      rows = [0] ∧
      (startTimes [9007199254740991, 9007199254740992, 9007199254740993]).RowsWhere "start_time"
        (fun cell => cell = .integer 9007199254740991) rows := by
  obtain ⟨hagree, -, hfilter⟩ := agrees_by_nearest (.integer 1) (.flag true)
    (startTimes [9007199254740991, 9007199254740992, 9007199254740993]) "start_time" _
    9007199254740991
  obtain ⟨rows, hrows, -, hexact⟩ := hfilter
    (firstNamed_startTimes [9007199254740991, 9007199254740992, 9007199254740993]) (by simp)
  have hfound : ((startTimes [9007199254740991, 9007199254740992, 9007199254740993]).rowsWhere
      "start_time" (Cell.ofJson (.ofInt (9007199254740991 : Int64).toInt))).toOption =
        some [0] := by
    decide +kernel
  rw [hrows] at hfound
  exact ⟨(hagree _ _ rfl rfl).1, rows, hrows, Option.some.inj hfound, hexact (by decide)⟩

/-- Two start times that are one nanosecond apart are taken for one another: they agree, and the
filter by the second one finds the first as well. -/
theorem exists_integers_taken_for_one_another :
    (¬ ∀ (a b : Cell) (m n : Int), a.steps? = some m → b.steps? = some n →
      (a.agrees b = true ↔ m = n)) ∧
    ¬ ∀ (t : Table) (name : String) (c : Column) (n : Int64) (rows : List Nat),
      t.FirstNamed name c → (∀ cell ∈ c.cells, ∃ m, cell = .integer m) →
      t.rowsWhere name (Cell.ofJson (.ofInt n.toInt)) = .ok rows →
      t.RowsWhere name (fun cell => cell = .integer n) rows := by
  constructor
  · intro h
    have hagrees : (Cell.integer 1700000000000000000).agrees (.integer 1700000000000000001) =
        true := by
      decide +kernel
    have hvalues := (h _ _ _ _ rfl rfl).1 hagrees
    exact absurd hvalues (by decide +kernel)
  · intro h
    have hfirst := firstNamed_startTimes [1700000000000000000, 1700000000000000001]
    have hfound : ((startTimes [1700000000000000000, 1700000000000000001]).rowsWhere "start_time"
        (Cell.ofJson (.ofInt (1700000000000000001 : Int64).toInt))).toOption.map
          (fun rows => decide (0 ∈ rows)) = some true := by
      decide +kernel
    obtain ⟨rows, hrows, hzero⟩ := exists_ok_of_map hfound
    have hexact := h _ _ _ 1700000000000000001 rows hfirst (by simp) hrows
    obtain ⟨cell, hcell, hequal⟩ := (hexact.2 0).1 (of_decide_eq_true hzero)
    rw [hfirst.cellAt_iff] at hcell
    cases hcell
    exact absurd hequal (by decide)

end LineChart
