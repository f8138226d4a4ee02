import LineChart.Proofs.Number.Widening
import LineChart.Proofs.Table.Integers
import LineChart.Proofs.Table.Pushing
import LineChart.Proofs.Table.Rows

/-!
# What columnar files are loaded as

A columnar file is loaded exactly if its foreign columns hold nothing. Every column of the table then
has a cell for each row of the file, which says what the typed column holds in that row. Neither
depends on the batches that the rows come in.

* `TypedCells.Reads` : what a cell says of a row of a typed column.
* `Columnar.ReadFrom` : a column of a table with the rows of a typed column.
* `Columnar.load_converts` : which files are loaded and as what, in any batches.
-/

namespace LineChart

namespace TypedCells

/-- A row of a typed column is null. -/
def NullAt : TypedCells → Nat → Prop
  | signed cells, row => cells[row]? = some none
  | unsigned cells, row => cells[row]? = some none
  | single cells, row => cells[row]? = some none
  | double cells, row => cells[row]? = some none
  | text cells, row => cells[row]? = some none
  | flag cells, row => cells[row]? = some none
  | nulls n, row => row < n
  | foreign _ present, row => present[row]? = some false

/-- What a cell says of a row of a typed column: nulls are missing, and everything else is the same
value. An unsigned integer that is none with a sign is the number nearest to it. -/
inductive Reads : TypedCells → Nat → Cell → Prop
  | missing {typed : TypedCells} {row : Nat} (h : typed.NullAt row) : Reads typed row .missing
  | signed {cells : List (Option Int64)} {row : Nat} {n : Int64} (h : cells[row]? = some (some n)) :
    Reads (.signed cells) row (.integer n)
  | unsigned {cells : List (Option UInt64)} {row : Nat} {n : UInt64} {k : Cell}
    (h : cells[row]? = some (some n)) (hk : HoldsInteger (some n.toNat) k) :
    Reads (.unsigned cells) row k
  | single {cells : List (Option Single)} {row : Nat} {x : Single} {y : Double}
    (h : cells[row]? = some (some x)) (hy : x.SameNumber y) : Reads (.single cells) row (.number y)
  | double {cells : List (Option Double)} {row : Nat} {x : Double}
    (h : cells[row]? = some (some x)) : Reads (.double cells) row (.number x)
  | text {cells : List (Option String)} {row : Nat} {s : String} (h : cells[row]? = some (some s)) :
    Reads (.text cells) row (.text s)
  | flag {cells : List (Option Bool)} {row : Nat} {b : Bool} (h : cells[row]? = some (some b)) :
    Reads (.flag cells) row (.flag b)

/-- The cell of an unsigned integer holds it. -/
theorem holdsInteger_cellOfUnsigned (n : UInt64) :
    HoldsInteger (some n.toNat) (cellOfUnsigned n) := by
  have hfits : FitsUnsigned (n.toNat : Int) :=
    ⟨Int.natCast_nonneg _, Int.ofNat_lt.2 n.toNat_lt_size⟩
  show HoldsInteger (some (n.toNat : Int)) (.ofInteger (some (n.toNat : Int)))
  refine holdsInteger_ofInteger ?_
  intro value hvalue
  obtain rfl := Option.some.inj hvalue
  exact .inr hfits

/-- **The cell of a row says what the row holds.** -/
theorem reads_of_read? {typed : TypedCells} {row : Nat} {k : Cell}
    (h : typed.read? row = some (.ok k)) : typed.Reads row k := by
  cases typed with
  | nulls n =>
    rw [read?] at h
    split at h
    · next hrow =>
      obtain ⟨⟩ := h
      exact .missing hrow
    · cases h
  | foreign type present =>
    obtain ⟨holds, hrow, hk⟩ := Option.map_eq_some_iff.1 h
    cases holds with
    | true => cases hk
    | false =>
      obtain ⟨⟩ := hk
      exact .missing hrow
  | signed | unsigned | single | double | text | flag =>
    obtain ⟨c, hrow, hk⟩ := Option.map_eq_some_iff.1 h
    obtain rfl := Except.ok.inj hk
    cases c with
    | none => exact .missing hrow
    | some value =>
      first
        | exact .signed hrow
        | exact .unsigned hrow (holdsInteger_cellOfUnsigned value)
        | exact .single hrow (Single.sameNumber_convert value)
        | exact .double hrow
        | exact .text hrow
        | exact .flag hrow

end TypedCells

namespace Columnar

/-- A column of a table with the name of a typed column, a cell for each of its rows, and in each the
cell that says what the row holds. -/
structure ReadFrom (typed : String × TypedCells) (c : Column) : Prop where
  name : c.name = typed.1
  length : c.cells.length = typed.2.length
  cells : ∀ row k, c.cells[row]? = some k → typed.2.Reads row k

/-- The converted columns have the rows of the typed ones. -/
theorem readFrom_of_converts {columns : List (String × TypedCells)} {converted : List (List Cell)}
    (h : List.Forall₂ Converts columns converted) :
    List.Forall₂ ReadFrom columns (List.zipWith Column.mk (columns.map Prod.fst) converted) := by
  induction h with
  | nil => exact .nil
  | @cons column cells columns converted hfirst _ ih =>
    refine .cons ⟨rfl, TypedCells.length_cells hfirst, ?_⟩ ih
    intro row k hk
    refine TypedCells.reads_of_read? ?_
    rw [TypedCells.read?_of_cells hfirst, hk]
    rfl

/-- The batches of a file are whole. -/
theorem push_split (f : File) (sizes : List Nat) :
    push f.columnNames (f.split 0 sizes) = some (columnsOfBatches f.columnNames (f.split 0 sizes)) := by
  refine push_eq fun batch hbatch => ?_
  obtain ⟨hlength, hcount⟩ := rectangular_of_mem_split hbatch
  exact ⟨by rw [hlength, File.columnNames, List.length_map], hcount⟩

/-- **Batches of all rows have columns** exactly if no foreign column holds anything. -/
theorem exists_columnsOfBatches_iff {f : File} {sizes : List Nat} (hsizes : f.length ≤ sizes.sum) :
    (∃ columns, columnsOfBatches f.columnNames (f.split 0 sizes) = .ok columns) ↔ f.Convertible := by
  rw [← exists_converts_iff]
  constructor
  · rintro ⟨columns, hcolumns⟩
    obtain ⟨converted, hconverted, -⟩ := (columnsOfBatches_eq_ok_iff hsizes).1 hcolumns
    exact ⟨converted, hconverted⟩
  · rintro ⟨converted, hconverted⟩
    exact ⟨_, columnsOfBatches_split hconverted hsizes⟩

/-- The columns that are loaded are those from any batches of all rows. -/
theorem loadColumns_eq_ok_iff {files : Files} {path : Path} {f : File} {sizes : List Nat}
    (hextension : path.extension = "parquet" ∨ path.extension = "pq")
    (hfile : files.openFile path = .ok (.columnar f)) (hsizes : f.length ≤ sizes.sum)
    {columns : List Column} :
    loadColumns files path = .ok columns ↔
      columnsOfBatches f.columnNames (f.split 0 sizes) = .ok columns := by
  rw [columnsOfBatches_eq_ok_iff hsizes, ← columns_eq_ok_iff, loadColumns_parquet hextension hfile]
  cases Columnar.columns f <;> simp [Except.mapError]

/-- **A columnar file is loaded exactly if its foreign columns hold nothing**, whatever the sizes of
the batches that hand over its rows. Filling its columns cell by cell never asks a batch for a column
or a row that it does not have, and gives the columns of the table. They are the columns of the file,
by name, each with a cell for every row, in order, that says what the row holds. -/
theorem load_converts (files : Files) (path : Path) (f : File) (sizes : List Nat)
    (hextension : path.extension = "parquet" ∨ path.extension = "pq")
    (hfile : files.openFile path = .ok (.columnar f)) (hsizes : f.length ≤ sizes.sum) :
    (∃ result, push f.columnNames (f.split 0 sizes) = some result ∧
      ((∃ columns, result = .ok columns) ↔ f.Convertible)) ∧
    ((∃ t, Table.load files path = .ok t) ↔ f.Convertible) ∧
    ∀ t, Table.load files path = .ok t →
      push f.columnNames (f.split 0 sizes) = some (.ok t.columns) ∧
      List.Forall₂ ReadFrom f.columns t.columns := by
  have hload : ∀ columns, (∃ t, Table.load files path = .ok t ∧ t.columns = columns) ↔
      columnsOfBatches f.columnNames (f.split 0 sizes) = .ok columns := by
    intro columns
    rw [Table.exists_load_iff, loadColumns_eq_ok_iff hextension hfile hsizes]
  have hexists := exists_columnsOfBatches_iff hsizes
  refine ⟨⟨_, push_split f sizes, hexists⟩, ?_, ?_⟩
  · rw [← hexists]
    constructor
    · intro h
      obtain ⟨t, ht⟩ := h
      exact ⟨t.columns, (hload t.columns).1 ⟨t, ht, rfl⟩⟩
    · intro h
      obtain ⟨columns, hcolumns⟩ := h
      obtain ⟨t, ht, -⟩ := (hload columns).2 hcolumns
      exact ⟨t, ht⟩
  · intro t ht
    have hcolumns := (hload t.columns).1 ⟨t, ht, rfl⟩
    refine ⟨by rw [push_split, hcolumns], ?_⟩
    obtain ⟨converted, hconverted, hzip⟩ := (columnsOfBatches_eq_ok_iff hsizes).1 hcolumns
    rw [hzip]
    exact readFrom_of_converts hconverted

/-- Timings with an empty column of dates, and a file with a date. -/
def datelessTimings : File :=
  ⟨[("queue", .unsigned [some 18446744073709551615, none, some 7]),
    ("elapsed", .single [none, some (.ofNat 3), some .nan]),
    ("day", .foreign .date32 [false, false, false])], by decide⟩

def datedTimings : File := ⟨[("day", .foreign .date32 [false, true])], by decide⟩

def timingFiles : Files :=
  { entries := [(["dateless.parquet"], .file (.columnar datelessTimings)),
      (["dated.pq"], .file (.columnar datedTimings))] }

theorem convertible_datelessTimings : datelessTimings.Convertible := by
  intro name type present hcolumn
  simp only [datelessTimings, List.mem_cons, Prod.mk.injEq, reduceCtorEq, and_false, List.not_mem_nil,
    or_false, false_or, TypedCells.foreign.injEq] at hcolumn
  obtain ⟨-, -, rfl⟩ := hcolumn
  decide

theorem load_converts_timingFiles :
    (∃ t, Table.load timingFiles ⟨"dateless.parquet"⟩ = .ok t ∧
      push datelessTimings.columnNames (datelessTimings.split 0 [1, 0, 2]) = some (.ok t.columns) ∧
      List.Forall₂ ReadFrom datelessTimings.columns t.columns) ∧
    ¬ ∃ t, Table.load timingFiles ⟨"dated.pq"⟩ = .ok t := by
  constructor
  · obtain ⟨-, hiff, hall⟩ := load_converts timingFiles ⟨"dateless.parquet"⟩ datelessTimings [1, 0, 2]
      (.inl (by decide +kernel)) rfl (by decide)
    obtain ⟨t, ht⟩ := hiff.2 convertible_datelessTimings
    exact ⟨t, ht, hall t ht⟩
  · obtain ⟨-, hiff, -⟩ := load_converts timingFiles ⟨"dated.pq"⟩ datedTimings [2]
      (.inr (by decide +kernel)) rfl (by decide)
    intro hload
    have hpresent := hiff.1 hload "day" .date32 [false, true] (by simp [datedTimings])
    exact hpresent (by decide)

end Columnar

end LineChart
