import LineChart.Proofs.Table.CellOrder
import Mathlib.Data.List.Sort

/-!
# Sorted cells

`Cell.order` is a linear order, numbers being told apart by their bits. So a list of cells can be sorted
in one way only, whatever order its members were in: keys that are sorted come out the same.

* `Cell.Identical` : cells of one kind and one content, bit by bit.
* `Cell.sorted` : cells in ascending order.
* `Cell.eq_sorted` : a list in ascending order is what its members are sorted into.
* `Cell.order_linear` : the laws of the order, and of sorting by it.
-/

namespace LineChart.Cell

/-! ### Cells of one content -/

/-- Cells of one kind and one content, where numbers have the same bits. -/
inductive Identical : Cell → Cell → Prop
  | integer (n : Int64) : Identical (.integer n) (.integer n)
  | number {x y : Double} (h : x.toBits = y.toBits) : Identical (.number x) (.number y)
  | text (s : String) : Identical (.text s) (.text s)
  | flag (b : Bool) : Identical (.flag b) (.flag b)
  | missing : Identical .missing .missing

variable {a b : Cell}

theorem identical_iff : a.Identical b ↔ a = b := by
  constructor
  · intro h
    cases h with
    | @number x y hbits => rw [← Binary.ofBits_toBits x, ← Binary.ofBits_toBits y, hbits]
    | integer | text | flag | missing => rfl
  · rintro rfl
    cases a with
    | integer n => exact .integer n
    | number x => exact .number rfl
    | text s => exact .text s
    | flag b => exact .flag b
    | missing => exact .missing

/-! ### Sorting -/

/-- One cell is not behind another one. -/
def AtMost (a b : Cell) : Prop := (a.order b).isLE = true

theorem AtMost.antisymm (hab : a.AtMost b) (hba : b.AtMost a) : a = b :=
  order_eq_iff.1 (Std.OrientedCmp.isLE_antisymm hab hba)

theorem atMost_total (a b : Cell) : a.AtMost b ∨ b.AtMost a := by
  rw [AtMost, AtMost, order_swap b a]
  cases a.order b <;> simp

/-- Cells in ascending order. -/
def sorted (cells : List Cell) : List Cell := cells.mergeSort fun a b => (a.order b).isLE

theorem sorted_perm (cells : List Cell) : (sorted cells).Perm cells := List.mergeSort_perm cells _

theorem pairwise_sorted (cells : List Cell) : (sorted cells).Pairwise AtMost := by
  refine List.pairwise_mergeSort ?_ ?_ cells
  · intro a b c hab hbc
    exact order_trans hab hbc
  · intro a b
    rw [Bool.or_eq_true]
    exact atMost_total a b

/-- **A list in ascending order is what its members are sorted into.** -/
theorem eq_sorted {cells ascending : List Cell} (hperm : ascending.Perm cells)
    (h : ascending.Pairwise AtMost) : ascending = sorted cells :=
  (hperm.trans (sorted_perm cells).symm).eq_of_pairwise (fun _ _ _ _ => AtMost.antisymm) h
    (pairwise_sorted cells)

/-- Lists are sorted into the same list exactly if they have the same members, each as often. -/
theorem sorted_eq_sorted_iff {as bs : List Cell} : sorted as = sorted bs ↔ as.Perm bs := by
  constructor
  · intro h
    have hperm := (sorted_perm as).symm
    rw [h] at hperm
    exact hperm.trans (sorted_perm bs)
  · intro h
    exact eq_sorted ((sorted_perm as).trans h) (pairwise_sorted as)

/-- **The order of cells is linear.** It is reversed by exchanging the cells, puts two cells in one place
exactly if they are the same bit by bit, and is transitive. Sorting by it brings the members of a list
into ascending order, for which there is one list only, so two lists are sorted into the same list exactly
if one is a permutation of the other. -/
theorem order_linear (a b c : Cell) (as bs : List Cell) :
    a.order b = (b.order a).swap ∧
      (a.order b = .eq ↔ a.Identical b) ∧
      (a.AtMost b → b.AtMost c → a.AtMost c) ∧
      (sorted as).Perm as ∧ (sorted as).Pairwise AtMost ∧
      (∀ ascending : List Cell, ascending.Perm as → ascending.Pairwise AtMost →
        ascending = sorted as) ∧
      (sorted as = sorted bs ↔ as.Perm bs) := by
  refine ⟨order_swap a b, ?_, order_trans, sorted_perm as, pairwise_sorted as, ?_,
    sorted_eq_sorted_iff⟩
  · rw [order_eq_iff, identical_iff]
  · intro ascending hperm h
    exact eq_sorted hperm h

/-- Cells of all kinds, among them both zeros and a NaN of either sign. -/
def mixedCells : List Cell :=
  [.missing, .flag false, .flag true, .integer (-1), .integer 2, .number (-.nan),
    .number .negativeZero, .number .zero, .number (.infinite false), .number .nan, .text "", .text "a"]

theorem order_linear_mixedCells :
    (number (-.nan)).AtMost (.number .negativeZero) ∧ (number .negativeZero).AtMost (.number .zero) ∧
      (number (-.nan)).AtMost (.number .zero) ∧
      (number .negativeZero).order (.number .zero) ≠ .eq ∧
      ¬ (number .negativeZero).Identical (.number .zero) ∧
      sorted mixedCells.reverse = mixedCells := by
  have hfirst : (number (-.nan)).AtMost (.number .negativeZero) := by
    rw [AtMost]
    decide +kernel
  have hsecond : (number .negativeZero).AtMost (.number .zero) := by
    rw [AtMost]
    decide +kernel
  obtain ⟨-, -, htrans, -, -, hunique, -⟩ := order_linear (.number (-.nan)) (.number .negativeZero)
    (.number .zero) mixedCells.reverse mixedCells
  obtain ⟨-, hzeros, -⟩ := order_linear (.number .negativeZero) (.number .zero) .missing [] []
  have hne : (number .negativeZero).order (.number .zero) ≠ .eq := by
    decide +kernel
  have hascending : mixedCells.Pairwise AtMost := by
    show mixedCells.Pairwise fun a b => (a.order b).isLE = true
    decide +kernel
  exact ⟨hfirst, hsecond, htrans hfirst hsecond, hne, fun h => hne (hzeros.2 h),
    (hunique mixedCells (List.reverse_perm _).symm hascending).symm⟩

end LineChart.Cell
