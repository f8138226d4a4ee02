import LineChart.Table.Cell
import Mathlib.Data.List.Sort

/-!
# The order of cells

`Cell.order` is a linear order of all cells, numbers with their bit patterns included. A list of
cells that ascends strictly is therefore known from its members alone.

* `Cell.order` is oriented, transitive, and tells different cells apart, as instances.
* `Cell.Ascending` : a list of cells, each one before the next.
* `Cell.Ascending.eq_of_mem_iff` : ascending lists with the same members are the same.
-/

namespace LineChart.Cell

/-- Cells of different kinds have the order of their kinds. -/
theorem order_of_kindPlace_ne {a b : Cell} (h : a.kindPlace ≠ b.kindPlace) :
    a.order b = compare a.kindPlace b.kindPlace := by
  cases a <;> cases b <;> first | rfl | exact absurd rfl h

theorem order_swap (a b : Cell) : a.order b = (b.order a).swap := by
  by_cases h : a.kindPlace = b.kindPlace
  · cases a <;> cases b <;> simp [kindPlace] at h <;> exact Std.OrientedOrd.eq_swap
  · rw [order_of_kindPlace_ne h, order_of_kindPlace_ne (Ne.symm h)]
    exact Std.OrientedOrd.eq_swap

theorem kindPlace_le_of_isLE {a b : Cell} (h : (a.order b).isLE) : a.kindPlace ≤ b.kindPlace := by
  by_cases hk : a.kindPlace = b.kindPlace
  · exact hk.le
  · rw [order_of_kindPlace_ne hk, Nat.isLE_compare] at h
    exact h

theorem order_trans {a b c : Cell} (hab : (a.order b).isLE) (hbc : (b.order c).isLE) :
    (a.order c).isLE := by
  have hkab := kindPlace_le_of_isLE hab
  have hkbc := kindPlace_le_of_isLE hbc
  by_cases hk : a.kindPlace = c.kindPlace
  · -- all three are of one kind, where the contents are compared
    have hb : a.kindPlace = b.kindPlace := by omega
    cases a <;> cases b <;> simp [kindPlace] at hb <;> cases c <;> simp [kindPlace] at hk <;>
      exact Std.TransOrd.isLE_trans hab hbc
  · rw [order_of_kindPlace_ne hk, Nat.isLE_compare]
    omega

instance : Std.OrientedCmp order where
  eq_swap := order_swap _ _

instance : Std.TransCmp order where
  isLE_trans := order_trans

instance : Std.LawfulEqCmp order where
  compare_self := order_eq_iff.2 rfl
  eq_of_compare := order_eq_iff.1

/-! ### Ascending lists -/

/-- A list of cells, each one before the next. -/
def Ascending (cells : List Cell) : Prop := cells.Pairwise fun a b => a.order b = .lt

theorem order_self_ne_lt (a : Cell) : a.order a ≠ .lt := by
  rw [order_eq_iff.2 rfl]
  decide

theorem Ascending.nodup {cells : List Cell} (h : Ascending cells) : cells.Nodup := by
  refine h.imp ?_
  intro a b hab heq
  rw [heq] at hab
  exact order_self_ne_lt b hab

/-- **Ascending lists with the same members are the same.** -/
theorem Ascending.eq_of_mem_iff {as bs : List Cell} (ha : Ascending as) (hb : Ascending bs)
    (h : ∀ k, k ∈ as ↔ k ∈ bs) : as = bs := by
  have hperm : as.Perm bs := (List.perm_ext_iff_of_nodup ha.nodup hb.nodup).2 h
  refine hperm.eq_of_pairwise ?_ ha hb
  intro a b _ _ hab hba
  rw [order_swap, hba] at hab
  cases hab

end LineChart.Cell
