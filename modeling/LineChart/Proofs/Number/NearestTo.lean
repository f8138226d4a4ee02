import LineChart.Proofs.Number.Order

/-!
# The number nearest to a value

A value with a sign, counted in finest steps, has one nearest number: of two that are equally near,
the one with the even magnitude. Sums and differences of numbers are rounded to it.

* `Binary.NearestTo` : a number nearest to a value.
* `Binary.NearestTo.unique` : there is one, up to the sign of zero.
* `Binary.nearestTo_ofUnits` : rounding finds it, if the value is in range.
* `Binary.Held` : the values that need no rounding.
* `Binary.add_eq`, `Binary.sub_eq` : sums and differences of finite numbers.
-/

namespace LineChart.Binary

variable {F : FloatFormat} {x y : Binary F} {steps : Int}

/-- A finite number nearest to a value in finest steps. If another number is as near, its own
magnitude is even. -/
structure NearestTo (x : Binary F) (steps : Int) : Prop where
  isFinite : x.isFinite = true
  nearest : ∀ y : Binary F, y.isFinite = true →
    (x.signedUnits - steps).natAbs ≤ (y.signedUnits - steps).natAbs
  even : ∀ y : Binary F, y.isFinite = true → y.signedUnits ≠ x.signedUnits →
    (y.signedUnits - steps).natAbs = (x.signedUnits - steps).natAbs → x.magnitude % 2 = 0

/-! ### Existence -/

theorem isFinite_zero (hx : x.isFinite = true) : (zero : Binary F).isFinite = true := by
  have hlt : x.magnitude < F.infinity := of_decide_eq_true hx
  refine decide_eq_true (Nat.lt_of_le_of_lt (Nat.min_le_left 0 F.infinity) ?_)
  omega

theorem natAbs_signedUnits (x : Binary F) : x.signedUnits.natAbs = x.units := by
  rw [signedUnits]
  split <;> omega

/-- The distance of two values is at least that of their sizes. -/
theorem natAbs_units_sub_le (y : Binary F) (steps : Int) :
    ((y.units * 1 : Nat) - steps.natAbs : Int).natAbs ≤ (y.signedUnits - steps).natAbs := by
  have habs := y.natAbs_signedUnits
  omega

/-- A number of the sign of a value is nearest to it if it is so by size. -/
theorem IsNearest.nearestTo (h : x.IsNearest steps.natAbs 1)
    (hsign : steps ≠ 0 → x.negative = decide (steps < 0)) : x.NearestTo steps := by
  have hdistance : (x.signedUnits - steps).natAbs =
      ((x.units * 1 : Nat) - steps.natAbs : Int).natAbs := by
    by_cases hzero : steps = 0
    · have habs := x.natAbs_signedUnits
      omega
    · rw [signedUnits, hsign hzero]
      by_cases hneg : steps < 0
      · rw [if_pos (decide_eq_true hneg)]
        omega
      · rw [if_neg (by simp [hneg])]
        omega
  refine ⟨h.isFinite, ?_, ?_⟩
  · intro y hy
    rw [hdistance]
    exact Nat.le_trans (h.nearest y hy) (natAbs_units_sub_le y steps)
  · intro y hy hne htie
    have hnear := h.nearest y hy
    have hfar := natAbs_units_sub_le y steps
    by_cases hunits : y.units = x.units
    · -- opposite numbers are equally near to zero alone, where zero itself is nearer
      have hzero := h.nearest zero (isFinite_zero h.isFinite)
      have habsx := x.natAbs_signedUnits
      have habsy := y.natAbs_signedUnits
      have hunitszero : (zero : Binary F).units = 0 := units_of_magnitude_eq_zero (Nat.zero_min _)
      omega
    · exact h.even y hy hunits (by omega)

/-- **Rounding finds the number nearest to a value** that is in range. -/
theorem nearestTo_ofUnits (hfraction : 0 < F.fractionBits) {zeroSign : Bool}
    (hfinite : (ofUnits zeroSign steps : Binary F).isFinite = true) :
    (ofUnits zeroSign steps : Binary F).NearestTo steps := by
  refine (isNearest_ofRatio Nat.one_pos hfraction hfinite).nearestTo fun hzero => ?_
  show (if steps = 0 then zeroSign else decide (steps < 0)) = _
  rw [if_neg hzero]

/-- A number is nearest to its own value. -/
theorem nearestTo_self (hx : x.isFinite = true) : x.NearestTo x.signedUnits where
  isFinite := hx
  nearest y _ := by simp
  even y _ hne htie := by omega

/-! ### Uniqueness -/

/-- Every place among the finite numbers is taken. -/
theorem exists_place_eq {place : Int} (hlow : -(F.infinity : Int) < place)
    (hhigh : place < F.infinity) : ∃ z : Binary F, z.isFinite = true ∧ z.place = place := by
  have hlt : place.natAbs < F.infinity := by omega
  refine ⟨⟨decide (place < 0), place.natAbs, Nat.lt_trans hlt F.infinity_lt⟩,
    decide_eq_true hlt, ?_⟩
  rw [Binary.place]
  by_cases hneg : place < 0
  · rw [if_pos (decide_eq_true hneg)]
    show -(place.natAbs : Int) = place
    omega
  · rw [if_neg (by simp [hneg])]
    show (place.natAbs : Int) = place
    omega

theorem natAbs_place (x : Binary F) : x.place.natAbs = x.magnitude := by
  rw [place]
  split <;> omega

theorem place_lt_iff : x.place < y.place ↔ x.signedUnits < y.signedUnits := by
  rw [← Int.not_le, ← Int.not_le, place_le_iff]

/-- Of two numbers nearest to a value, none is below the other: both would have even magnitudes, and
a number between them would be nearer. -/
theorem NearestTo.not_lt (hx : x.NearestTo steps) (hy : y.NearestTo steps) :
    ¬ x.signedUnits < y.signedUnits := by
  intro hlt
  have hxy := hx.nearest y hy.isFinite
  have hyx := hy.nearest x hx.isFinite
  have hevenx := hx.even y hy.isFinite (by omega) (by omega)
  have heveny := hy.even x hx.isFinite (by omega) (by omega)
  have hplace : x.place < y.place := place_lt_iff.2 hlt
  have hrangex := isFinite_iff.1 hx.isFinite
  have hrangey := isFinite_iff.1 hy.isFinite
  have habsx := x.natAbs_place
  have habsy := y.natAbs_place
  obtain ⟨z, hz, hbetween⟩ : ∃ z : Binary F, z.isFinite = true ∧ z.place = x.place + 1 :=
    exists_place_eq (by omega) (by omega)
  have hxz : x.signedUnits < z.signedUnits := place_lt_iff.1 (by omega)
  have hzy : z.signedUnits < y.signedUnits := place_lt_iff.1 (by omega)
  have hnear := hx.nearest z hz
  omega

/-- **The number nearest to a value is unique**, up to the sign of zero. -/
theorem NearestTo.unique (hx : x.NearestTo steps) (hy : y.NearestTo steps) :
    x.signedUnits = y.signedUnits :=
  Int.le_antisymm (Int.not_lt.1 (hy.not_lt hx)) (Int.not_lt.1 (hx.not_lt hy))

/-- The number nearest to a greater value is not below. -/
theorem NearestTo.mono {steps' : Int} (hx : x.NearestTo steps) (hy : y.NearestTo steps')
    (h : steps ≤ steps') : x.signedUnits ≤ y.signedUnits := by
  by_contra hlt
  have hxy := hx.nearest y hy.isFinite
  have hyx := hy.nearest x hx.isFinite
  -- both values would be the midpoint of the two numbers
  have hsteps : steps = steps' := by omega
  rw [← hsteps] at hy
  exact hlt (hx.unique hy).le

/-- Numbers at one place are nearest to the same values. -/
theorem NearestTo.of_place_eq (hx : x.NearestTo steps) (h : x.place = y.place) :
    y.NearestTo steps := by
  have hunits : x.signedUnits = y.signedUnits := place_eq_iff.1 h
  have hmagnitude : x.magnitude = y.magnitude := by rw [← natAbs_place, ← natAbs_place, h]
  refine ⟨?_, ?_, ?_⟩
  · rw [isFinite_iff, ← h, ← isFinite_iff]
    exact hx.isFinite
  · rw [← hunits]
    exact hx.nearest
  · rw [← hunits, ← hmagnitude]
    exact hx.even

/-! ### Values that a format has -/

/-- The values that a number of the format has exactly. -/
def Held (F : FloatFormat) (steps : Int) : Prop :=
  ∃ x : Binary F, x.isFinite = true ∧ x.signedUnits = steps

/-- A value that a number has is rounded to this number. -/
theorem Held.signedUnits_eq (h : Held F steps) (hx : x.NearestTo steps) :
    x.signedUnits = steps := by
  obtain ⟨y, hy, rfl⟩ := h
  exact hx.unique (nearestTo_self hy)

/-- A value that a number has bounds the rounded values above it. -/
theorem Held.le_signedUnits {bound : Int} (h : Held F bound) (hx : x.NearestTo steps)
    (hle : bound ≤ steps) : bound ≤ x.signedUnits := by
  obtain ⟨y, hy, rfl⟩ := h
  exact (nearestTo_self hy).mono hx hle

/-- A value that a number has bounds the rounded values below it. -/
theorem Held.signedUnits_le {bound : Int} (h : Held F bound) (hx : x.NearestTo steps)
    (hle : steps ≤ bound) : x.signedUnits ≤ bound := by
  obtain ⟨y, hy, rfl⟩ := h
  exact hx.mono (nearestTo_self hy) hle

/-- **Values that a format has are told apart** by the numbers nearest to them. -/
theorem exists_nearestTo_iff {steps' : Int} (h : Held F steps) (h' : Held F steps') :
    (∃ x : Binary F, x.NearestTo steps ∧ x.NearestTo steps') ↔ steps = steps' := by
  constructor
  · rintro ⟨x, hx, hx'⟩
    rw [← h.signedUnits_eq hx, h'.signedUnits_eq hx']
  · rintro rfl
    obtain ⟨x, hx, rfl⟩ := h
    exact ⟨x, nearestTo_self hx, nearestTo_self hx⟩

/-! ### Sums and differences -/

theorem isFinite_neg (x : Binary F) : (-x).isFinite = x.isFinite := rfl

theorem isNaN_neg (x : Binary F) : (-x).isNaN = x.isNaN := rfl

theorem signedUnits_neg (x : Binary F) : (-x).signedUnits = -x.signedUnits := by
  show (if !x.negative then -(x.units : Int) else x.units) = _
  rw [signedUnits]
  cases x.negative <;> simp

/-- Opposite values have opposite nearest numbers. -/
theorem NearestTo.neg (h : x.NearestTo steps) : (-x).NearestTo (-steps) := by
  have hdistance : ∀ y : Binary F,
      ((-y).signedUnits - steps).natAbs = (y.signedUnits - -steps).natAbs := by
    intro y
    rw [signedUnits_neg]
    omega
  have hself : ((-x).signedUnits - -steps).natAbs = (x.signedUnits - steps).natAbs := by
    rw [signedUnits_neg]
    omega
  refine ⟨h.isFinite, ?_, ?_⟩
  · intro y hy
    rw [hself, ← hdistance]
    exact h.nearest (-y) hy
  · intro y hy hne htie
    refine h.even (-y) hy ?_ ?_
    · rw [signedUnits_neg] at hne ⊢
      omega
    · rw [hdistance, htie, hself]

theorem place_neg (x : Binary F) : (-x).place = -x.place := by
  show (if !x.negative then -(x.magnitude : Int) else x.magnitude) = _
  rw [place]
  cases x.negative <;> simp

theorem isInfinite_of_isFinite (h : x.isFinite = true) : x.isInfinite = false := by
  have hlt : x.magnitude < F.infinity := of_decide_eq_true h
  rw [isInfinite, decide_eq_false_iff_not]
  omega

/-- The sum of finite numbers is their exact sum, rounded. -/
theorem add_eq (hx : x.isFinite = true) (hy : y.isFinite = true) :
    x + y = ofUnits (x.negative && y.negative) (x.signedUnits + y.signedUnits) := by
  show add x y = _
  simp [add, isNaN_of_isFinite hx, isNaN_of_isFinite hy, isInfinite_of_isFinite hx,
    isInfinite_of_isFinite hy]

/-- The difference of finite numbers is their exact difference, rounded. -/
theorem sub_eq (hx : x.isFinite = true) (hy : y.isFinite = true) :
    x - y = ofUnits (x.negative && !y.negative) (x.signedUnits - y.signedUnits) := by
  have hsub : x - y = x + -y := rfl
  rw [hsub, add_eq hx ((isFinite_neg y).trans hy), signedUnits_neg]
  rfl

end LineChart.Binary
