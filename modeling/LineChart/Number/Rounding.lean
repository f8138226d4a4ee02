import LineChart.Number.Binary

/-!
# Rounding to a binary format

Every operation on binary numbers computes its exact result first, as a quotient of natural numbers
counted in finest steps, and rounds it once: to the nearest number of the format, a tie going to the
even neighbour, and to infinity beyond the largest finite number.

* `roundHalfEven` : a quotient rounded to a natural number.
* `FloatFormat.nearest` : a quotient rounded to a magnitude of the format.
* `Binary.ofInt`, `Binary.convert` : integers and numbers of another format, rounded.
* `Binary.truncate`, `Binary.floor`, `Binary.ceil`, `Binary.roundAway` : integers next to a number.
-/

namespace LineChart

/-- The quotient rounded to the nearest natural number, a tie going to the even neighbour. -/
def roundHalfEven (num den : Nat) : Nat :=
  let quotient := num / den
  let rest := num % den
  if 2 * rest < den then quotient
  else if den < 2 * rest then quotient + 1
  else if quotient % 2 = 0 then quotient else quotient + 1

theorem roundHalfEven_mul_right (n den : Nat) (h : 0 < den) : roundHalfEven (n * den) den = n := by
  have : 2 * 0 < den := by omega
  simp [roundHalfEven, Nat.mul_div_cancel n h, h]

/-- The rounded quotient is the whole part of the quotient or its successor. -/
theorem roundHalfEven_eq (num den : Nat) :
    roundHalfEven num den = num / den ∨ roundHalfEven num den = num / den + 1 := by
  simp only [roundHalfEven]
  split
  · exact .inl rfl
  · split
    · exact .inr rfl
    · split
      · exact .inl rfl
      · exact .inr rfl

namespace FloatFormat

/-- The magnitude nearest to `num / den` finest steps. The quotient keeps one more than
`fractionBits` leading binary digits, and a magnitude grows by `2 ^ fractionBits` with each binary
digit that is dropped. -/
def nearest (F : FloatFormat) (num den : Nat) : Nat :=
  let dropped := (num / den).log2 - F.fractionBits
  dropped <<< F.fractionBits + roundHalfEven num (den <<< dropped)

end FloatFormat

namespace Binary

variable {F G : FloatFormat}

/-- The number nearest to `num / den` finest steps, with a sign. -/
def ofRatio (negative : Bool) (num den : Nat) : Binary F :=
  ofMagnitude negative (F.nearest num den)

/-- The number nearest to a whole number of finest steps. Zero has the sign given. -/
def ofUnits (zeroSign : Bool) (steps : Int) : Binary F :=
  ofRatio (if steps = 0 then zeroSign else decide (steps < 0)) steps.natAbs 1

/-- The number nearest to an integer. -/
def ofInt (n : Int) : Binary F := ofUnits false (n * F.one)

def ofNat (n : Nat) : Binary F := ofInt n

/-- The number nearest to a number of another format. A NaN keeps its sign. -/
def convert (x : Binary F) : Binary G :=
  if x.isNaN then ⟨x.negative, (nan : Binary G).magnitude, (nan : Binary G).magnitude_lt⟩
  else if x.isInfinite then infinite x.negative
  else ofRatio x.negative (x.units * G.one) F.one

/-! ### Integers next to a number

The functions of this section speak of finite numbers. -/

/-- The integer part, toward zero. -/
def truncate (x : Binary F) : Int :=
  let whole : Int := (x.units / F.one : Nat)
  if x.negative then -whole else whole

/-- The greatest integer that is not above the number. -/
def floor (x : Binary F) : Int := x.signedUnits.fdiv F.one

/-- The least integer that is not below the number. -/
def ceil (x : Binary F) : Int := -((-x.signedUnits).fdiv F.one)

/-- The nearest integer, a half going away from zero. -/
def roundAway (x : Binary F) : Int :=
  let whole : Int := ((2 * x.units + F.one) / (2 * F.one) : Nat)
  if x.negative then -whole else whole

/-- An integer found for a number, kept between two bounds; NaN counts as zero and infinity as the
bound on its side. -/
def clampTo (low high : Int) (whole : Binary F → Int) (x : Binary F) : Int :=
  if x.isNaN then 0
  else if x.isInfinite then if x.negative then low else high
  else max low (min high (whole x))

end Binary

end LineChart
