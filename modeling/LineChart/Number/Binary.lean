/-!
# Binary floating-point numbers

A number of a binary interchange format is held as a sign and a *magnitude*: the exponent field and
the fraction field read together as one natural number. Magnitudes ascend with the numbers they
stand for, so every comparison below is a comparison of integers.

* `Binary.units` : the absolute value of a finite number, counted in the format's finest step.
* `Binary.equal`, `Binary.less` : comparison of values; NaN compares with nothing and the two zeros
  are equal.
* `Binary.rank` : the total order of all bit patterns, in which the two zeros and all NaNs differ.

The exact value of a finite number is a whole number of finest steps, which is what makes exact
arithmetic on `Int` possible.
-/

namespace LineChart

/-- A binary interchange format: the widths of its exponent field and its fraction field. -/
structure FloatFormat where
  exponentBits : Nat
  fractionBits : Nat
deriving DecidableEq

namespace FloatFormat

/-- Sixty-four bits in all, eleven of them for the exponent. -/
@[reducible] def double : FloatFormat := ⟨11, 52⟩

/-- Thirty-two bits in all, eight of them for the exponent. -/
@[reducible] def single : FloatFormat := ⟨8, 23⟩

/-- The number of bits below the sign. -/
def magnitudeBits (F : FloatFormat) : Nat := F.exponentBits + F.fractionBits

/-- The magnitude of infinity. Smaller magnitudes are finite, larger ones are NaN. -/
def infinity (F : FloatFormat) : Nat := (1 <<< F.exponentBits - 1) <<< F.fractionBits

/-- The finest step between two numbers of the format is `2 ^ (-scale)`. -/
def scale (F : FloatFormat) : Nat := 1 <<< (F.exponentBits - 1) - 2 + F.fractionBits

/-- The number of finest steps from zero to one. -/
def one (F : FloatFormat) : Nat := 1 <<< F.scale

theorem infinity_lt (F : FloatFormat) : F.infinity < 1 <<< F.magnitudeBits := by
  have hf : 0 < 2 ^ F.fractionBits := Nat.two_pow_pos _
  have he : 2 ^ F.exponentBits - 1 < 2 ^ F.exponentBits :=
    Nat.sub_lt (Nat.two_pow_pos _) (by decide)
  rw [infinity, magnitudeBits, Nat.shiftLeft_eq, Nat.one_shiftLeft, Nat.one_shiftLeft, Nat.pow_add]
  exact Nat.mul_lt_mul_of_pos_right he hf

end FloatFormat

/-- A number of format `F`, with one value of the type for each bit pattern of the format. -/
structure Binary (F : FloatFormat) where
  negative : Bool
  magnitude : Nat
  magnitude_lt : magnitude < 1 <<< F.magnitudeBits
deriving DecidableEq

/-- Numbers of sixty-four bits. -/
abbrev Double := Binary .double

/-- Numbers of thirty-two bits. -/
abbrev Single := Binary .single

namespace Binary

variable {F : FloatFormat}

@[ext] theorem ext_fields {x y : Binary F} (hs : x.negative = y.negative)
    (hm : x.magnitude = y.magnitude) : x = y := by
  cases x; cases y; simp_all

/-- The bit pattern, sign first. -/
def toBits (x : Binary F) : Nat :=
  (if x.negative then 1 <<< F.magnitudeBits else 0) + x.magnitude

/-- The number with a given bit pattern; bits above the sign are ignored. -/
def ofBits (bits : Nat) : Binary F :=
  ⟨bits >>> F.magnitudeBits % 2 == 1, bits % 1 <<< F.magnitudeBits,
    Nat.mod_lt _ (by rw [Nat.one_shiftLeft]; exact Nat.two_pow_pos _)⟩

theorem ofBits_toBits (x : Binary F) : ofBits x.toBits = x := by
  have hpos : 0 < 2 ^ F.magnitudeBits := Nat.two_pow_pos _
  obtain ⟨s, m, hm⟩ := x
  have hm' : m < 2 ^ F.magnitudeBits := Nat.one_shiftLeft _ ▸ hm
  cases s
  · simp [ofBits, toBits, Nat.one_shiftLeft, Nat.shiftRight_eq_div_pow, Nat.div_eq_of_lt hm',
      Nat.mod_eq_of_lt hm']
  · simp [ofBits, toBits, Nat.one_shiftLeft, Nat.shiftRight_eq_div_pow,
      Nat.add_div_left _ hpos, Nat.div_eq_of_lt hm', Nat.mod_eq_of_lt hm']

/-- A finite magnitude, or infinity where the magnitude given is too large. -/
def ofMagnitude (negative : Bool) (magnitude : Nat) : Binary F :=
  ⟨negative, min magnitude F.infinity, Nat.lt_of_le_of_lt (Nat.min_le_right _ _) F.infinity_lt⟩

def zero : Binary F := ofMagnitude false 0
def negativeZero : Binary F := ofMagnitude true 0
def infinite (negative : Bool) : Binary F := ⟨negative, F.infinity, F.infinity_lt⟩

/-- The quiet NaN with the least magnitude: the highest fraction bit is set. -/
def nan : Binary F := ofBits (F.infinity + 1 <<< (F.fractionBits - 1))

def isNaN (x : Binary F) : Bool := decide (F.infinity < x.magnitude)
def isInfinite (x : Binary F) : Bool := decide (x.magnitude = F.infinity)
def isFinite (x : Binary F) : Bool := decide (x.magnitude < F.infinity)
def isZero (x : Binary F) : Bool := decide (x.magnitude = 0)

instance : Neg (Binary F) := ⟨fun x => ⟨!x.negative, x.magnitude, x.magnitude_lt⟩⟩

/-- The number without its sign. -/
def abs (x : Binary F) : Binary F := ⟨false, x.magnitude, x.magnitude_lt⟩

/-! ### The exact value -/

/-- The absolute value of a finite number, in finest steps. -/
def units (x : Binary F) : Nat :=
  let field := x.magnitude >>> F.fractionBits
  let fraction := x.magnitude % 1 <<< F.fractionBits
  if field = 0 then fraction else (1 <<< F.fractionBits + fraction) <<< (field - 1)

/-- The value of a finite number, in finest steps. -/
def signedUnits (x : Binary F) : Int :=
  if x.negative then -(x.units : Int) else x.units

/-! ### Order -/

/-- Where a number stands among all numbers; the two zeros stand at the same place. -/
def place (x : Binary F) : Int :=
  if x.negative then -(x.magnitude : Int) else x.magnitude

/-- Equality of values. -/
def equal (x y : Binary F) : Bool :=
  !x.isNaN && !y.isNaN && decide (x.place = y.place)

/-- Strict order of values. -/
def less (x y : Binary F) : Bool :=
  !x.isNaN && !y.isNaN && decide (x.place < y.place)

/-- Order of values, equality included. -/
def atMost (x y : Binary F) : Bool :=
  !x.isNaN && !y.isNaN && decide (x.place ≤ y.place)

/-- The position of a bit pattern in the total order: negative NaNs, negative numbers, the negative
zero, the positive zero, positive numbers, positive NaNs. -/
def rank (x : Binary F) : Int :=
  if x.negative then -(x.magnitude : Int) - 1 else x.magnitude

/-- Different bit patterns have different ranks. -/
theorem rank_injective {x y : Binary F} (h : x.rank = y.rank) : x = y := by
  have hs : x.negative = y.negative := by
    cases hx : x.negative <;> cases hy : y.negative <;> simp [rank, hx, hy] at h ⊢ <;> omega
  have hm : x.magnitude = y.magnitude := by
    cases hy : y.negative <;> simp [rank, hs, hy] at h <;> omega
  exact ext_fields hs hm

/-- The greater of two numbers; a NaN gives way to the other one. -/
def larger (x y : Binary F) : Binary F :=
  if x.isNaN then y else if y.isNaN then x else if x.less y then y else x

/-- The smaller of two numbers; a NaN gives way to the other one. -/
def smaller (x y : Binary F) : Binary F :=
  if x.isNaN then y else if y.isNaN then x else if y.less x then y else x

end Binary

end LineChart
