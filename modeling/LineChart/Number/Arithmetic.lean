import LineChart.Number.Rounding

/-!
# Arithmetic on binary numbers

The four operations and the square root, each one exact computation followed by one rounding.
A sum of two finite numbers is a whole number of finest steps, a product or a quotient is a quotient
of such numbers, and the square root of a number is the square root of a natural number of steps.
The logarithm and the cosine, which have no such rule, are the machine's own.
-/

namespace LineChart

/-- Newton's iteration from above: it descends until it would no longer do so. -/
def squareRootBelow (n guess : Nat) : Nat :=
  let next := (guess + n / guess) / 2
  if next < guess then squareRootBelow n next else guess
termination_by guess

/-- The greatest natural number whose square is at most `n`. -/
def squareRoot (n : Nat) : Nat := squareRootBelow n (1 <<< (n.log2 / 2 + 1))

namespace Binary

variable {F : FloatFormat}

/-- The sum. Opposite infinities have none; a zero sum is negative only if both terms are. -/
def add (x y : Binary F) : Binary F :=
  if x.isNaN || y.isNaN then nan
  else if x.isInfinite then
    if y.isInfinite && x.negative != y.negative then nan else x
  else if y.isInfinite then y
  else ofUnits (x.negative && y.negative) (x.signedUnits + y.signedUnits)

/-- The product. Zero times infinity has none. -/
def mul (x y : Binary F) : Binary F :=
  let negative := x.negative != y.negative
  if x.isNaN || y.isNaN then nan
  else if x.isInfinite || y.isInfinite then
    if x.isZero || y.isZero then nan else infinite negative
  else ofRatio negative (x.units * y.units) F.one

/-- The quotient. Zero over zero and infinity over infinity have none; any other number over zero
is infinite. -/
def div (x y : Binary F) : Binary F :=
  let negative := x.negative != y.negative
  if x.isNaN || y.isNaN then nan
  else if x.isInfinite then if y.isInfinite then nan else infinite negative
  else if y.isInfinite then ofMagnitude negative 0
  else if y.isZero then if x.isZero then nan else infinite negative
  else ofRatio negative (x.units * F.one) y.units

instance : Add (Binary F) := ⟨add⟩
instance : Sub (Binary F) := ⟨fun x y => add x (-y)⟩
instance : Mul (Binary F) := ⟨mul⟩
instance : Div (Binary F) := ⟨div⟩

/-- The distance from one to the next greater number. -/
def epsilon : Binary F := ofMagnitude false ((ofNat 1 : Binary F).magnitude + 1) - ofNat 1

/-- The square root. A number's steps times the steps of one is the square of its root's steps; the root
keeps one more than `fractionBits` binary digits, and it never lies midway between two numbers. -/
def sqrt (x : Binary F) : Binary F :=
  if x.isNaN || x.isZero then x
  else if x.negative then nan
  else if x.isInfinite then x
  else
    let square := x.units * F.one
    let dropped := square.log2 / 2 - F.fractionBits
    ofMagnitude false (dropped <<< F.fractionBits +
      (squareRoot ((4 * square) >>> (2 * dropped)) + 1) / 2)

end Binary

namespace Double

/-- The length of the hypotenuse: the squares are added and their root is taken in sixty-four bits,
and the result is rounded to thirty-two. -/
def hypotenuse (x y : Single) : Single :=
  let x : Double := x.convert
  let y : Double := y.convert
  (x * x + y * y).sqrt.convert

/-- The natural logarithm. -/
def ln (x : Double) : Double :=
  .ofBits (Float.log (.ofBits (.ofNat x.toBits))).toBits.toNat

/-- The cosine of an angle in radians. -/
def cos (x : Double) : Double :=
  .ofBits (Float.cos (.ofBits (.ofNat x.toBits))).toBits.toNat

end Double

end LineChart
