import LineChart.Number.Arithmetic
import LineChart.Number.Decimal

/-!
# Random numbers

A generator of pseudorandom numbers with a state of four words. Each step returns a number made from
the second word and mixes the state by shifts, rotations and exclusive ors, which can be undone.

* `Generator.ofSeed` : the state for a seed.
* `Generator.nextWord` : the next sixty-four bits.
* `Generator.nextFraction` : a number from zero up to one.
* `Generator.nextGaussian` : a number of a normal distribution.
-/

namespace LineChart

/-- The state of the generator. -/
structure Generator where
  word0 : UInt64
  word1 : UInt64
  word2 : UInt64
  word3 : UInt64
deriving DecidableEq

/-- A word turned by some places to the left; the bits that fall off come back on the right. -/
def rotateLeft (x : UInt64) (places : UInt64) : UInt64 := x <<< places ||| x >>> (64 - places)

namespace Generator

/-- One step of the sequence that seeds are spread by. -/
def spread (x : UInt64) : UInt64 := x * 6364136223846793005 + 1

/-- The state for a seed: four steps of the spreading sequence. -/
def ofSeed (seed : UInt64) : Generator :=
  let word0 := spread seed
  let word1 := spread word0
  let word2 := spread word1
  ⟨word0, word1, word2, spread word2⟩

/-- The state behind a step. -/
def advance (g : Generator) : Generator :=
  let word2 := g.word2 ^^^ g.word0
  let word3 := g.word3 ^^^ g.word1
  ⟨g.word0 ^^^ word3, g.word1 ^^^ word2, word2 ^^^ g.word1 <<< 17, rotateLeft word3 45⟩

/-- The number that a step returns. -/
def output (g : Generator) : UInt64 := rotateLeft (g.word1 * 5) 7 * 9

def nextWord (g : Generator) : UInt64 × Generator := (g.output, g.advance)

/-- A number from zero up to one, of fifty-three bits. -/
def nextFraction (g : Generator) : Double × Generator :=
  (.ofNat (g.output >>> 11).toNat / .ofNat (1 <<< 53), g.advance)

/-- The ratio of a circle's circumference to its diameter. -/
def pi : Double := .ofBits 0x400921FB54442D18

/-- The least number whose logarithm is taken. -/
def leastFraction : Double := .ofDecimal false ⟨1, -15⟩

/-- A number of the normal distribution with a mean and a deviation, made from two fractions. -/
def nextGaussian (g : Generator) (mean deviation : Double) : Double × Generator :=
  let (first, g) := g.nextFraction
  let (second, g) := g.nextFraction
  let radius := (-.ofNat 2 * Double.ln (first.larger leastFraction)).sqrt
  (mean + deviation * (radius * Double.cos (.ofNat 2 * pi * second)), g)

end Generator

end LineChart
