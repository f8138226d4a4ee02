import LineChart.Sample.Random
import Mathlib.Logic.Function.Iterate

/-!
# States of the generator

A step of the generator can be undone: a rotation is turned on until the word comes round, and a word whose
own bits were mixed into it further up is found again in two rounds. So a step is a bijection of all states,
different states stay different, and no state but the zero state, which no seed gives, ever becomes the
zero state.

* `mixed` : a word with its own bits mixed in further up, and `unmix`, which finds the word again.
* `Generator.retreat` : the step back, which `retreat_advance` and `advance_retreat` are about.
* `Generator.Draw`, `Generator.after` : what is drawn, and the state behind some draws.
* `Generator.after_eq_iterate` : that state is as many steps on as words were drawn.
* `Generator.states_stay_apart` : states that are never zero and never meet.
-/

namespace LineChart

/-! ### Words that are turned -/

theorem toBitVec_rotateLeft {x places : UInt64} (hpos : 0 < places) (hlt : places < 64) :
    (rotateLeft x places).toBitVec = x.toBitVec.rotateLeft places.toNat := by
  have hpos' : 0 < places.toNat := hpos
  have hlt' : places.toNat < 64 := hlt
  have hback : (64 - places).toNat = 64 - places.toNat :=
    UInt64.toNat_sub_of_le _ _ (UInt64.le_of_lt hlt)
  have hmod : ∀ y : UInt64, y.toNat < 64 → (y.toBitVec % 64).toNat = y.toNat := by
    intro y hy
    rw [BitVec.toNat_umod]
    exact Nat.mod_eq_of_lt hy
  rw [rotateLeft, BitVec.rotateLeft_def, Nat.mod_eq_of_lt hlt', UInt64.toBitVec_or,
    UInt64.toBitVec_shiftLeft, UInt64.toBitVec_shiftRight, BitVec.shiftLeft_eq',
    BitVec.ushiftRight_eq', hmod _ hlt', hmod _ (by omega), hback]

/-- The bits of a word that is turned all the way round are back in their places. -/
theorem rotateLeft_round (x : BitVec 64) {places : Nat} (hpos : 0 < places) (hlt : places < 64) :
    (x.rotateLeft places).rotateLeft (64 - places) = x := by
  apply BitVec.eq_of_getLsbD_eq
  intro i hi
  rw [BitVec.getLsbD_rotateLeft, BitVec.getLsbD_rotateLeft, BitVec.getLsbD_rotateLeft,
    Nat.mod_eq_of_lt hlt, Nat.mod_eq_of_lt (by omega)]
  by_cases hlow : i < 64 - places
  · have hplace : 64 - (64 - places) + i = places + i := by omega
    have hinner : places + i < 64 := by omega
    have hnot : ¬ places + i < places := by omega
    simp [hlow, hplace, hinner, hnot]
  · have hplace : 64 - places + (i - (64 - places)) = i := by omega
    have hinner : i - (64 - places) < places := by omega
    simp [hlow, hplace, hinner, hi]

/-- **A rotation is undone by turning on** until the word comes round. -/
theorem rotateLeft_rotateLeft {x places : UInt64} (hpos : 0 < places) (hlt : places < 64) :
    rotateLeft (rotateLeft x places) (64 - places) = x := by
  have hpos' : 0 < places.toNat := hpos
  have hlt' : places.toNat < 64 := hlt
  have hback : (64 - places).toNat = 64 - places.toNat :=
    UInt64.toNat_sub_of_le _ _ (UInt64.le_of_lt hlt)
  have hbackPos : (0 : UInt64) < 64 - places := by
    rw [UInt64.lt_iff_toNat_lt, hback]
    show 0 < 64 - places.toNat
    omega
  have hbackLt : (64 : UInt64) - places < 64 := by
    rw [UInt64.lt_iff_toNat_lt, hback]
    show 64 - places.toNat < 64
    omega
  apply UInt64.eq_of_toBitVec_eq
  rw [toBitVec_rotateLeft hbackPos hbackLt, toBitVec_rotateLeft hpos hlt, hback,
    rotateLeft_round _ hpos' hlt']

/-! ### Words that are mixed -/

/-- A word with its own bits mixed in some places further up. -/
def mixed (places : Nat) (x : BitVec 64) : BitVec 64 := x ^^^ x <<< places

theorem xor_xor_self (x y : UInt64) : x ^^^ y ^^^ y = x := by
  rw [UInt64.xor_assoc, UInt64.xor_self, UInt64.xor_zero]

/-- Mixing twice mixes the bits in twice as far up. -/
theorem mixed_mixed (places : Nat) (x : BitVec 64) :
    mixed places (mixed places x) = mixed (places + places) x := by
  rw [mixed, mixed, mixed, BitVec.shiftLeft_xor_distrib, ← BitVec.shiftLeft_add, BitVec.xor_assoc,
    ← BitVec.xor_assoc (x <<< places), BitVec.xor_self, BitVec.zero_xor]

theorem mixed_comm (m n : Nat) (x : BitVec 64) : mixed m (mixed n x) = mixed n (mixed m x) := by
  have hshift : x <<< n <<< m = x <<< m <<< n := by
    rw [← BitVec.shiftLeft_add, ← BitVec.shiftLeft_add, Nat.add_comm]
  simp only [mixed, BitVec.shiftLeft_xor_distrib, hshift]
  rw [BitVec.xor_assoc, BitVec.xor_assoc, ← BitVec.xor_assoc (x <<< n), BitVec.xor_comm (x <<< n),
    BitVec.xor_assoc]

/-- Bits that are mixed in beyond the end of a word leave it as it is. -/
theorem mixed_of_le {places : Nat} (h : 64 ≤ places) (x : BitVec 64) : mixed places x = x := by
  rw [mixed, BitVec.shiftLeft_eq_zero h, BitVec.xor_zero]

/-- The word whose bits were mixed in seventeen places further up: they are mixed in twice as far up in
each of two rounds, and then stand beyond the end of the word. -/
def unmix (y : UInt64) : UInt64 := .ofBitVec (mixed 34 (mixed 17 y.toBitVec))

theorem toBitVec_mixed (x : UInt64) : (x ^^^ x <<< 17).toBitVec = mixed 17 x.toBitVec := rfl

theorem unmix_mixed (x : UInt64) : unmix (x ^^^ x <<< 17) = x := by
  apply UInt64.eq_of_toBitVec_eq
  show mixed 34 (mixed 17 (x ^^^ x <<< 17).toBitVec) = x.toBitVec
  rw [toBitVec_mixed, mixed_mixed, mixed_mixed, mixed_of_le (by decide)]

theorem mixed_unmix (y : UInt64) : unmix y ^^^ unmix y <<< 17 = y := by
  apply UInt64.eq_of_toBitVec_eq
  rw [toBitVec_mixed]
  show mixed 17 (mixed 34 (mixed 17 y.toBitVec)) = y.toBitVec
  rw [mixed_comm, mixed_mixed, mixed_mixed, mixed_of_le (by decide)]

namespace Generator

/-! ### Steps back -/

/-- The state of which all words are zero. -/
def zero : Generator := ⟨0, 0, 0, 0⟩

/-- The state in front of a step. -/
def retreat (g : Generator) : Generator :=
  let word3 := rotateLeft g.word3 19
  let word0 := g.word0 ^^^ word3
  let word1 := unmix (g.word1 ^^^ g.word2)
  let word2 := g.word1 ^^^ word1
  ⟨word0, word1, word2 ^^^ word0, word3 ^^^ word1⟩

/-- **A step is undone.** -/
theorem retreat_advance (g : Generator) : g.advance.retreat = g := by
  obtain ⟨a, b, c, d⟩ := g
  have hturned : rotateLeft (rotateLeft (d ^^^ b) 45) 19 = d ^^^ b :=
    rotateLeft_rotateLeft (by decide) (by decide)
  have hmixed : (b ^^^ (c ^^^ a)) ^^^ ((c ^^^ a) ^^^ b <<< 17) = b ^^^ b <<< 17 := by
    rw [← UInt64.xor_assoc, xor_xor_self]
  have hrest : b ^^^ (c ^^^ a) ^^^ b = c ^^^ a := by
    rw [UInt64.xor_comm b, xor_xor_self]
  simp only [retreat, advance, hturned, hmixed, unmix_mixed, xor_xor_self, hrest]

/-- **A step undoes a step back.** -/
theorem advance_retreat (g : Generator) : g.retreat.advance = g := by
  obtain ⟨a, b, c, d⟩ := g
  have hturned : rotateLeft (rotateLeft d 19) 45 = d :=
    rotateLeft_rotateLeft (by decide) (by decide)
  have hmixed : b ^^^ unmix (b ^^^ c) ^^^ unmix (b ^^^ c) <<< 17 = c := by
    rw [UInt64.xor_assoc, mixed_unmix, ← UInt64.xor_assoc, UInt64.xor_self, UInt64.zero_xor]
  have hfirst : unmix (b ^^^ c) ^^^ (b ^^^ unmix (b ^^^ c)) = b := by
    rw [UInt64.xor_comm, xor_xor_self]
  simp only [retreat, advance, xor_xor_self, hturned, hmixed, hfirst]

theorem advance_bijective : Function.Bijective advance :=
  ⟨Function.LeftInverse.injective retreat_advance, Function.RightInverse.surjective advance_retreat⟩

theorem advance_zero : zero.advance = zero := rfl

/-! ### Draws -/

/-- What is drawn from a generator. -/
inductive Draw where
  | word
  | fraction
  | gaussian (mean deviation : Double)

/-- The state behind a draw. -/
def Draw.next : Draw → Generator → Generator
  | .word, g => g.nextWord.2
  | .fraction, g => g.nextFraction.2
  | .gaussian mean deviation, g => (g.nextGaussian mean deviation).2

/-- The number of words that a draw is made from. -/
def Draw.words : Draw → Nat
  | .word => 1
  | .fraction => 1
  | .gaussian _ _ => 2

/-- The state behind some draws. -/
def after (g : Generator) : List Draw → Generator
  | [] => g
  | draw :: rest => (draw.next g).after rest

/-- The number of words that some draws are made from. -/
def wordsOf : List Draw → Nat
  | [] => 0
  | draw :: rest => draw.words + wordsOf rest

/-- A draw takes a step for each of its words, whatever number comes of them. -/
theorem Draw.next_eq_iterate (draw : Draw) (g : Generator) :
    draw.next g = advance^[draw.words] g := by
  cases draw <;> rfl

/-- **Draws take as many steps as they take words.** -/
theorem after_eq_iterate (g : Generator) (draws : List Draw) :
    g.after draws = advance^[wordsOf draws] g := by
  induction draws generalizing g with
  | nil => rfl
  | cons draw rest ih =>
    rw [after, ih, draw.next_eq_iterate, wordsOf, Nat.add_comm, Function.iterate_add_apply]

/-- The zero state is behind the zero state alone. -/
theorem after_eq_zero_iff {g : Generator} {draws : List Draw} :
    g.after draws = zero ↔ g = zero := by
  rw [after_eq_iterate]
  have hzero : advance^[wordsOf draws] zero = zero := Function.iterate_fixed advance_zero _
  constructor
  · intro h
    exact advance_bijective.injective.iterate _ (h.trans hzero.symm)
  · rintro rfl
    exact hzero

/-! ### Seeds -/

/-- **No seed gives the zero state**: if the first word is zero, the second one is one. -/
theorem ofSeed_ne_zero (seed : UInt64) : ofSeed seed ≠ zero := by
  intro h
  have hfirst : spread seed = 0 := congrArg word0 h
  have hsecond : spread (spread seed) = 0 := congrArg word1 h
  rw [hfirst] at hsecond
  exact absurd hsecond (by decide)

/-- **States stay apart.** A step is a bijection of all states, under which the zero state stays. No seed
gives the zero state, and so it is never reached from a seed by any draws. Different states stay different
as long as as many words are drawn from both, as is the case if the same is drawn. -/
theorem states_stay_apart (seed : UInt64) (g h : Generator) (draws draws' : List Draw) :
    Function.Bijective (fun g : Generator => g.nextWord.2) ∧ zero.nextWord.2 = zero ∧
      ofSeed seed ≠ zero ∧ (ofSeed seed).after draws ≠ zero ∧
      (g ≠ h → wordsOf draws = wordsOf draws' → g.after draws ≠ h.after draws') := by
  refine ⟨advance_bijective, advance_zero, ofSeed_ne_zero seed, ?_, ?_⟩
  · rw [Ne, after_eq_zero_iff]
    exact ofSeed_ne_zero seed
  · intro hne hwords hmeet
    rw [after_eq_iterate, after_eq_iterate, hwords] at hmeet
    exact hne (advance_bijective.injective.iterate _ hmeet)

/-- A number of the normal distribution from one seed, and two words from the next one. -/
theorem states_stay_apart_seeds :
    ofSeed 42 ≠ ofSeed 43 ∧
      wordsOf [.gaussian .zero (.ofNat 1)] = wordsOf [.word, .word] ∧
      (ofSeed 42).after [.gaussian .zero (.ofNat 1)] ≠ (ofSeed 43).after [.word, .word] := by
  have hne : ofSeed 42 ≠ ofSeed 43 := by decide
  have hwords : wordsOf [.gaussian .zero (.ofNat 1)] = wordsOf [.word, .word] := rfl
  obtain ⟨-, -, -, -, happart⟩ := states_stay_apart 42 (ofSeed 42) (ofSeed 43)
    [.gaussian .zero (.ofNat 1)] [.word, .word]
  exact ⟨hne, hwords, happart hne hwords⟩

end Generator

end LineChart
