import LineChart.Proofs.Table.NotNumbers
import LineChart.Proofs.Table.WholeTexts

/-!
# Texts of keys

A key is shown by its content alone, without its kind. So different keys can have one text: NaNs, an
integer and a number that are shown by the same digits, and a text that spells a key of another kind. In
a delimited file no cell is a text if it can be read as anything else.

* `Cell.Alike` : the pairs of different keys that have one text.
* `Cell.display_eq_iff` : keys with one text are the same or are such a pair.
* `Cell.alike_integer_iff` : an integer and a number of one text have one value.
* `Delimited.not_alike_of_cell` : the texts of a delimited file spell no other key.
-/

namespace LineChart

namespace Cell

/-- Keys of one text although one of them is a number and the other an integer or a number, or one is a
text and the other is none. -/
inductive Alike : Cell → Cell → Prop where
  | notNumbers {x y : Double} (hx : x.isNaN = true) (hy : y.isNaN = true) : Alike (number x) (number y)
  | whole {n : Int64} {x : Double} (h : x.display = toString n.toInt) : Alike (integer n) (number x)
  | spelled {k : Cell} (htext : ∀ s, k ≠ text s) : Alike (text k.display) k

theorem Alike.display_eq {j k : Cell} (h : j.Alike k) : j.display = k.display := by
  cases h with
  | notNumbers hx hy => exact (Double.display_of_isNaN hx).trans (Double.display_of_isNaN hy).symm
  | whole h => exact h.symm
  | spelled htext => rfl

theorem not_alike_text {j : Cell} {s : String} : ¬ j.Alike (text s) := by
  intro h
  cases h with
  | spelled htext => exact htext s rfl

/-! ### Words for truth values -/

/-- The word of a truth value is read neither as an integer nor as a number. -/
theorem read_flag (b : Bool) : readInteger? (flag b).display.toList = none ∧
    Double.read? (flag b).display.toList = none := by
  cases b <;> decide +kernel

theorem display_flag_injective {a b : Bool} (h : (flag a).display = (flag b).display) : a = b := by
  cases a <;> cases b <;> first | rfl | exact absurd h (by decide)

theorem display_integer_ne_flag (n : Int64) (b : Bool) : (integer n).display ≠ (flag b).display := by
  intro h
  have hread := readInteger?_toString n.toInt
  rw [show toString n.toInt = (flag b).display from h, (read_flag b).1] at hread
  cases hread

theorem display_number_ne_flag (x : Double) (b : Bool) : (number x).display ≠ (flag b).display := by
  intro h
  cases hnan : x.isNaN with
  | true =>
    rw [show (number x).display = "NaN" from Double.display_of_isNaN hnan] at h
    cases b <;> exact absurd h (by decide)
  | false =>
    have hread := Double.read?_display hnan
    rw [show x.display = (flag b).display from h, (read_flag b).2] at hread
    cases hread

theorem display_integer_injective {m n : Int64} (h : (integer m).display = (integer n).display) :
    m = n := by
  have hread := readInteger?_toString m.toInt
  rw [show toString m.toInt = toString n.toInt from h, readInteger?_toString] at hread
  exact Int64.toInt_inj.1 (Option.some.inj hread).symm

/-! ### Keys of one text -/

variable {j k : Cell}

/-- A text that is the text of a key is this key, or spells it. -/
theorem alike_of_text {s : String} (h : s = k.display) : text s = k ∨ (text s).Alike k := by
  subst h
  cases k with
  | text s => exact .inl rfl
  | integer n => exact .inr (.spelled fun _ => Cell.noConfusion)
  | number x => exact .inr (.spelled fun _ => Cell.noConfusion)
  | flag b => exact .inr (.spelled fun _ => Cell.noConfusion)
  | missing => exact .inr (.spelled fun _ => Cell.noConfusion)

/-- **Keys of one text** are the same key, or alike. -/
theorem display_eq_iff (hj : j ≠ missing) (hk : k ≠ missing) :
    j.display = k.display ↔ j = k ∨ j.Alike k ∨ k.Alike j := by
  constructor
  · intro h
    -- by the kinds of both keys: a text may be the text of any, a word for a truth value of no other
    cases j with
    | missing => exact absurd rfl hj
    | text s => exact (alike_of_text h).imp_right .inl
    | integer m =>
      cases k with
      | missing => exact absurd rfl hk
      | text s => exact (alike_of_text h.symm).imp Eq.symm .inr
      | integer n => exact .inl (congrArg _ (display_integer_injective h))
      | number x => exact .inr (.inl (.whole h.symm))
      | flag b => exact absurd h (display_integer_ne_flag m b)
    | number x =>
      cases k with
      | missing => exact absurd rfl hk
      | text s => exact (alike_of_text h.symm).imp Eq.symm .inr
      | integer n => exact .inr (.inr (.whole h))
      | number y =>
        rcases Double.display_eq_iff.1 h with rfl | ⟨hx, hy⟩
        · exact .inl rfl
        · exact .inr (.inl (.notNumbers hx hy))
      | flag b => exact absurd h (display_number_ne_flag x b)
    | flag a =>
      cases k with
      | missing => exact absurd rfl hk
      | text s => exact (alike_of_text h.symm).imp Eq.symm .inr
      | integer n => exact absurd h.symm (display_integer_ne_flag n a)
      | number y => exact absurd h.symm (display_number_ne_flag y a)
      | flag b => exact .inl (congrArg _ (display_flag_injective h))
  · rintro (rfl | h | h)
    · rfl
    · exact h.display_eq
    · exact h.display_eq.symm

/-! ### Values of keys of one text -/

/-- **An integer and a number of one text have one value**: the number is the one nearest to the
integer. Below `2 ^ 53` it has the text of the integer. -/
theorem alike_integer_iff (n : Int64) (x : Double) :
    ((integer n).Alike (number x) → x = .ofInt n.toInt) ∧
      (n.toInt.natAbs < 2 ^ 53 → ((integer n).Alike (number x) ↔ x = .ofInt n.toInt)) := by
  have hvalue : (integer n).Alike (number x) → x = .ofInt n.toInt := by
    rintro (_ | htext)
    have hbound := natAbs_toInt_le n
    have hinteger : Double.read? x.display.toList = some (.ofInt n.toInt) := by
      rw [htext, Double.read?_toString (by omega)]
    cases hnan : x.isNaN with
    | true =>
      -- the word for NaN is no integer
      have hread := readInteger?_toString n.toInt
      have hword : readInteger? "NaN".toList = none := by decide +kernel
      rw [← htext, Double.display_of_isNaN hnan, hword] at hread
      cases hread
    | false =>
      rw [Double.read?_display hnan] at hinteger
      exact Option.some.inj hinteger
  refine ⟨hvalue, fun hn => ⟨hvalue, ?_⟩⟩
  rintro rfl
  exact .whole (Double.display_ofInt hn)

end Cell

namespace Delimited

theorem eq_of_cell_text {field s : String} (h : cell field = .text s) :
    field = s ∧ field ∉ missingTexts ∧ readInt64? field.toList = none ∧
      Double.read? field.toList = none ∧ field ≠ "true" ∧ field ≠ "false" := by
  rw [cell] at h
  by_cases hmissing : field ∈ missingTexts
  · rw [if_pos hmissing] at h
    cases h
  · rw [if_neg hmissing] at h
    split at h
    · cases h
    · next hinteger =>
      split at h
      · cases h
      · next hnumber =>
        split_ifs at h with htrue hfalse
        exact ⟨Cell.text.inj h, hmissing, hinteger, hnumber, fun hword => htrue (.inl hword),
          fun hword => hfalse (.inl hword)⟩

/-- **The texts of a delimited file spell no other key**: a field that can be read as an integer, a
number or a truth value gives a cell of this kind. -/
theorem not_alike_of_cell {field s : String} (h : cell field = .text s) {k : Cell}
    (hk : k ≠ .missing) : ¬ (Cell.text s).Alike k := by
  obtain ⟨rfl, hmissing, hinteger, hnumber, htrue, hfalse⟩ := eq_of_cell_text h
  intro halike
  have hdisplay : field = k.display := halike.display_eq
  subst hdisplay
  cases k with
  | missing => exact hk rfl
  | text s => exact Cell.not_alike_text halike
  | integer n =>
    rw [show (Cell.integer n).display = toString n.toInt from rfl, readInt64?_toString,
      if_pos ⟨n.le_toInt, n.toInt_le⟩] at hinteger
    cases hinteger
  | number x =>
    cases hnan : x.isNaN with
    | true =>
      rw [show (Cell.number x).display = "NaN" from Double.display_of_isNaN hnan] at hmissing
      exact hmissing (by decide)
    | false =>
      rw [show (Cell.number x).display = x.display from rfl, Double.read?_display hnan] at hnumber
      cases hnumber
  | flag b =>
    cases b with
    | true => exact htrue rfl
    | false => exact hfalse rfl

end Delimited

end LineChart
