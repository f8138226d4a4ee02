import LineChart.Json.Reader
import LineChart.Json.Writer
import LineChart.Proofs.Number.Digits

/-!
# The tokens of written values

The end of a numeral is seen only at what stands behind it. So a value is scanned the same alone and
in front of whatever may follow a value.

* `Follows` : what may stand behind a value.
* `Scan.run_append` : a value is scanned the same in front of what may follow.
* `Scan.run_quote` : a text between quotes is one token.
* `Piece.text?_map_ofChar` : which stands for the text again.
* `Scan.scan_toString_int` : the text of an integer is one token.
-/

namespace LineChart.Json

/-- What may stand behind a value: the end of the text, or a mark that ends a value. -/
def Follows (tail : List Char) : Prop := ∀ c ∈ tail.head?, c = ',' ∨ c = ']' ∨ c = '\x7d'

theorem follows_cons {c : Char} (h : c = ',' ∨ c = ']' ∨ c = '\x7d') (tail : List Char) :
    Follows (c :: tail) := by
  intro c' hc'
  obtain rfl := Option.some.inj hc'
  exact h

theorem Numeral.extend_of_follows {c : Char} (h : c = ',' ∨ c = ']' ∨ c = '\x7d') (n : Numeral)
    (phase : NumeralPhase) : n.extend phase c = none := by
  rcases h with rfl | rfl | rfl <;> cases phase <;> rfl

/-! ### Escapes -/

/-- The value of a hexadecimal digit that is written. -/
theorem hexValue?_hexDigit (n : Nat) : hexValue? (hexDigit n) = some (n % 16) := by
  have hall : ∀ m < 16, hexValue? (Nat.digitChar m) = some m := by decide
  exact hall _ (Nat.mod_lt n (by decide))

namespace Piece

/-- The piece that a character is read as: only control characters without a letter are units. -/
def ofChar (c : Char) : Piece :=
  if c.toNat < 0x20 ∧ c ∉ ['\n', '\r', '\t', '\x08', '\x0c'] then .unit c.toNat else .plain c

/-- A unit below the pairs is a character by itself. -/
theorem decode?_unit {code : Nat} (h : code < 0xD800) (rest : List Piece) :
    decode? (.unit code :: rest) = (decode? rest).map (Char.ofNat code :: ·) := by
  have hopens : opensPair code = false := by
    rw [opensPair, decide_eq_false_iff_not]
    omega
  have hcloses : closesPair code = false := by
    rw [closesPair, decide_eq_false_iff_not]
    omega
  match rest with
  | [] => simp [decode?, hopens, hcloses]
  | .plain c :: rest => simp [decode?, hopens, hcloses]
  | .unit low :: rest =>
    rw [decode?, if_neg (by simp [hopens]), if_neg (by simp [hcloses])]

/-- **The pieces of a text stand for the text.** -/
theorem decode?_map_ofChar (text : List Char) : decode? (text.map ofChar) = some text := by
  induction text with
  | nil => rfl
  | cons c text ih =>
    rw [List.map_cons, ofChar]
    by_cases hunit : c.toNat < 0x20 ∧ c ∉ ['\n', '\r', '\t', '\x08', '\x0c']
    · rw [if_pos hunit, decode?_unit (by omega), ih, Char.ofNat_toNat]
      rfl
    · rw [if_neg hunit, decode?, ih]
      rfl

theorem text?_map_ofChar (s : String) : text? (s.toList.map ofChar) = some s := by
  rw [text?, decode?_map_ofChar, Option.map_some, String.ofList_toList]

end Piece

namespace Scan

variable {found : List Token} {pieces : List Piece} {rest tail : List Char}

/-- An escaped character is one piece. -/
theorem run_escape (c : Char) :
    run (.quoted pieces) found (Json.escape c ++ rest) =
      run (.quoted (.ofChar c :: pieces)) found rest := by
  by_cases hunit : c.toNat < 0x20 ∧ c ∉ ['\n', '\r', '\t', '\x08', '\x0c']
  · have hpiece : Piece.ofChar c = .unit c.toNat := if_pos hunit
    obtain ⟨hlt, hletter⟩ := hunit
    have hquote : c ≠ '"' := by
      rintro rfl
      exact absurd hlt (by decide)
    have hslash : c ≠ '\\' := by
      rintro rfl
      exact absurd hlt (by decide)
    simp only [List.mem_cons, List.not_mem_nil, or_false, not_or] at hletter
    obtain ⟨hn, hr, ht, hb, hf⟩ := hletter
    have hescape : Json.escape c =
        ['\\', 'u', '0', '0', hexDigit (c.toNat / 16), hexDigit c.toNat] := by
      rw [Json.escape, if_neg hquote, if_neg hslash, if_neg hn, if_neg hr, if_neg ht, if_neg hb,
        if_neg hf, if_pos hlt]
    have hcode : 16 * (c.toNat / 16 % 16) + c.toNat % 16 = c.toNat := by omega
    have hzero : hexValue? '0' = some 0 := rfl
    rw [hescape, hpiece]
    simp [run, step, hexValue?_hexDigit, hzero, hcode]
  · have hpiece : Piece.ofChar c = .plain c := if_neg hunit
    rw [hpiece, Json.escape]
    -- the seven letters, and the characters that need no escape
    iterate 7
      split
      · next h => subst h; rfl
    split
    · next hquote hslash hn hr ht hb hf hlt =>
      exact absurd ⟨hlt, by simp [hn, hr, ht, hb, hf]⟩ hunit
    · next hquote hslash hn hr ht hb hf hlt =>
      rw [List.singleton_append, run, step, if_neg hquote, if_neg hslash, if_neg hlt]
      rfl

/-- **A text between quotes is one token.** -/
theorem run_quote (s : String) :
    run .between found (quote s ++ rest) =
      run .between (.quoted (s.toList.map .ofChar) :: found) rest := by
  have hpieces : ∀ (text : List Char) (pieces : List Piece),
      run (.quoted pieces) found (text.flatMap Json.escape ++ '"' :: rest) =
        run .between (.quoted (pieces.reverse ++ text.map .ofChar) :: found) rest := by
    intro text
    induction text with
    | nil =>
      intro pieces
      rw [List.map_nil, List.append_nil]
      rfl
    | cons c text ih =>
      intro pieces
      rw [List.flatMap_cons, List.append_assoc, run_escape, ih, List.reverse_cons,
        List.append_assoc, List.map_cons, List.singleton_append]
  have hquote : quote s ++ rest = '"' :: (s.toList.flatMap Json.escape ++ '"' :: rest) := by
    rw [quote, List.cons_append, List.append_assoc, List.singleton_append]
  have hstart : run .between found ('"' :: (s.toList.flatMap Json.escape ++ '"' :: rest)) =
      run (.quoted []) found (s.toList.flatMap Json.escape ++ '"' :: rest) := rfl
  rw [hquote, hstart, hpieces]
  rfl

/-! ### Numerals -/

theorem start_digit {c : Char} (h : isDigit c = true) :
    start c =
      ((⟨false, [], [], none⟩ : Numeral).extend .start c).map fun p => ([], .number p.1 p.2) := by
  unfold start
  split <;> first | exact absurd h (by decide) | rfl

theorem run_sign {first : Char} (hfirst : isDigit first = true) (negative : Bool) :
    run .between found (signText negative ++ first :: rest) =
      run (.number ⟨negative, [], [], none⟩ .start) found (first :: rest) := by
  cases negative with
  | true => rfl
  | false =>
    have hnumber : step .between first = step (.number ⟨false, [], [], none⟩ .start) first := by
      show start first = _
      rw [start_digit hfirst, step]
      cases hextend : (⟨false, [], [], none⟩ : Numeral).extend .start first with
      | none =>
        simp only [Numeral.extend, hfirst, if_true] at hextend
        split at hextend <;> cases hextend
      | some next => rfl
    rw [signText, if_neg (by decide), List.nil_append, run, run, hnumber]

theorem run_digits {digits : List Char} (hdigits : ∀ c ∈ digits, isDigit c = true) (n : Numeral) :
    run (.number n .whole) found (digits ++ rest) =
      run (.number { n with whole := n.whole ++ digits } .whole) found rest := by
  induction digits generalizing n with
  | nil => rw [List.append_nil]; rfl
  | cons c digits ih =>
    obtain ⟨hc, hrest⟩ := List.forall_mem_cons.1 hdigits
    have hextend : n.extend .whole c = some (n.pushWhole c, .whole) := by
      rw [Numeral.extend]
      simp [hc]
    have hstep : step (.number n .whole) c = some ([], .number (n.pushWhole c) .whole) := by
      rw [step, hextend]
    rw [List.cons_append, run, hstep]
    show run (.number (n.pushWhole c) .whole) found (digits ++ rest) = _
    rw [ih hrest, Numeral.pushWhole, List.append_assoc, List.singleton_append]

end Scan

/-- The numeral that the text of an integer is read as. -/
def Numeral.ofInt (n : Int) : Numeral := ⟨decide (n < 0), Nat.toDigits 10 n.natAbs, [], none⟩

namespace Scan

variable {scan : Scan} {found all : List Token} {text rest tail : List Char}

/-- **The text of an integer is one token.** -/
theorem scan_toString_int (n : Int) :
    Token.scan (toString n).toList = some [.number (.ofInt n)] := by
  rw [Token.scan, toList_toString_int, Numeral.ofInt]
  have hdigits : ∀ c ∈ Nat.toDigits 10 n.natAbs, isDigit c = true :=
    fun c hc => isDigit_of_mem_toDigits hc
  rcases toDigits_eq_zero_or_cons n.natAbs with hzero | ⟨first, rest, hrest, hfirst⟩
  · rw [hzero, run_sign rfl]
    rfl
  · rw [hrest] at hdigits ⊢
    obtain ⟨hdigit, hdigits⟩ := List.forall_mem_cons.1 hdigits
    have hstep : step (.number ⟨decide (n < 0), [], [], none⟩ .start) first =
        some ([], .number ⟨decide (n < 0), [first], [], none⟩ .whole) := by
      rw [step, Numeral.extend]
      simp [hfirst, hdigit, Numeral.pushWhole]
    rw [run_sign hdigit, run, hstep]
    show (run (.number ⟨decide (n < 0), [first], [], none⟩ .whole) [] rest).map _ = _
    rw [← List.append_nil rest, run_digits hdigits]
    simp [run, finish, NumeralPhase.complete]

/-! ### What stands behind a value -/

/-- Tokens found before stay where they are. -/
theorem run_found (scan : Scan) (found : List Token) (text : List Char) :
    run scan found text = (run scan [] text).map fun all => all ++ found := by
  induction text generalizing scan found with
  | nil => cases h : scan.finish <;> simp [run, h]
  | cons c text ih =>
    rw [run, run]
    cases hstep : scan.step c with
    | none => rfl
    | some next =>
      simp only
      rw [ih next.2, ih next.2 (next.1.reverse ++ [])]
      cases run next.2 [] text <;> simp

/-- A complete numeral ends in front of what may follow a value. -/
theorem run_number {phase : NumeralPhase} (hcomplete : phase.complete = true) (n : Numeral)
    (htail : Follows tail) :
    run (.number n phase) found tail = run .between (.number n :: found) tail := by
  cases tail with
  | nil =>
    have hfinish : finish (.number n phase) = some [.number n] := if_pos hcomplete
    rw [run, run, hfinish]
    rfl
  | cons c tail =>
    -- the mark ends the numeral and is a token itself
    have hc := htail c rfl
    have hstep : step (.number n phase) c = (start c).map fun p => (.number n :: p.1, p.2) := by
      rw [step, Numeral.extend_of_follows hc]
      exact if_pos hcomplete
    rw [run, run, hstep]
    rcases hc with rfl | rfl | rfl <;> rfl

/-- **A text is scanned the same in front of what may follow a value.** -/
theorem run_append (h : run scan found text = some all) (htail : Follows tail) :
    run scan found (text ++ tail) = run .between all tail := by
  induction text generalizing scan found with
  | nil =>
    rw [List.nil_append]
    rw [run] at h
    cases scan with
    | between =>
      obtain rfl := Option.some.inj h
      rfl
    | number n phase =>
      rw [finish] at h
      by_cases hcomplete : phase.complete = true
      · rw [if_pos hcomplete] at h
        obtain rfl := Option.some.inj h
        exact run_number hcomplete n htail
      · rw [if_neg hcomplete] at h
        cases h
    | word | quoted | escape | unit => cases h
  | cons c text ih =>
    rw [List.cons_append, run]
    rw [run] at h
    cases hstep : scan.step c with
    | none =>
      rw [hstep] at h
      cases h
    | some next =>
      rw [hstep] at h
      exact ih h

/-- A text that is scanned alone gives the same tokens behind others and in front of what may
follow. -/
theorem run_of_scan {tokens : List Token} (h : Token.scan text = some tokens)
    (htail : Follows tail) :
    run .between found (text ++ tail) = run .between (tokens.reverse ++ found) tail := by
  rw [Token.scan, Option.map_eq_some_iff] at h
  obtain ⟨all, hall, rfl⟩ := h
  rw [List.reverse_reverse]
  refine run_append ?_ htail
  rw [run_found, hall]
  rfl

end Scan

end LineChart.Json
