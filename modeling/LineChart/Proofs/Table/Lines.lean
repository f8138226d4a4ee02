import LineChart.Proofs.Text.Bytes
import LineChart.Table.Delimited
import Mathlib.Data.List.Forall2

/-!
# Lines of delimited files

What the reader of delimited files makes of written records: it gives back every field, whatever
bytes it holds, as long as the field is written in one of the ways below.

* `Delimited.Spells` : the ways to write a field.
* `Delimited.Reading.run_spelled` : the reader in front of a written field takes up the field.
* `Delimited.Reading.run_line` : a line completes its record.
* `Delimited.ne_nil_of_mem_records` : every record has a field.
* `Delimited.records_lines` : the records of a file of lines, empty lines apart.
* `Delimited.textFile` : a file of lines as a text.
* `Delimited.utf8_textFile` : its bytes are those of its fields, line by line.
-/

namespace LineChart.Delimited

/-- The ways in which a field stands in a line: as it is, if no byte of it means anything there, or
between quotes. -/
inductive Spells : List UInt8 → Field → Prop
  | plain {field : Field} : field ≠ [] →
      (∀ b ∈ field, b ≠ comma ∧ b ≠ quote ∧ endsLine b = false) → Spells field field
  | quoted (field : Field) : Spells (writeField field) field

/-- A line of written fields with commas between them. -/
def line (written : List (List UInt8)) : List UInt8 := [comma].intercalate written ++ [lineFeed]

namespace Reading

variable {found : List Record} {rest : List UInt8} {fields : List Field}

theorem run_cons {r r' : Reading} {b : UInt8} (h : r.step b = (none, r')) :
    run r found (b :: rest) = run r' found rest := by
  rw [run, h]

/-- Bytes without a meaning are taken up as they are. -/
theorem run_plain {field : Field} (h : ∀ b ∈ field, b ≠ comma ∧ b ≠ quote ∧ endsLine b = false)
    (front : Field) : run ⟨.plain, front, fields⟩ found (field ++ rest) =
      run ⟨.plain, field.reverse ++ front, fields⟩ found rest := by
  induction field generalizing front with
  | nil => rfl
  | cons b field ih =>
    obtain ⟨⟨hcomma, -, hline⟩, hfield⟩ := List.forall_mem_cons.1 h
    have hstep : step ⟨.plain, front, fields⟩ b = (none, ⟨.plain, b :: front, fields⟩) := by
      simp [step, stepPlain, hcomma, hline, push]
    rw [List.cons_append, run_cons hstep, ih hfield, List.reverse_cons, List.append_assoc,
      List.singleton_append]

/-- Between quotes every byte is taken up, two quotes as one. -/
theorem run_quoted (field front : Field) :
    run ⟨.quoted, front, fields⟩ found
        (field.flatMap (fun b => if b = quote then [quote, quote] else [b]) ++ rest) =
      run ⟨.quoted, field.reverse ++ front, fields⟩ found rest := by
  induction field generalizing front with
  | nil => rfl
  | cons b field ih =>
    have hb : ∀ tail, run ⟨.quoted, front, fields⟩ found
        ((if b = quote then [quote, quote] else [b]) ++ tail) =
          run ⟨.quoted, b :: front, fields⟩ found tail := by
      intro tail
      by_cases hquote : b = quote
      · subst hquote
        rfl
      · rw [if_neg hquote, List.singleton_append]
        refine run_cons ?_
        simp [step, hquote, push]
    rw [List.flatMap_cons, List.append_assoc, hb, ih, List.reverse_cons, List.append_assoc,
      List.singleton_append]

/-- The reader stands in front of a field. -/
def Fresh (r : Reading) : Prop := (r.phase = .recordStart ∨ r.phase = .fieldStart) ∧ r.field = []

/-- The phases in which a comma or the end of a line completes the field. -/
def Phase.EndsField (phase : Phase) : Prop := phase = .plain ∨ phase = .quoteSeen

theorem fresh_start : start.Fresh := ⟨.inl rfl, rfl⟩

/-- **A written field is taken up.** -/
theorem run_spelled {r : Reading} (hr : r.Fresh) {written : List UInt8} {field : Field}
    (h : Spells written field) : ∃ phase, Phase.EndsField phase ∧ ∀ rest,
      run r found (written ++ rest) = run ⟨phase, field.reverse, r.fields⟩ found rest := by
  obtain ⟨phase, front, fields⟩ := r
  obtain ⟨hphase, hfront⟩ := hr
  simp only at hphase hfront
  subst hfront
  cases h with
  | plain hne hplain =>
    obtain ⟨b, field, rfl⟩ := List.exists_cons_of_ne_nil hne
    obtain ⟨⟨hcomma, hquote, hline⟩, hfield⟩ := List.forall_mem_cons.1 hplain
    have hstep : step ⟨phase, [], fields⟩ b = (none, ⟨.plain, [b], fields⟩) := by
      rcases hphase with rfl | rfl <;>
        simp [step, stepFresh, stepPlain, hcomma, hquote, hline, push]
    refine ⟨.plain, .inl rfl, ?_⟩
    intro rest
    rw [List.cons_append, run_cons hstep, run_plain hfield, List.reverse_cons]
  | quoted =>
    have hopen : step ⟨phase, [], fields⟩ quote = (none, ⟨.quoted, [], fields⟩) := by
      rcases hphase with rfl | rfl <;> rfl
    have hclose : step ⟨.quoted, field.reverse, fields⟩ quote =
        (none, ⟨.quoteSeen, field.reverse, fields⟩) := rfl
    refine ⟨.quoteSeen, .inr rfl, ?_⟩
    intro rest
    rw [writeField, List.cons_append, run_cons hopen, List.append_assoc, run_quoted,
      List.append_nil, List.singleton_append, run_cons hclose]

theorem run_comma {phase : Phase} (hphase : Phase.EndsField phase) (field : Field) :
    run ⟨phase, field.reverse, fields⟩ found (comma :: rest) =
      run ⟨.fieldStart, [], field :: fields⟩ found rest := by
  refine run_cons ?_
  rcases hphase with rfl | rfl <;> simp [step, stepPlain, endField, comma, quote]

theorem run_lineFeed {phase : Phase} (hphase : Phase.EndsField phase) (field : Field) :
    run ⟨phase, field.reverse, fields⟩ found (lineFeed :: rest) =
      run start ((field :: fields).reverse :: found) rest := by
  have hstep : step ⟨phase, field.reverse, fields⟩ lineFeed =
      (some (field :: fields).reverse, start) := by
    rcases hphase with rfl | rfl <;>
      simp [step, stepPlain, endsLine, lineFeed, comma, quote, Reading.record]
  rw [run, hstep]

/-- The fields of a line are put behind those read before, and the line completes their record. -/
theorem run_line {r : Reading} (hr : r.Fresh) {written : List (List UInt8)} {record : Record}
    (h : List.Forall₂ Spells written record) (hne : record ≠ []) :
    run r found (line written ++ rest) =
      run start ((r.fields.reverse ++ record) :: found) rest := by
  induction h generalizing r with
  | nil => exact absurd rfl hne
  | @cons first field writtens record hfirst hrest ih =>
    obtain ⟨phase, hphase, hrun⟩ := run_spelled hr hfirst
    cases hrest with
    | nil =>
      rw [line, List.intercalate_singleton, List.append_assoc, List.singleton_append, hrun,
        run_lineFeed hphase, List.reverse_cons]
    | @cons next field' writtens record hnext hrest =>
      have hline : line (first :: next :: writtens) =
          first ++ comma :: line (next :: writtens) := by
        simp [line, List.intercalate_cons_cons]
      have hfresh : Fresh ⟨.fieldStart, [], field :: r.fields⟩ := ⟨.inr rfl, rfl⟩
      rw [hline, List.append_assoc, hrun, List.cons_append, run_comma hphase,
        ih hfresh (List.cons_ne_nil _ _), List.reverse_cons, List.append_assoc,
        List.singleton_append]

/-- An empty line is passed over. -/
theorem run_line_nil : run start found (line [] ++ rest) = run start found rest := rfl

/-- **The records of some lines**, behind those found before. Empty lines hold none. -/
theorem run_lines {lines : List (List (List UInt8))} {records : List Record}
    (h : List.Forall₂ (List.Forall₂ Spells) lines records) :
    run start found (lines.flatMap line) = found.reverse ++ records.filter (· ≠ []) := by
  induction h generalizing found with
  | nil => rfl
  | @cons written record lines records hline _ ih =>
    rw [List.flatMap_cons]
    by_cases hne : record = []
    · subst hne
      cases hline
      rw [run_line_nil, ih, List.filter_cons_of_neg (by simp)]
    · rw [run_line fresh_start hline hne, ih, List.filter_cons_of_pos (by simpa using hne)]
      simp [start]

end Reading

/-! ### Records of any bytes -/

namespace Reading

theorem eq_record_of_step {r r' : Reading} {b : UInt8} {record : Record}
    (h : r.step b = (some record, r')) : record = r.record := by
  have hplain : ∀ {r' : Reading}, r.stepPlain b = (some record, r') → record = r.record := by
    intro r' h
    rw [stepPlain] at h
    split at h
    · cases h
    · split at h <;> cases h
      rfl
  have hfresh : ∀ {r' : Reading}, r.stepFresh b = (some record, r') → record = r.record := by
    intro r' h
    rw [stepFresh] at h
    split at h
    · cases h
    · exact hplain h
  rw [step] at h
  split at h
  · split at h
    · cases h
    · exact hfresh h
  · exact hfresh h
  · exact hplain h
  · split at h <;> cases h
  · split at h
    · cases h
    · exact hplain h

theorem record_ne_nil (r : Reading) : r.record ≠ [] := by simp [record]

/-- Every record that is completed has a field. -/
theorem ne_nil_of_mem_run {r : Reading} {found : List Record} {bytes : List UInt8} {record : Record}
    (hfound : ∀ record ∈ found, record ≠ []) (h : record ∈ run r found bytes) : record ≠ [] := by
  induction bytes generalizing r found with
  | nil =>
    rw [run, List.mem_append, List.mem_reverse, finish] at h
    rcases h with h | h
    · exact hfound record h
    · split at h
      · cases h
      · rw [List.mem_singleton.1 h]
        exact r.record_ne_nil
  | cons b bytes ih =>
    rw [run] at h
    cases hstep : r.step b with
    | mk completed r' =>
      rw [hstep] at h
      cases completed with
      | none => exact ih hfound h
      | some first =>
        apply ih (List.forall_mem_cons.2 ⟨?_, hfound⟩) h
        rw [eq_record_of_step hstep]
        exact r.record_ne_nil

end Reading

/-- **Every record of a file has a field**, as empty lines are none. -/
theorem ne_nil_of_mem_records {bytes : List UInt8} {record : Record}
    (h : record ∈ Delimited.records bytes) : record ≠ [] :=
  Reading.ne_nil_of_mem_run (by simp) h

/-! ### Files of lines -/

/-- There is no mark to drop in front of a file whose first byte does not open one. -/
theorem dropMark_of_head_ne {bytes : List UInt8} (h : bytes.head? ≠ some 0xEF) :
    dropMark bytes = bytes := by
  rw [dropMark.eq_def]
  split
  · exact absurd rfl h
  · rfl

/-- **The records of a file of lines** are the records written, the empty ones apart. -/
theorem records_lines {lines : List (List (List UInt8))} {records : List Record}
    (h : List.Forall₂ (List.Forall₂ Spells) lines records)
    (hmark : (lines.flatMap line).head? ≠ some 0xEF) :
    Delimited.records (lines.flatMap line) = records.filter (· ≠ []) := by
  rw [Delimited.records, dropMark_of_head_ne hmark, Reading.run_lines h]
  rfl

/-! ### Lines of characters -/

/-- A line of written fields as characters. -/
def textLine (written : List (List Char)) : List Char := [','].intercalate written ++ ['\n']

/-- A file of lines as a text. -/
def textFile (lines : List (List (List Char))) : String := .ofList (lines.flatMap textLine)

theorem encode_intercalate (texts : List (List Char)) :
    encode ([','].intercalate texts) = [comma].intercalate (texts.map encode) := by
  have hcomma : encode [','] = [comma] := by decide
  induction texts with
  | nil => rfl
  | cons text rest ih =>
    cases rest with
    | nil => rw [List.intercalate_singleton, List.map_singleton, List.intercalate_singleton]
    | cons next rest =>
      rw [List.intercalate_cons_cons, encode_append, encode_append, hcomma, ih]
      simp [List.intercalate_cons_cons]

theorem encode_textLine (written : List (List Char)) :
    encode (textLine written) = line (written.map encode) := by
  have hfeed : encode ['\n'] = [lineFeed] := by decide
  rw [textLine, encode_append, encode_intercalate, hfeed, line]

/-- **The bytes of a file** are those of its fields, line by line. -/
theorem utf8_textFile (lines : List (List (List Char))) :
    utf8 (textFile lines) = (lines.map (List.map encode)).flatMap line := by
  rw [textFile, utf8_ofList, encode, List.flatMap_map, List.flatMap_assoc]
  exact List.flatMap_congr fun written _ => encode_textLine written

end LineChart.Delimited
