import LineChart.Description.Loading
import LineChart.Description.Presets
import LineChart.Proofs.Colour.Cuts
import LineChart.Proofs.Figure.Verdict

/-!
# Descriptions that fail at a cut colour

A colour's text that is cut inside a character is more than a colour that cannot be read: nothing
goes on behind the cut. It is met in the check of a description alone, at the first series that does
not pass, and so wherever a description is checked.

* `FigureDescription.CutsColour` : the descriptions with such a colour, and the colour.
* `FigureDescription.check_eq_cutColour_iff` : where the check meets it.
* `FigureDescription.cut_colour_iff` : where reading a colour, checking, resolving and loading meet it.
-/

namespace LineChart

/-! ### The check -/

namespace SeriesDescription

/-- The check of a series fails at its colour if that is cut. -/
theorem check_eq_cutColour_iff {s : SeriesDescription} {label colour : String} :
    s.check = .error (.cutColour label colour) ↔
      s.label = label ∧ s.colour = some colour ∧ Colour.Cuts colour := by
  have hcombined : ((if s.filter.isSome && s.groupBy.isSome then .error (.groupAndFilter s.label)
      else .ok ()) : Except DescriptionError Unit) ≠ .error (.cutColour label colour) := by
    split <;> simp
  rw [check]
  cases hcolour : s.colour with
  | none => exact iff_of_false hcombined (by simp)
  | some text =>
    rw [Option.some.injEq]
    have hwhole (hread : Colour.read text ≠ .cutCharacter) :
        ¬ (s.label = label ∧ text = colour ∧ Colour.Cuts colour) := by
      rintro ⟨-, rfl, hcuts⟩
      exact hread (Colour.read_eq_cutCharacter_iff.2 hcuts)
    cases hread : Colour.read text with
    | colour c =>
      exact iff_of_false (by simpa [hread] using hcombined) (hwhole (by simp [hread]))
    | notColour => exact iff_of_false (by simp [hread]) (hwhole (by simp [hread]))
    | cutCharacter =>
      rw [← Colour.read_eq_cutCharacter_iff]
      simp only [hread, Except.error.injEq, DescriptionError.cutColour.injEq]
      refine and_congr_right fun _ => ⟨?_, fun h => h.1⟩
      rintro rfl
      exact ⟨rfl, hread⟩

end SeriesDescription

namespace FigureDescription

variable {d : FigureDescription} {label colour : String}

/-- A description is checked up to a series whose colour is cut inside a character. -/
structure CutsColour (d : FigureDescription) (label colour : String) : Prop where
  frame : d.SoundFrame
  first : ∃ before s after, d.series = before ++ s :: after ∧
    (∀ b ∈ before, b.check = .ok ()) ∧ s.label = label ∧ s.colour = some colour
  cuts : Colour.Cuts colour

theorem CutsColour.series_ne_nil (h : d.CutsColour label colour) : d.series ≠ [] := by
  obtain ⟨before, s, after, hsplit, -⟩ := h.first
  rw [hsplit]
  exact List.append_ne_nil_of_right_ne_nil before (List.cons_ne_nil s after)

/-- **The check fails at a cut colour** if the first series that does not pass has one. -/
theorem check_eq_cutColour_iff :
    d.check = .error (.cutColour label colour) ↔ d.CutsColour label colour := by
  by_cases hsound : d.series ≠ [] ∧ d.SoundFrame
  · rw [check_of_soundFrame hsound.1 hsound.2, checkSeries_eq_error_iff]
    constructor
    · intro h
      obtain ⟨before, s, after, hsplit, hbefore, hs⟩ := h
      obtain ⟨hlabel, hcolour, hcuts⟩ := SeriesDescription.check_eq_cutColour_iff.1 hs
      exact ⟨hsound.2, ⟨before, s, after, hsplit, hbefore, hlabel, hcolour⟩, hcuts⟩
    · intro h
      obtain ⟨-, ⟨before, s, after, hsplit, hbefore, hlabel, hcolour⟩, hcuts⟩ := h
      exact ⟨before, s, after, hsplit, hbefore,
        SeriesDescription.check_eq_cutColour_iff.2 ⟨hlabel, hcolour, hcuts⟩⟩
  · obtain ⟨e, he, habout⟩ := check_of_unsoundFrame hsound
    refine iff_of_false ?_ fun h => hsound ⟨h.series_ne_nil, h.frame⟩
    rw [he]
    rintro ⟨⟩
    cases habout

/-! ### Resolving and loading -/

/-- Resolving fails at a cut colour if the check does. -/
theorem outcome_eq_cutColour_iff {t : Table} :
    (resolve d t).outcome = .error (.description (.cutColour label colour)) ↔
      d.CutsColour label colour := by
  rw [← check_eq_cutColour_iff]
  cases hcheck : d.check with
  | error e => rw [outcome_of_check_error hcheck]; simp
  | ok _ =>
    refine iff_of_false ?_ (by simp)
    rw [outcome_eq_error_iff_fault hcheck]
    rintro ⟨before, s, after, -, -, hfault⟩
    exact hfault.ne_description _ rfl

/-- Behind the check, resolving meets no cut colour and loses none. -/
theorem outcome_ne_lostColour {t : Table} :
    (resolve d t).outcome ≠ .error (.lostColour label colour) := by
  cases hcheck : d.check with
  | error e => rw [outcome_of_check_error hcheck]; simp
  | ok _ =>
    rw [ne_eq, outcome_eq_error_iff_fault hcheck]
    rintro ⟨before, s, after, -, -, hfault⟩
    exact hfault.ne_lostColour label colour rfl

/-- A text of a description is a description or none. -/
theorem ofText_ne_description {extension text : String} {e : DescriptionError} :
    ofText extension text ≠ .error (.description e) := by
  rw [ofText]
  split
  · split <;> simp
  · split
    · split <;> simp
    · simp

/-- Loading fails at a cut colour if there is a description in the file whose check does. -/
theorem load_eq_cutColour_iff {files : Files} {path : Path} :
    load files path = .error (.description (.cutColour label colour)) ↔
      ∃ text d, files.readText path = .ok text ∧ ofText path.extension text = .ok d ∧
        d.CutsColour label colour := by
  rw [load]
  cases hread : files.readText path with
  | error e => simp
  | ok text =>
    simp only [Except.ok.injEq, exists_eq_left', exists_and_left]
    cases htext : ofText path.extension text with
    | error e =>
      refine iff_of_false ?_ (by simp)
      rintro h
      exact ofText_ne_description (htext.trans h)
    | ok d =>
      simp only [Except.ok.injEq, exists_eq_left', ← check_eq_cutColour_iff]
      cases d.check with
      | error e => simp
      | ok _ => simp

/-- **Where a colour is cut inside a character.** Reading a colour meets the cut on the texts of
three or six bytes whose parts do not end where characters end. The check of a description meets it
at the first series that does not pass, resolving meets it in the check and nowhere else, and loading
meets it in the check of the description that stands in the file. -/
theorem cut_colour_iff (text : String) (d : FigureDescription) (t : Table) (files : Files)
    (path : Path) (label colour : String) :
    (Colour.read text = .cutCharacter ↔ Colour.Cuts text) ∧
      (d.check = .error (.cutColour label colour) ↔ d.CutsColour label colour) ∧
      ((resolve d t).outcome = .error (.description (.cutColour label colour)) ↔
        d.CutsColour label colour) ∧
      (resolve d t).outcome ≠ .error (.lostColour label colour) ∧
      (load files path = .error (.description (.cutColour label colour)) ↔
        ∃ text d, files.readText path = .ok text ∧ ofText path.extension text = .ok d ∧
          d.CutsColour label colour) :=
  ⟨Colour.read_eq_cutCharacter_iff, check_eq_cutColour_iff, outcome_eq_cutColour_iff,
    outcome_ne_lostColour, load_eq_cutColour_iff⟩

/-- Requests as a line in the colour of a currency sign, which is a single character of three
bytes. -/
def currencyLine : FigureDescription :=
  Presets.requestTimes [{ Presets.requestSeries "all queues" with colour := some "€" }]

/-- Neither the check nor resolving, whatever the table, gets past that colour. -/
theorem currencyLine_cut :
    currencyLine.check = .error (.cutColour "all queues" "€") ∧
      ∀ t, (resolve currencyLine t).outcome =
        .error (.description (.cutColour "all queues" "€")) := by
  have hcheck : currencyLine.check = .error (.cutColour "all queues" "€") := by
    decide +kernel
  exact ⟨hcheck, fun _ => outcome_eq_cutColour_iff.2 (check_eq_cutColour_iff.1 hcheck)⟩

end FigureDescription

end LineChart
