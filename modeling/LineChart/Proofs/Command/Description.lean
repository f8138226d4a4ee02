import LineChart.Command.Basic
import LineChart.Proofs.Description.Check

/-!
# The description that a command asks for

A command starts from a stock figure or from a described one. Both are sound, and of all that the
command can change only the resolution can make a description unsound.

* `Presets.sound_bandwidth`, `Presets.sound_requestTime`, `Presets.sound_requestTimeByQueue` : the
  stock figures are sound, whatever is to be drawn.
* `Command.AsksFor` : what a command asks for: a description and the paths to put in it.
* `Command.check_adjust` : the check of a sound description with the settings of a command.
* `Command.description_outcome` : when a command has no description, what is wrong then, and which
  description it has otherwise.
-/

namespace LineChart

/-! ### The stock figures -/

namespace Presets

theorem sound_bandwidth (sets : List UInt32) : (bandwidth sets).Sound := by
  apply FigureDescription.sound_of_defaults
  · show (if sets.isEmpty then defaultSets else sets).map setSeries ≠ []
    cases sets with
    | nil => simp [defaultSets]
    | cons set rest => simp
  · intro s hs
    obtain ⟨set, -, rfl⟩ := List.mem_map.1 hs
    exact ⟨rfl, .inl rfl⟩

theorem sound_requestTime (label : String) : (requestTime label).Sound := by
  apply FigureDescription.sound_of_defaults
  · exact List.cons_ne_nil _ _
  · intro s hs
    obtain rfl := List.mem_singleton.1 hs
    exact ⟨rfl, .inl rfl⟩

theorem sound_requestTimeByQueue (weights : List UInt64) :
    (requestTimeByQueue weights).Sound := by
  cases weights with
  | nil =>
    apply FigureDescription.sound_of_defaults
    · exact List.cons_ne_nil _ _
    · intro s hs
      obtain rfl := List.mem_singleton.1 hs
      exact ⟨rfl, .inl rfl⟩
  | cons weight rest =>
    apply FigureDescription.sound_of_defaults
    · exact List.cons_ne_nil _ _
    · intro s hs
      obtain ⟨⟨w, queue⟩, -, rfl⟩ := List.mem_map.1 hs
      exact ⟨rfl, .inr rfl⟩

end Presets

/-! ### Loaded descriptions -/

/-- A description that loads has passed its check. -/
theorem FigureDescription.check_of_load {files : Files} {path : Path} {d : FigureDescription}
    (h : load files path = .ok d) : d.check = .ok () := by
  unfold load at h
  split at h
  · cases h
  split at h
  · cases h
  split at h
  · cases h
  · next hcheck =>
    obtain rfl := Except.ok.inj h
    exact hcheck

namespace Command

variable {c : Command} {files : Files} {base d : FigureDescription}

/-! ### What a command asks for -/

/-- A command asks for a stock figure that is read from its own input and saved to its own output, or
for the figure that a file describes, whose paths stay unless others are given. -/
inductive AsksFor (files : Files) : Command → FigureDescription → Path → Path → Prop
  | bandwidth {input output sets common} :
      AsksFor files (.bandwidth input output sets common) (Presets.bandwidth sets) input output
  | byQueue {input output label byQueue weights common} (h : byQueue = true ∨ weights ≠ []) :
      AsksFor files (.requestTime input output label byQueue weights common)
        (Presets.requestTimeByQueue weights) input output
  | oneLine {input output label common} :
      AsksFor files (.requestTime input output label false [] common)
        (Presets.requestTime label) input output
  | described {path input output common base}
      (h : FigureDescription.load files path = .ok base) :
      AsksFor files (.render path input output common) base
        (input.getD base.input) (output.getD base.output)

/-- The file in which a command looks for a description does not load. -/
def FileFails (c : Command) (files : Files) (e : DescriptionLoadError) : Prop :=
  ∃ path input output common,
    c = .render path input output common ∧ FigureDescription.load files path = .error e

theorem base_eq_error_iff {e : DescriptionLoadError} :
    c.base files = .error e ↔ c.FileFails files e := by
  cases c <;> simp [base, FileFails]

theorem base_eq_ok_iff {input output : Path} :
    c.base files = .ok base ∧ input = c.paths.1.getD base.input ∧
      output = c.paths.2.getD base.output ↔ c.AsksFor files base input output := by
  constructor
  · rintro ⟨hbase, rfl, rfl⟩
    cases c with
    | bandwidth =>
      obtain rfl := Except.ok.inj hbase
      exact .bandwidth
    | requestTime input output label byQueue weights common =>
      obtain rfl := Except.ok.inj hbase
      split
      · next h => exact .byQueue h
      · next h =>
        obtain ⟨hqueue, hweights⟩ := not_or.1 h
        rw [Bool.not_eq_true] at hqueue
        subst hqueue
        obtain rfl := Decidable.not_not.1 hweights
        exact .oneLine
    | render => exact .described hbase
  · intro h
    cases h with
    | bandwidth => exact ⟨rfl, rfl, rfl⟩
    | byQueue h => exact ⟨congrArg Except.ok (if_pos h), rfl, rfl⟩
    | oneLine => exact ⟨rfl, rfl, rfl⟩
    | described h => exact ⟨h, rfl, rfl⟩

/-- Whatever a command starts from is sound. -/
theorem sound_of_asksFor {input output : Path} (h : c.AsksFor files base input output) :
    base.Sound := by
  cases h with
  | bandwidth => exact Presets.sound_bandwidth _
  | byQueue => exact Presets.sound_requestTimeByQueue _
  | oneLine => exact Presets.sound_requestTime _
  | described h =>
    exact FigureDescription.check_eq_ok_iff_sound.1 (FigureDescription.check_of_load h)

theorem asksFor_of_base (h : c.base files = .ok base) :
    c.AsksFor files base (c.paths.1.getD base.input) (c.paths.2.getD base.output) :=
  base_eq_ok_iff.1 ⟨h, rfl, rfl⟩

/-! ### The settings of a command -/

theorem adjust_eq : c.adjust base =
    { base with
      input := c.paths.1.getD base.input
      output := c.paths.2.getD base.output
      dpi := c.common.dpi.getD base.dpi
      title := c.common.title.or base.title } := by
  rw [adjust]
  cases c.common.title <;> rfl

/-- The paths and the title do not count in the check, and a resolution counts if it is given. -/
theorem check_adjust (h : base.Sound) :
    (c.adjust base).check = if c.common.dpi = some 0 then .error .badDpi else .ok () := by
  split
  · next hdpi =>
    simp [FigureDescription.check, adjust, hdpi, h.series, h.width, h.height]
  · next hdpi =>
    refine FigureDescription.check_eq_ok_iff_sound.2 { h with dpi := ?_ }
    show 0 < c.common.dpi.getD base.dpi
    cases hgiven : c.common.dpi with
    | none => exact h.dpi
    | some dpi =>
      apply UInt32.pos_iff_ne_zero.2
      rintro rfl
      exact hdpi hgiven

theorem description_of_base (h : c.base files = .ok base) :
    c.description files =
      if c.common.dpi = some 0 then .error (.description .badDpi) else .ok (c.adjust base) := by
  simp only [description, h, check_adjust (sound_of_asksFor (asksFor_of_base h))]
  by_cases hdpi : c.common.dpi = some 0
  · rw [if_pos hdpi, if_pos hdpi]
  · rw [if_neg hdpi, if_neg hdpi]

/-- A command whose file does not load fails with what is wrong with the file, and with nothing else,
whatever it sets. -/
theorem description_eq_error_iff {e : DescriptionLoadError} :
    c.description files = .error e ↔ c.FileFails files e ∨
      c.common.dpi = some 0 ∧ (∀ e', ¬ c.FileFails files e') ∧ e = .description .badDpi := by
  simp only [← base_eq_error_iff]
  cases hbase : c.base files with
  | error e' => simp [description, hbase]
  | ok base =>
    rw [description_of_base hbase]
    by_cases hdpi : c.common.dpi = some 0
    · simp [hdpi, eq_comm]
    · simp [hdpi]

theorem description_eq_ok_iff :
    c.description files = .ok d ↔ c.common.dpi ≠ some 0 ∧ ∃ base input output,
      c.AsksFor files base input output ∧
        d = { base with
          input, output
          dpi := c.common.dpi.getD base.dpi
          title := c.common.title.or base.title } := by
  constructor
  · intro h
    cases hbase : c.base files with
    | error e => simp [description, hbase] at h
    | ok base =>
      rw [description_of_base hbase] at h
      split at h
      · cases h
      · next hdpi =>
        obtain rfl := Except.ok.inj h
        exact ⟨hdpi, base, _, _, asksFor_of_base hbase, adjust_eq⟩
  · rintro ⟨hdpi, base, input, output, hasks, rfl⟩
    obtain ⟨hbase, rfl, rfl⟩ := base_eq_ok_iff.2 hasks
    rw [description_of_base hbase, if_neg hdpi, adjust_eq]

theorem check_of_description (h : c.description files = .ok d) : d.check = .ok () := by
  unfold description at h
  split at h
  · cases h
  split at h
  · cases h
  · next hcheck =>
    obtain rfl := Except.ok.inj h
    exact hcheck

/-- **A command has no description exactly if its file does not load or its resolution is zero; the
file's error comes first. Otherwise its description is sound, and it is what the command asks for but
for the paths, the resolution and the title, which are replaced if the command sets them.** -/
theorem description_outcome (c : Command) (files : Files) :
    ((∃ e, c.description files = .error e) ↔
      (∃ e, c.FileFails files e) ∨ c.common.dpi = some 0) ∧
    (∀ e, c.description files = .error e ↔ c.FileFails files e ∨
      c.common.dpi = some 0 ∧ (∀ e', ¬ c.FileFails files e') ∧ e = .description .badDpi) ∧
    (∀ d, c.description files = .ok d → d.check = .ok () ∧ d.Sound) ∧
    ∀ d, c.description files = .ok d ↔ c.common.dpi ≠ some 0 ∧ ∃ base input output,
      c.AsksFor files base input output ∧
        d = { base with
          input, output
          dpi := c.common.dpi.getD base.dpi
          title := c.common.title.or base.title } := by
  refine ⟨?_, fun e => description_eq_error_iff, fun d h => ?_, fun d => description_eq_ok_iff⟩
  · simp only [description_eq_error_iff]
    by_cases hfails : ∃ e, c.FileFails files e
    · exact iff_of_true (hfails.imp fun e he => .inl he) (.inl hfails)
    · simp [not_exists.1 hfails]
  · have hcheck := check_of_description h
    exact ⟨hcheck, FigureDescription.check_eq_ok_iff_sound.1 hcheck⟩

end Command

end LineChart
