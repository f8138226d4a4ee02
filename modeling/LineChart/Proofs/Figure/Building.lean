import LineChart.Figure.Building
import LineChart.Proofs.Files.Saved
import LineChart.Proofs.Table.Columns

/-!
# What building a figure changes

A figure that is built is the only file that changes. Tables and figures have different extensions,
so it never takes the place of the table it was drawn from. A figure that is not built changes no
file, unless the writing of it breaks off once its file is open, and no directory either unless
saving it had begun.

* `Renderer.Draws` : a figure of which nothing is refused.
* `Figure.saves_save` : what saving a figure changes.
* `FigureDescription.build_changes` : what building a figure changes.
* `FigureDescription.not_atomic` : building is not atomic.
-/

namespace LineChart

open FileTree (openFile_unchanged)

/-! ### Extensions -/

/-- The extensions of tables. -/
theorem extension_of_load {files : Files} {path : Path} {t : Table}
    (h : Table.load files path = .ok t) :
    path.extension ∈ ["csv", "json", "parquet", "pq"] := by
  rw [Table.load, loadColumns] at h
  cases hloader : loader? path.extension with
  | none =>
    rw [hloader] at h
    cases h
  | some load =>
    rw [loader?] at hloader
    split at hloader
    · next hextension => simp [hextension]
    · split at hloader
      · next hextension => simp [hextension]
      · split at hloader
        · next hextension => rcases hextension with hextension | hextension <;> simp [hextension]
        · cases hloader

/-- The extensions of figures. -/
theorem extension_of_format {extension : String} {format : DrawingFormat}
    (h : DrawingFormat.ofExtension? extension = some format) : extension = format.extension := by
  rw [DrawingFormat.ofExtension?] at h
  split at h
  · next hextension =>
    obtain rfl := Option.some.inj h
    exact hextension
  · split at h
    · next hextension =>
      obtain rfl := Option.some.inj h
      exact hextension
    · cases h

theorem ne_format_of_mem {extension : String} (h : extension ∈ ["csv", "json", "parquet", "pq"])
    (format : DrawingFormat) : extension ≠ "" ∧ format.extension ≠ "" ∧
      extension ≠ format.extension := by
  simp only [List.mem_cons, List.not_mem_nil, or_false] at h
  rcases h with rfl | rfl | rfl | rfl <;> cases format <;> decide

/-! ### Saving -/

variable {r : Renderer} {files after : Files} {path : Path}

/-- Nothing is refused of a figure that is drawn in a format. -/
def Renderer.Draws (r : Renderer) (f : Figure) : DrawingFormat → Prop
  | .svg => r.undrawn f = none
  | .pdf => r.undrawn f = none ∧ r.unread f.scene = none ∧ r.unconverted f.scene = none

theorem Renderer.draw_eq_ok_iff {f : Figure} {scene : Scene} :
    r.draw f = .ok scene ↔ r.undrawn f = none ∧ scene = f.scene := by
  rw [draw]
  cases r.undrawn f with
  | some cause => simp
  | none => simp [eq_comm]

theorem Renderer.drawPage_eq_ok_iff {f : Figure} {scene : Scene} :
    r.drawPage f = .ok scene ↔ r.Draws f .pdf ∧ scene = f.scene := by
  rw [drawPage]
  cases hdraw : r.draw f with
  | error e =>
    have hrefused : r.undrawn f ≠ none := by
      intro hnone
      rw [draw, hnone] at hdraw
      cases hdraw
    simp [Draws, hrefused]
  | ok drawn =>
    obtain ⟨hdrawn, rfl⟩ := draw_eq_ok_iff.1 hdraw
    cases hread : r.unread f.scene with
    | some cause => simp [Draws, hread]
    | none =>
      cases hconvert : r.unconverted f.scene with
      | some cause => simp [Draws, hread, hconvert]
      | none => simp [Draws, hdrawn, hread, hconvert, eq_comm]

namespace Figure

theorem content_eq_ok_iff {f : Figure} {format : DrawingFormat} {content : FileContent} :
    f.content r format = .ok content ↔ r.Draws f format ∧ content = .drawing format f.scene := by
  have hscene : (∃ scene, (r.Draws f format ∧ scene = f.scene) ∧
      FileContent.drawing format scene = content) ↔
        r.Draws f format ∧ content = .drawing format f.scene := by
    constructor
    · intro h
      obtain ⟨scene, ⟨hdraws, rfl⟩, rfl⟩ := h
      exact ⟨hdraws, rfl⟩
    · intro h
      obtain ⟨hdraws, rfl⟩ := h
      exact ⟨f.scene, ⟨hdraws, rfl⟩, rfl⟩
  rw [← hscene]
  cases format with
  | svg =>
    rw [Figure.content, map_eq_ok_iff]
    simp only [Renderer.draw_eq_ok_iff, Renderer.Draws]
  | pdf =>
    rw [Figure.content, map_eq_ok_iff]
    simp only [Renderer.drawPage_eq_ok_iff]

/-- What becomes of the files when a figure is saved at a path, with the outcome. -/
inductive Saves (f : Figure) (r : Renderer) (files : Files) (path : Path) :
    Files → Except SaveError Unit → Prop
  /-- The figure is not drawn in the format that the path asks for. -/
  | undrawn (e : SaveError) : Saves f r files path files (.error e)
  /-- The directories are not made, or the file is not opened. -/
  | unopened {after : Files} (e : FileError) (h : ∀ place, files.SameUpToWay after path place) :
      Saves f r files path after (.error (.writing path e))
  /-- The drawing is written, until it is complete or the writing breaks off. -/
  | opened {after : Files} {format : DrawingFormat} {place : Location} {written : FileContent}
      {outcome : Except FileError Unit} (hformat : path.extension = format.extension)
      (hdraws : r.Draws f format)
      (hgets : files.Gets place (.drawing format f.scene) written outcome)
      (hwritten : files.Written after path place written) :
      Saves f r files path after (outcome.mapError (.writing path))

/-- **What saving a figure changes.** -/
theorem saves_save (f : Figure) (r : Renderer) (files : Files) (path : Path) :
    f.Saves r files path (f.save r files path).1 (f.save r files path).2 := by
  rw [Figure.save]
  cases hformat : DrawingFormat.ofExtension? path.extension with
  | none => exact .undrawn _
  | some format =>
    cases hcontent : f.content r format with
    | error e =>
      simp only [hcontent]
      exact .undrawn e
    | ok content =>
      obtain ⟨hdraws, rfl⟩ := content_eq_ok_iff.1 hcontent
      simp only [hcontent]
      cases hsave : FileTree.save files path (.drawing format f.scene) with
      | mk saved outcome =>
        rcases FileTree.save_changes hsave with ⟨hway, e, rfl⟩ | ⟨place, written, hgets, hwritten⟩
        · exact .unopened e hway
        · have hopened := Saves.opened (extension_of_format hformat) hdraws hgets hwritten
          cases outcome <;> exact hopened

end Figure

/-! ### Building -/

namespace FigureDescription

/-- A figure that a description resolves to, with the table of its input. -/
def Yields (d : FigureDescription) (files : Files) (f : Figure) : Prop :=
  ∃ t, Table.load files d.input = .ok t ∧ (resolve d t).outcome = .ok f

/-- A figure that is found is saved, with what becomes of that. -/
theorem build_of_yields {d : FigureDescription} {f : Figure} (h : d.Yields files f)
    (r : Renderer) : d.build r files = ((f.save r files d.output).1,
      match (f.save r files d.output).2 with
      | .ok () => .ok ⟨f, d.output⟩
      | .error e => .error (.save d.output e)) := by
  obtain ⟨t, hload, houtcome⟩ := h
  rw [build]
  simp only [hload, houtcome]
  cases hsave : f.save r files d.output with
  | mk after outcome => cases outcome <;> rfl

/-- The files after a figure is built: the figure is the one that its description resolves to,
nothing of it is refused, its whole drawing is the file at the output's path, elsewhere there are at
most new directories on the way to it (above it, if the path never leads upwards), and the file at
the input's path is what it was. -/
structure Built (d : FigureDescription) (r : Renderer) (files after : Files) (b : Build) :
    Prop where
  figure : d.Yields files b.figure
  path : b.path = d.output
  saved : ∃ format place, d.output.extension = DrawingFormat.extension format ∧
    r.Draws b.figure format ∧ files.faults.broken place = none ∧
    files.Written after d.output place (.drawing format b.figure.scene)
  above : ".." ∉ d.output.names → ∀ place other, after.locate d.output = .ok place →
    files.node? other = none → after.node? other = some .directory → other <+: place
  input : ∀ content, files.openFile d.input = .ok content → after.openFile d.input = .ok content

/-- The files after the writing of the output broke off: its file is there, with what was written of
the drawing by then, and elsewhere there are at most new directories on the way to it. -/
def BrokenOff (d : FigureDescription) (r : Renderer) (files after : Files) (e : BuildError) :
    Prop :=
  ∃ f format place count cause, d.Yields files f ∧
    d.output.extension = DrawingFormat.extension format ∧ r.Draws f format ∧
    e = .save d.output (.writing d.output cause) ∧
    files.faults.broken place = some (count, cause) ∧
    files.Written after d.output place (FileContent.front count (.drawing format f.scene))

/-- The files after a figure is not built: there are at most new directories on the way to the
output, unless the writing of it broke off, and none unless the saving of it had begun. The file at
the input's path is what it was in any case. -/
structure NotBuilt (d : FigureDescription) (r : Renderer) (files after : Files) (e : BuildError) :
    Prop where
  changes : (∀ place, files.SameUpToWay after d.output place) ∨ d.BrokenOff r files after e
  unsaved : (∀ cause, e ≠ .save d.output (.writing d.output cause)) → after = files
  input : ∀ content, files.openFile d.input = .ok content → after.openFile d.input = .ok content

theorem NotBuilt.of_unchanged {d : FigureDescription} {e : BuildError} :
    d.NotBuilt r files files e :=
  ⟨.inl fun _ => .inl rfl, fun _ => rfl, fun _ hopen => hopen⟩

/-- A new directory that a path passes is above what the path leads to. -/
theorem isPrefix_of_new {place other : Location} {content : FileContent}
    (h : files.Written after path place content) (hup : ".." ∉ path.names)
    (hnone : files.node? other = none) (hdirectory : after.node? other = some .directory) :
    other <+: place := by
  have hne : other ≠ place := by
    rintro rfl
    rw [h.node] at hdirectory
    cases hdirectory
  rcases h.elsewhere other hne with hsame | ⟨-, -, hpasses⟩
  · rw [hsame, hnone] at hdirectory
    cases hdirectory
  · exact hpasses.isPrefix hup h.located

/-- The input is not the file that is written, as the two have different extensions. -/
theorem openFile_input {d : FigureDescription} {t : Table} {format : DrawingFormat}
    {place : Location} {written content : FileContent} (hload : Table.load files d.input = .ok t)
    (hformat : d.output.extension = format.extension)
    (hwritten : files.Written after d.output place written)
    (hopen : files.openFile d.input = .ok content) : after.openFile d.input = .ok content := by
  obtain ⟨hinput, houtput, hne⟩ := ne_format_of_mem (extension_of_load hload) format
  rw [← hformat] at houtput hne
  have hway : ∀ other, files.locate d.input = .ok other →
      files.SameUpToWay after d.output other := by
    intro other hother
    apply hwritten.elsewhere other
    exact FileTree.ne_of_extension_ne hinput houtput hne hother hwritten.located
  exact openFile_unchanged hwritten.keeps hway hopen

/-- **What building a figure changes**, if the figure is built and if it is not. -/
theorem build_changes (d : FigureDescription) (r : Renderer) (files : Files) :
    match d.build r files with
    | (after, .ok b) => d.Built r files after b
    | (after, .error e) => d.NotBuilt r files after e := by
  cases hload : Table.load files d.input with
  | error e =>
    simp only [build, hload]
    exact .of_unchanged
  | ok t =>
    cases houtcome : (resolve d t).outcome with
    | error e =>
      simp only [build, hload, houtcome]
      exact .of_unchanged
    | ok f =>
      have hyields : d.Yields files f := ⟨t, hload, houtcome⟩
      rw [build_of_yields hyields]
      have hsaves := f.saves_save r files d.output
      cases hsave : f.save r files d.output with
      | mk after outcome =>
        rw [hsave] at hsaves
        cases hsaves with
        | undrawn e => exact .of_unchanged
        | unopened e hway =>
          refine ⟨.inl hway, fun hne => absurd rfl (hne e), ?_⟩
          intro content hopen
          have hkeeps := FileTree.keepsDirectories_of_new fun place =>
            (hway place).imp_right And.left
          exact openFile_unchanged hkeeps (fun place _ => hway place) hopen
        | opened hformat hdraws hgets hwritten =>
          have hinput : ∀ content, files.openFile d.input = .ok content →
              after.openFile d.input = .ok content :=
            fun _ => openFile_input hload hformat hwritten
          cases hgets with
          | whole hbroken =>
            refine ⟨hyields, rfl, ⟨_, _, hformat, hdraws, hbroken, hwritten⟩, ?_, hinput⟩
            intro hup place other hplace
            obtain rfl := Except.ok.inj (hwritten.located.symm.trans hplace)
            exact isPrefix_of_new hwritten hup
          | front hbroken =>
            refine ⟨.inr ?_, fun hne => absurd rfl (hne _), hinput⟩
            exact ⟨f, _, _, _, _, hyields, hformat, hdraws, rfl, hbroken, hwritten⟩

/-! ### What is not undone -/

/-- What building would change if it took effect as a whole or not at all: directories would be made
above the output only, and a figure that is not built would leave every file as it was. -/
def Atomic (d : FigureDescription) (r : Renderer) (files : Files) :
    Files × Except BuildError Build → Prop
  | (after, .ok b) => d.Built r files after b ∧ ∀ place other, after.locate d.output = .ok place →
      files.node? other = none → after.node? other = some .directory → other <+: place
  | (after, .error e) =>
      (∀ place content, after.node? place = some (.file content) ↔
        files.node? place = some (.file content)) ∧
      ((∀ cause, e ≠ .save d.output (.writing d.output cause)) → after = files)

/-- A line of one point, saved at a path. -/
def onePoint (output : Path) : FigureDescription :=
  { input := ⟨"t.csv"⟩, output, series := [{ y := "elapsed", label := "A" }] }

/-- The table of the point. -/
def onePointFiles : Files := { entries := [(["t.csv"], .file (.ofText "elapsed\n1\n"))] }

def noSpace : FileError := .system "No space left on device" 28

/-- The same on a device that has no room for another byte. -/
def fullFiles : Files := { onePointFiles with faults := { broken := fun _ => some (0, noSpace) } }

/-- A path that leads through a directory and out of it again. -/
def detour : Path := ⟨"new/../o.svg"⟩

theorem yields_of_isSome {d : FigureDescription}
    (h : (Table.load files d.input).toOption.map (fun t => (resolve d t).outcome.toOption.isSome) =
      some true) : ∃ f, d.Yields files f := by
  obtain ⟨t, hload, hsome⟩ := exists_ok_of_map h
  cases houtcome : (resolve d t).outcome with
  | error e =>
    rw [houtcome] at hsome
    cases hsome
  | ok f => exact ⟨f, t, hload, houtcome⟩

/-- **Building is not atomic.** A directory that the output's path leads through is made also if the
path leads out of it again, and a figure that no longer fits on its device leaves an empty file. -/
theorem not_atomic :
    (∃ after b, (onePoint detour).build .standard onePointFiles = (after, .ok b) ∧
      after.locate detour = .ok ["o.svg"] ∧ onePointFiles.node? ["new"] = none ∧
      after.node? ["new"] = some .directory ∧
      ¬ (onePoint detour).Atomic .standard onePointFiles (after, .ok b)) ∧
    ∃ after e content, (onePoint ⟨"o.svg"⟩).build .standard fullFiles = (after, .error e) ∧
      e = .save ⟨"o.svg"⟩ (.writing ⟨"o.svg"⟩ noSpace) ∧
      fullFiles.node? ["o.svg"] = none ∧ after.node? ["o.svg"] = some (.file content) ∧
      ¬ (onePoint ⟨"o.svg"⟩).Atomic .standard fullFiles (after, .error e) := by
  obtain ⟨f, hf⟩ : ∃ f, (onePoint detour).Yields onePointFiles f :=
    yields_of_isSome (by decide +kernel)
  obtain ⟨g, hg⟩ : ∃ g, (onePoint ⟨"o.svg"⟩).Yields fullFiles g :=
    yields_of_isSome (by decide +kernel)
  constructor
  · -- the directory of the detour is not above the file
    refine ⟨_, _, build_of_yields hf .standard, rfl, rfl, rfl, ?_⟩
    intro hatomic
    have habove := hatomic.2 ["o.svg"] ["new"] rfl rfl rfl
    exact absurd habove (by decide)
  · -- the file is opened, which makes it, before the first byte is refused
    refine ⟨_, _, _, build_of_yields hg .standard, rfl, rfl, rfl, ?_⟩
    intro hatomic
    have hold := (hatomic.1 ["o.svg"] _).1 rfl
    cases hold

end FigureDescription

end LineChart
