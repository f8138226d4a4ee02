import LineChart.Proofs.Files.Changes

/-!
# Files after saving

What is found at a path after a file was saved at the same path or at another one.

* `FileTree.openFile_eq_ok_iff` : the file at a path is the one at its location.
* `FileTree.ne_of_fileName_ne`, `FileTree.ne_of_extension_ne` : paths with different last names or
  extensions lead to different locations.
* `FileTree.openFile_save` : a file that was saved is at its path.
* `FileTree.openFile_save_of_ne` : a file with another name is what it was.
-/

namespace LineChart

/-- A path has an extension from its last name. -/
theorem Path.exists_fileName {p : Path} (h : p.extension ≠ "") :
    ∃ name, p.fileName? = some name ∧
      p.extension = .ofList ((extensionOf name).toList.map Char.toLower) := by
  rw [extension] at h ⊢
  cases hname : p.fileName? with
  | none =>
    rw [hname] at h
    exact absurd rfl h
  | some name => exact ⟨name, rfl, rfl⟩

/-- Paths with different extensions have different last names. -/
theorem Path.fileName_ne {p q : Path} (h : p.extension ≠ q.extension) :
    p.fileName? ≠ q.fileName? := by
  intro hname
  apply h
  rw [extension, extension, hname]

namespace FileTree

variable {α : Type} {t t' : FileTree α} {p q : Path} {place other : Location} {content : α}

/-! ### Locations -/

/-- **Paths with different last names lead to different locations**, also in different trees. -/
theorem ne_of_fileName_ne {name name' : String} (hp : p.fileName? = some name)
    (hq : q.fileName? = some name') (hne : name ≠ name') (hplace : t.locate p = .ok place)
    (hother : t'.locate q = .ok other) : place ≠ other := by
  rintro rfl
  have hlast := getLast?_of_locate hp hplace
  rw [getLast?_of_locate hq hother] at hlast
  exact hne (Option.some.inj hlast).symm

/-- **Paths with different extensions lead to different locations**, also in different trees. -/
theorem ne_of_extension_ne (hp : p.extension ≠ "") (hq : q.extension ≠ "")
    (hne : p.extension ≠ q.extension) (hplace : t.locate p = .ok place)
    (hother : t'.locate q = .ok other) : place ≠ other := by
  obtain ⟨name, hname, -⟩ := Path.exists_fileName hp
  obtain ⟨name', hname', -⟩ := Path.exists_fileName hq
  refine ne_of_fileName_ne hname hname' ?_ hplace hother
  rintro rfl
  exact Path.fileName_ne hne (hname.trans hname'.symm)

/-! ### Files -/

/-- The file at a path is the one at the location that the path leads to. -/
theorem openFile_eq_ok_iff :
    t.openFile p = .ok content ↔
      ∃ place, t.locate p = .ok place ∧ t.node? place = some (.file content) := by
  rw [openFile]
  cases hlocate : t.locate p with
  | error e => simp
  | ok place =>
    cases hnode : t.node? place with
    | none => simp [hnode]
    | some node => cases node <;> simp [hnode]

/-- A file is what it was if at most new directories came to its location. -/
theorem openFile_unchanged (hkeeps : t.KeepsDirectories t')
    (hway : ∀ place, t.locate p = .ok place → t.SameUpToWay t' q place)
    (hopen : t.openFile p = .ok content) : t'.openFile p = .ok content := by
  obtain ⟨place, hlocate, hnode⟩ := openFile_eq_ok_iff.1 hopen
  refine openFile_eq_ok_iff.2 ⟨place, locate_mono hkeeps hlocate, ?_⟩
  obtain hsame | ⟨hnone, -, -⟩ := hway place hlocate
  · rw [hsame, hnode]
  · rw [hnode] at hnone
    cases hnone

variable [Sequential α]

/-- Where a file was saved, all of it was written. -/
theorem written_of_save (h : t.save p content = (t', .ok ())) :
    ∃ place, t.Written t' p place content := by
  rcases save_changes h with ⟨-, e, he⟩ | ⟨place, written, hgets, hwritten⟩
  · cases he
  · cases hgets with
    | whole _ => exact ⟨place, hwritten⟩

/-- **A file that was saved is at its path.** -/
theorem openFile_save (h : t.save p content = (t', .ok ())) : t'.openFile p = .ok content := by
  obtain ⟨place, hwritten⟩ := written_of_save h
  exact openFile_eq_ok_iff.2 ⟨place, hwritten.located, hwritten.node⟩

/-- **A file with another name is what it was.** -/
theorem openFile_save_of_ne {name name' : String} {old : α} (hp : p.fileName? = some name)
    (hq : q.fileName? = some name') (hne : name ≠ name') (hopen : t.openFile p = .ok old)
    (h : t.save q content = (t', .ok ())) : t'.openFile p = .ok old := by
  obtain ⟨place, hwritten⟩ := written_of_save h
  have hway : ∀ other, t.locate p = .ok other → t.SameUpToWay t' q other := by
    intro other hother
    exact hwritten.elsewhere other (ne_of_fileName_ne hp hq hne hother hwritten.located)
  exact openFile_unchanged hwritten.keeps hway hopen

end FileTree

end LineChart
