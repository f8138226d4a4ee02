import LineChart.Files.Tree

/-!
# What changes in a file tree

Saving a file changes the tree at one location, and puts directories where nothing was, on the way
to it. Everything else stays, also if saving fails. A file whose writing breaks off is changed all the
same.

* `FileTree.node?_put` : a change at a location changes nothing at another one.
* `FileTree.follow_mono` : a path leads to the same location as long as every directory stays.
* `FileTree.getLast?_of_locate` : a path leads to a location that ends in its last name.
* `FileTree.MakesWay` : the change of a tree by some new directories on the way to a location.
* `FileTree.Passes.isPrefix` : what a path passes is above the location that it leads to.
* `FileTree.Gets` : what gets into a file that is written, with the outcome.
* `FileTree.save_changes` : what saving changes, with its outcome.
-/

namespace LineChart.FileTree

variable {α : Type} {t t' t'' : FileTree α} {place other start : Location} {node : FileNode α}

/-! ### One location -/

theorem node?_of_isFixed (h : isFixed place = true) : t.node? place = some .directory := if_pos h

theorem isFixed_of_node?_ne (h : t.node? place ≠ some .directory) : isFixed place = false := by
  rw [← Bool.not_eq_true]
  intro hfixed
  exact h (node?_of_isFixed hfixed)

/-- What is at a location that is not fixed is found among the entries. -/
theorem node?_of_not_isFixed (h : isFixed place = false) :
    t.node? place = (t.entries.find? fun entry => entry.1 = place).map Prod.snd := by
  rw [node?, h, if_neg (by decide)]
  cases t.entries.find? fun entry => entry.1 = place <;> rfl

theorem find?_put (t : FileTree α) (place : Location) (node : FileNode α) (other : Location) :
    ((t.put place node).entries.find? fun entry => entry.1 = other).map Prod.snd =
      if other = place then some node
      else (t.entries.find? fun entry => entry.1 = other).map Prod.snd := by
  rw [put]
  by_cases hany : (t.entries.any fun entry => entry.1 = place) = true
  · -- the entry is replaced where it stands, so that entries keep their locations
    have hkeys : ((fun entry => decide (entry.1 = other)) ∘ fun entry : Location × FileNode α =>
        if entry.1 = place then (place, node) else entry) =
          fun entry => decide (entry.1 = other) := by
      funext entry
      by_cases hentry : entry.1 = place <;> simp [hentry]
    rw [if_pos hany, List.find?_map, hkeys]
    by_cases hother : other = place
    · subst hother
      obtain ⟨found, hfound⟩ :=
        Option.isSome_iff_exists.1 (List.find?_isSome.2 (List.any_eq_true.1 hany))
      have hplace : found.1 = other := by simpa using List.find?_some hfound
      rw [hfound, if_pos rfl, Option.map_some, Option.map_some, if_pos hplace]
    · rw [if_neg hother]
      cases hfound : t.entries.find? fun entry => entry.1 = other with
      | none => rfl
      | some found =>
        have hplace : found.1 = other := by simpa using List.find?_some hfound
        have hne : found.1 ≠ place := by rw [hplace]; exact hother
        rw [Option.map_some, Option.map_some, if_neg hne]
        rfl
  · rw [if_neg hany, List.find?_append]
    by_cases hother : other = place
    · subst hother
      have hnone : (t.entries.find? fun entry => entry.1 = other) = none := by
        rw [List.find?_eq_none]
        intro entry hentry hplace
        exact hany (List.any_eq_true.2 ⟨entry, hentry, hplace⟩)
      simp [hnone]
    · have hnone : ([(place, node)].find? fun entry => entry.1 = other) = none := by
        simpa using Ne.symm hother
      rw [hnone, Option.or_none, if_neg hother]

/-- **A change at a location changes nothing at another one.** -/
theorem node?_put (h : isFixed place = false) (other : Location) :
    (t.put place node).node? other = if other = place then some node else t.node? other := by
  by_cases hother : isFixed other = true
  · have hne : other ≠ place := by
      rintro rfl
      rw [h] at hother
      cases hother
    rw [if_neg hne, node?_of_isFixed hother, node?_of_isFixed hother]
  · rw [Bool.not_eq_true] at hother
    rw [node?_of_not_isFixed hother, node?_of_not_isFixed hother, find?_put]

/-- A change at a location is none of what the system stops. -/
theorem faults_put (t : FileTree α) (place : Location) (node : FileNode α) :
    (t.put place node).faults = t.faults := by
  rw [put]
  split <;> rfl

/-! ### Paths -/

/-- Every directory of a tree is a directory of another one. -/
def KeepsDirectories (t t' : FileTree α) : Prop :=
  ∀ place, t.node? place = some .directory → t'.node? place = some .directory

/-- Changes where nothing was keep the directories. -/
theorem keepsDirectories_of_new
    (h : ∀ place, t'.node? place = t.node? place ∨ t.node? place = none) :
    t.KeepsDirectories t' := by
  intro place hplace
  rcases h place with hsame | hnone
  · rw [hsame, hplace]
  · rw [hnone] at hplace
    cases hplace

/-- A change at a location without a directory keeps the directories. -/
theorem keepsDirectories_put (h : t.node? place ≠ some .directory) (node : FileNode α) :
    t.KeepsDirectories (t.put place node) := by
  intro other hother
  have hne : other ≠ place := by
    rintro rfl
    exact h hother
  rw [node?_put (isFixed_of_node?_ne h), if_neg hne, hother]

theorem follow_cons_eq_ok_iff {part : String} {rest : List String} :
    t.follow start (part :: rest) = .ok place ↔ t.node? start = some .directory ∧
      t.follow (if part = "" ∨ part = "." then start
        else if part = ".." then above start else start ++ [part]) rest = .ok place := by
  rw [follow]
  cases t.node? start with
  | none => simp
  | some node =>
    cases node with
    | file content => simp
    | directory =>
      by_cases hstay : part = "" ∨ part = "."
      · simp only [if_pos hstay, true_and]
      · simp only [if_neg hstay, true_and]
        by_cases hup : part = ".."
        · rw [if_pos hup, if_pos hup]
        · rw [if_neg hup, if_neg hup]

/-- **A path leads to the same location as long as every directory stays.** -/
theorem follow_mono (h : t.KeepsDirectories t') {parts : List String}
    (hfollow : t.follow start parts = .ok place) : t'.follow start parts = .ok place := by
  induction parts generalizing start with
  | nil => exact hfollow
  | cons part rest ih =>
    obtain ⟨hstart, hrest⟩ := follow_cons_eq_ok_iff.1 hfollow
    exact follow_cons_eq_ok_iff.2 ⟨h start hstart, ih hrest⟩

theorem locate_mono (h : t.KeepsDirectories t') {p : Path} (hlocate : t.locate p = .ok place) :
    t'.locate p = .ok place := by
  rw [locate] at hlocate ⊢
  split at hlocate
  · cases hlocate
  · next hne =>
    rw [if_neg hne]
    exact follow_mono h hlocate

theorem follow_append_eq_ok_iff {front rest : List String} :
    t.follow start (front ++ rest) = .ok place ↔
      ∃ middle, t.follow start front = .ok middle ∧ t.follow middle rest = .ok place := by
  induction front generalizing start with
  | nil => simp [follow]
  | cons part front ih =>
    simp only [List.cons_append, follow_cons_eq_ok_iff, ih]
    constructor
    · intro h
      obtain ⟨hstart, middle, hfront, hrest⟩ := h
      exact ⟨middle, ⟨hstart, hfront⟩, hrest⟩
    · intro h
      obtain ⟨middle, ⟨hstart, hfront⟩, hrest⟩ := h
      exact ⟨hstart, middle, hfront, hrest⟩

/-- Parts that stay where they are lead nowhere else. -/
theorem eq_of_follow_blank {parts : List String} (hparts : ∀ part ∈ parts, part = "" ∨ part = ".")
    (h : t.follow start parts = .ok place) : place = start := by
  induction parts with
  | nil => exact (Except.ok.inj h).symm
  | cons part rest ih =>
    obtain ⟨hpart, hrest⟩ := List.forall_mem_cons.1 hparts
    obtain ⟨-, hfollow⟩ := follow_cons_eq_ok_iff.1 h
    rw [if_pos hpart] at hfollow
    exact ih hrest hfollow

/-- Parts that never lead upwards lead to the location that their names make up. -/
theorem eq_of_follow_down {parts : List String} (hparts : ".." ∉ parts)
    (h : t.follow start parts = .ok place) :
    place = start ++ parts.filter fun part => part ≠ "" && part ≠ "." := by
  induction parts generalizing start with
  | nil =>
    rw [List.filter_nil, List.append_nil]
    exact (Except.ok.inj h).symm
  | cons part rest ih =>
    obtain ⟨hup, hrest⟩ := not_or.1 (mt List.mem_cons.2 hparts)
    obtain ⟨-, hfollow⟩ := follow_cons_eq_ok_iff.1 h
    by_cases hstay : part = "" ∨ part = "."
    · rw [if_pos hstay] at hfollow
      rw [ih hrest hfollow, List.filter_cons_of_neg (by rcases hstay with rfl | rfl <;> decide)]
    · rw [if_neg hstay, if_neg (Ne.symm hup)] at hfollow
      rw [ih hrest hfollow, List.filter_cons_of_pos (by simpa using hstay), List.append_assoc,
        List.singleton_append]

/-- The last name of a path, and the blank parts behind it. -/
theorem exists_parts_of_fileName {p : Path} {name : String} (h : p.fileName? = some name) :
    ∃ front blanks, p.parts = front ++ name :: blanks ∧ (∀ part ∈ blanks, part = "" ∨ part = ".") ∧
      name ≠ "" ∧ name ≠ "." ∧ name ≠ ".." := by
  rw [Path.fileName?] at h
  cases hlast : p.names.getLast? with
  | none =>
    rw [hlast] at h
    cases h
  | some last =>
    simp only [hlast] at h
    split at h
    · cases h
    · next hup =>
      obtain rfl := Option.some.inj h
      rw [Path.names, List.getLast?_eq_head?_reverse, ← List.filter_reverse, List.head?_filter,
        List.find?_eq_some_iff_append] at hlast
      obtain ⟨hname, blanks, front, hparts, hblanks⟩ := hlast
      refine ⟨front.reverse, blanks.reverse, ?_, ?_, ?_⟩
      · rw [← List.reverse_reverse p.parts, hparts]
        simp
      · intro part hpart
        have hblank := hblanks part (List.mem_reverse.1 hpart)
        by_cases hempty : part = ""
        · exact .inl hempty
        · exact .inr (by simpa [hempty] using hblank)
      · simp only [Bool.and_eq_true, decide_eq_true_eq] at hname
        exact ⟨hname.1, hname.2, hup⟩

/-- **A path leads to a location that ends in its last name.** -/
theorem getLast?_of_locate {p : Path} {name : String} (hname : p.fileName? = some name)
    (h : t.locate p = .ok place) : place.getLast? = some name := by
  obtain ⟨front, blanks, hparts, hblanks, hempty, hpoint, hup⟩ := exists_parts_of_fileName hname
  rw [locate] at h
  split at h
  · cases h
  · rw [hparts, follow_append_eq_ok_iff] at h
    obtain ⟨middle, -, hrest⟩ := h
    obtain ⟨-, hblank⟩ := follow_cons_eq_ok_iff.1 hrest
    rw [if_neg (by simp [hempty, hpoint]), if_neg hup] at hblank
    rw [eq_of_follow_blank hblanks hblank]
    simp

/-! ### Directories on the way -/

/-- The change from one tree to another by some directories, where nothing was before, to which a
front part of some names leads. -/
structure MakesWay (t t' : FileTree α) (start : Location) (names : List String) : Prop where
  faults : t'.faults = t.faults
  nodes : ∀ place, t'.node? place = t.node? place ∨
    (t.node? place = none ∧ t'.node? place = some .directory ∧
      ∃ front, front <+: names ∧ t'.follow start front = .ok place)

theorem MakesWay.refl (t : FileTree α) (start : Location) (names : List String) :
    t.MakesWay t start names := ⟨rfl, fun _ => .inl rfl⟩

theorem MakesWay.keepsDirectories {names : List String} (h : t.MakesWay t' start names) :
    t.KeepsDirectories t' := keepsDirectories_of_new fun place => (h.nodes place).imp_right And.left

/-- New directories on the way to an ancestor are on the way to the names themselves. -/
theorem MakesWay.trans {names names' : List String} (h : t.MakesWay t' start names)
    (h' : t'.MakesWay t'' start names') (hnames : names <+: names') :
    t.MakesWay t'' start names' := by
  refine ⟨h'.faults.trans h.faults, ?_⟩
  intro place
  rcases h.nodes place with hsame | ⟨hnone, hdirectory, front, hfront, hfollow⟩
  · rw [← hsame]
    exact h'.nodes place
  · refine .inr ⟨hnone, h'.keepsDirectories place hdirectory, front, hfront.trans hnames, ?_⟩
    exact follow_mono h'.keepsDirectories hfollow

/-- A directory put where some names lead. -/
theorem makesWay_put {names : List String} (hfollow : t.follow start names = .ok place)
    (hnone : t.node? place = none) : t.MakesWay (t.put place .directory) start names := by
  have hne : t.node? place ≠ some .directory := by rw [hnone]; simp
  have hkeeps := keepsDirectories_put hne .directory
  refine ⟨faults_put t place .directory, ?_⟩
  intro other
  rw [node?_put (isFixed_of_node?_ne hne)]
  by_cases hother : other = place
  · subst hother
    rw [if_pos rfl]
    exact .inr ⟨hnone, rfl, names, List.prefix_refl names, follow_mono hkeeps hfollow⟩
  · rw [if_neg hother]
    exact .inl rfl

theorem createDirectory_eq_ok {names : List String} (h : t.createDirectory start names = .ok t') :
    ∃ place, t.follow start names = .ok place ∧ t.node? place = none ∧
      t' = t.put place .directory := by
  rw [createDirectory] at h
  cases hfollow : t.follow start names with
  | error e =>
    rw [hfollow] at h
    cases h
  | ok place =>
    simp only [hfollow] at h
    cases hnode : t.node? place with
    | some node =>
      simp only [hnode] at h
      cases h
    | none =>
      simp only [hnode] at h
      refine ⟨place, rfl, hnode, ?_⟩
      split at h
      · cases h
      · cases h
      · split at h
        · cases h
        · exact (Except.ok.inj h).symm

theorem ensureDirectory_makesWay {names : List String}
    (h : t.ensureDirectory start names = .ok t') : t.MakesWay t' start names := by
  rw [ensureDirectory] at h
  cases hcreate : t.createDirectory start names with
  | ok made =>
    simp only [hcreate] at h
    obtain rfl := Except.ok.inj h
    obtain ⟨place, hfollow, hnone, rfl⟩ := createDirectory_eq_ok hcreate
    exact makesWay_put hfollow hnone
  | error e =>
    simp only [hcreate] at h
    split at h
    · obtain rfl := Except.ok.inj h
      exact .refl _ _ _
    · cases h

/-- **Making directories changes nothing but the way**, and leaves what it made if it fails. -/
theorem createDirectories_makesWay (t : FileTree α) (start : Location) (reversed : List String) :
    t.MakesWay (t.createDirectories start reversed).1 start reversed.reverse := by
  induction reversed with
  | nil => exact .refl _ _ _
  | cons last ancestors ih =>
    have hancestors : ancestors.reverse <+: (last :: ancestors).reverse := by
      rw [List.reverse_cons]
      exact List.prefix_append _ _
    rw [createDirectories]
    split
    · next hensure => exact ensureDirectory_makesWay hensure
    · -- the directories above are made first
      split
      · next hmade =>
        rw [hmade] at ih
        exact ih.trans (.refl _ _ _) hancestors
      · next hmade =>
        rw [hmade] at ih
        split
        · next hensure => exact ih.trans (ensureDirectory_makesWay hensure) hancestors
        · exact ih.trans (.refl _ _ _) hancestors
    · exact .refl _ _ _

/-! ### Files -/

/-- There are no blank parts to drop at the end if the last part is not blank. -/
theorem dropWhile_blank_of_getLast {parts : List String} (h : ¬ parts.getLast?.getD "" = "") :
    (parts.reverse.dropWhile (· = "")).reverse = parts := by
  rw [List.getLast?_eq_head?_reverse] at h
  cases hreverse : parts.reverse with
  | nil =>
    rw [hreverse] at h
    exact absurd rfl h
  | cons last front =>
    rw [hreverse] at h
    rw [List.dropWhile_cons_of_neg (by simpa using h), ← hreverse, List.reverse_reverse]

/-- A file that can be written has a location, which its path leads to. -/
theorem locate_of_locateNew {p : Path} (h : t.locateNew p = .ok place) :
    t.locate p = .ok place := by
  rw [locateNew] at h
  split at h
  · cases h
  · next hne =>
    rw [locate, if_neg hne]
    dsimp only at h
    split at h
    · -- a last point or two lead to a directory or to nothing
      split at h
      · cases h
      · split at h <;> cases h
    · split at h
      · cases h
      · next hlast _ found hfollow =>
        split at h
        · cases h
        · next hnotEmpty =>
          obtain rfl := Except.ok.inj h
          rw [dropWhile_blank_of_getLast hnotEmpty] at hfollow
          exact hfollow

/-- The names in front of the last one of a path lead to a location. -/
def Passes (t : FileTree α) (p : Path) (place : Location) : Prop :=
  ∃ front, front <+: p.names.dropLast ∧ t.follow (origin p.isAbsolute) front = .ok place

/-- **A location that a path passes is above the one it leads to**, if no name leads upwards. -/
theorem Passes.isPrefix {p : Path} (h : t.Passes p other) (hup : ".." ∉ p.names)
    (hlocate : t'.locate p = .ok place) : other <+: place := by
  obtain ⟨front, hdropLast, hfollow⟩ := h
  have hfront : front <+: p.names := hdropLast.trans (List.dropLast_prefix _)
  have hnames : ∀ name ∈ p.names, (name ≠ "" && name ≠ ".") = true := by
    intro name hname
    exact (List.mem_filter.1 hname).2
  have hparts : ".." ∉ p.parts := by
    intro hmem
    exact hup (List.mem_filter.2 ⟨hmem, by decide⟩)
  have hplace : place = origin p.isAbsolute ++ p.names := by
    rw [locate] at hlocate
    split at hlocate
    · cases hlocate
    · exact eq_of_follow_down hparts hlocate
  have hother : other = origin p.isAbsolute ++ front := by
    rw [eq_of_follow_down (fun hmem => hup (hfront.subset hmem)) hfollow,
      List.filter_eq_self.2 fun name hname => hnames name (hfront.subset hname)]
  rw [hplace, hother]
  exact (List.prefix_append_right_inj _).2 hfront

/-- What saving a file at a path may change besides the file: where nothing was, there may be a
directory that the path passes. -/
def SameUpToWay (t t' : FileTree α) (p : Path) (place : Location) : Prop :=
  t'.node? place = t.node? place ∨
    (t.node? place = none ∧ t'.node? place = some .directory ∧ t'.Passes p place)

theorem MakesWay.sameUpToWay {p : Path}
    (h : t.MakesWay t' (origin p.isAbsolute) p.names.dropLast) (place : Location) :
    t.SameUpToWay t' p place := h.nodes place

/-! ### Writing -/

/-- The change from one tree to another by a file at the location that a path leads to, and by some
directories on the way. -/
structure Written (t t' : FileTree α) (p : Path) (place : Location) (content : α) : Prop where
  located : t'.locate p = .ok place
  node : t'.node? place = some (.file content)
  keeps : t.KeepsDirectories t'
  elsewhere : ∀ other, other ≠ place → t.SameUpToWay t' p other

/-- Directories are made first, and the file is put where no directory is. -/
theorem MakesWay.written_put {p : Path} (h : t.MakesWay t' (origin p.isAbsolute) p.names.dropLast)
    (hlocate : t'.locate p = .ok place) (hnode : t'.node? place ≠ some .directory) (content : α) :
    t.Written (t'.put place (.file content)) p place content := by
  have hkeeps := keepsDirectories_put hnode (.file content)
  have hput : ∀ other, (t'.put place (.file content)).node? other =
      if other = place then some (.file content) else t'.node? other :=
    node?_put (isFixed_of_node?_ne hnode)
  refine ⟨locate_mono hkeeps hlocate, ?_, ?_, ?_⟩
  · rw [hput, if_pos rfl]
  · exact fun other hother => hkeeps other (h.keepsDirectories other hother)
  · intro other hother
    have hsame : (t'.put place (.file content)).node? other = t'.node? other := by
      rw [hput, if_neg hother]
    rcases h.nodes other with hother' | ⟨hnone, hdirectory, front, hfront, hfollow⟩
    · exact .inl (hsame.trans hother')
    · exact .inr ⟨hnone, hsame.trans hdirectory, front, hfront, follow_mono hkeeps hfollow⟩

variable [Sequential α] {content : α} {outcome : Except FileError Unit}

/-- What gets into a file at a location when a content is written there, with the outcome: all of it,
or what was written before the writing broke off. -/
inductive Gets (t : FileTree α) (place : Location) (content : α) :
    α → Except FileError Unit → Prop
  | whole (h : t.faults.broken place = none) : Gets t place content content (.ok ())
  | front {count : Nat} {e : FileError} (h : t.faults.broken place = some (count, e)) :
      Gets t place content (Sequential.front count content) (.error e)

theorem writeAt_cases (h : t.writeAt place content = (t', outcome)) :
    (t' = t ∧ ∃ e, outcome = .error e) ∨
      ∃ written, t.Gets place content written outcome ∧ t' = t.put place (.file written) := by
  rw [writeAt] at h
  split at h
  · next e _ =>
    obtain ⟨rfl, rfl⟩ := Prod.mk.inj h
    exact .inl ⟨rfl, e, rfl⟩
  · split at h
    · next hbroken =>
      obtain ⟨rfl, rfl⟩ := Prod.mk.inj h
      exact .inr ⟨_, .front hbroken, rfl⟩
    · next hbroken =>
      obtain ⟨rfl, rfl⟩ := Prod.mk.inj h
      exact .inr ⟨content, .whole hbroken, rfl⟩

/-- A file that cannot be opened changes nothing. One that is opened is at the location that the path
leads to. -/
theorem write_cases {p : Path} (h : t.write p content = (t', outcome)) :
    (t' = t ∧ ∃ e, outcome = .error e) ∨
      ∃ place, t.locate p = .ok place ∧ t.node? place ≠ some .directory ∧
        t.writeAt place content = (t', outcome) := by
  rw [write] at h
  cases hlocate : t.locateNew p with
  | error e =>
    rw [hlocate] at h
    obtain ⟨rfl, rfl⟩ := Prod.mk.inj h
    exact .inl ⟨rfl, e, rfl⟩
  | ok place =>
    simp only [hlocate] at h
    have hplace := locate_of_locateNew hlocate
    cases hnode : t.node? place with
    | none =>
      simp only [hnode] at h
      split at h
      · obtain ⟨rfl, rfl⟩ := Prod.mk.inj h
        exact .inl ⟨rfl, _, rfl⟩
      · obtain ⟨rfl, rfl⟩ := Prod.mk.inj h
        exact .inl ⟨rfl, _, rfl⟩
      · exact .inr ⟨place, hplace, by simp [hnode], h⟩
    | some node =>
      cases node with
      | directory =>
        simp only [hnode] at h
        obtain ⟨rfl, rfl⟩ := Prod.mk.inj h
        exact .inl ⟨rfl, _, rfl⟩
      | file old =>
        simp only [hnode] at h
        exact .inr ⟨place, hplace, by simp [hnode], h⟩

/-- **What saving changes.** Either no file is opened, and there are at most new directories on the
way, which is a failure; or the file that the path leads to holds what got into it, whether or not
that is all, and elsewhere there are at most new directories on the way. -/
theorem save_changes {p : Path} (h : t.save p content = (t', outcome)) :
    ((∀ place, t.SameUpToWay t' p place) ∧ ∃ e, outcome = .error e) ∨
      ∃ place written, t.Gets place content written outcome ∧ t.Written t' p place written := by
  have hway := createDirectories_makesWay t (origin p.isAbsolute) p.names.dropLast.reverse
  rw [List.reverse_reverse] at hway
  have hparent : p.parent = (p.isAbsolute, p.names.dropLast) := rfl
  rw [save, hparent] at h
  dsimp only at h
  split at h
  · -- the directories that were made before the failure stay
    next made e hmade =>
    obtain ⟨rfl, rfl⟩ := Prod.mk.inj h
    rw [hmade] at hway
    exact .inl ⟨hway.sameUpToWay, e, rfl⟩
  · next made hmade =>
    rw [hmade] at hway
    rcases write_cases h with ⟨rfl, hfailed⟩ | ⟨place, hlocate, hnode, hwrite⟩
    · exact .inl ⟨hway.sameUpToWay, hfailed⟩
    · rcases writeAt_cases hwrite with ⟨rfl, hfailed⟩ | ⟨written, hgets, rfl⟩
      · exact .inl ⟨hway.sameUpToWay, hfailed⟩
      · -- the file is written in the tree with the new directories, where the same is stopped
        refine .inr ⟨place, written, ?_, hway.written_put hlocate hnode written⟩
        cases hgets with
        | whole hbroken => exact .whole (hway.faults ▸ hbroken)
        | front hbroken => exact .front (hway.faults ▸ hbroken)

end LineChart.FileTree
