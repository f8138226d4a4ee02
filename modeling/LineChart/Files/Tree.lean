import LineChart.Files.Path

/-!
# File trees

A `FileTree` holds all files and directories that a program can see, by location. A location is the
list of names that leads from the working directory to it; a location outside the working directory
starts with `..` or, if it was reached from the root, with `/`. The tree also tells where the system
stops what its files and directories would allow.

* `Faults` : the locations at which nothing can be made, or the writing of a file breaks off.
* `FileTree.locate` : the location that a path leads to, every directory on the way being there.
* `FileTree.openFile` : the file at a path.
* `FileTree.createDirectories` : a directory with all its missing ancestors.
* `FileTree.write` : a file at a path, in a directory that is there.
* `FileTree.save` : a file at a path, with all missing directories around it.

The outcome of every change is a new tree, so what a change touches can be read off the two trees. A
change of several steps gives its tree also when it fails: a directory that was made before stays,
and so does a file that was opened, which has lost what it held before.
-/

namespace LineChart

/-- The ways in which access to a file fails. -/
inductive FileError where
  | notFound
  | isDirectory
  | notDirectory
  | alreadyExists
  | notText
  /-- A reason of the system's own, such as a full device, with its number. -/
  | system (reason : String) (code : Nat)
deriving DecidableEq

namespace FileError

def message : FileError → String
  | notFound => "No such file or directory (os error 2)"
  | isDirectory => "Is a directory (os error 21)"
  | notDirectory => "Not a directory (os error 20)"
  | alreadyExists => "File exists (os error 17)"
  | notText => "stream did not contain valid UTF-8"
  | system reason code => s!"{reason} (os error {code})"

end FileError

/-- The names that lead to a place from the working directory. -/
abbrev Location := List String

inductive FileNode (α : Type) where
  | file (content : α)
  | directory

/-- Where the system stops what a tree would allow: a device is full or damaged, or the program has
no right to it. -/
structure Faults where
  /-- Why no directory is made at a location, and no file opened there to be written. -/
  refused : Location → Option FileError := fun _ => none
  /-- How many bytes get into a file at a location before the writing of it breaks off, and why it
  does. -/
  broken : Location → Option (Nat × FileError) := fun _ => none

/-- The files and directories by location, each at most once. -/
structure FileTree (α : Type) where
  entries : List (Location × FileNode α)
  faults : Faults := {}

/-- Contents of files that are written from front to back. -/
class Sequential (α : Type) where
  /-- What a file holds when some bytes of a content have been written. -/
  front : Nat → α → α

namespace FileTree

variable {α : Type}

def empty : FileTree α := { entries := [] }

/-- The working directory, those above it and the root, which are always there. -/
def isFixed (place : Location) : Bool :=
  place.all (· == "..") || place == ["/"]

/-- What is at a location. -/
def node? (t : FileTree α) (place : Location) : Option (FileNode α) :=
  if isFixed place then some .directory
  else
    match t.entries.find? fun entry => entry.1 = place with
    | some entry => some entry.2
    | none => none

/-- Puts something at a location, in place of what was there. -/
def put (t : FileTree α) (place : Location) (node : FileNode α) : FileTree α :=
  if t.entries.any fun entry => entry.1 = place then
    { t with entries := t.entries.map fun entry =>
        if entry.1 = place then (place, node) else entry }
  else { t with entries := t.entries ++ [(place, node)] }

/-- The location above another one. -/
def above (place : Location) : Location :=
  if place = ["/"] then place
  else if place.all (· == "..") then place ++ [".."]
  else place.dropLast

/-- The place from which a path is followed. -/
def origin (absolute : Bool) : Location := if absolute then ["/"] else []

/-- Follows some parts of a path. Each part is looked up in a directory; the empty part and the
point stay there, and two points lead upwards. -/
def follow (t : FileTree α) : Location → List String → Except FileError Location
  | place, [] => .ok place
  | place, part :: rest =>
    match t.node? place with
    | none => .error .notFound
    | some (.file _) => .error .notDirectory
    | some .directory =>
      if part = "" ∨ part = "." then follow t place rest
      else if part = ".." then follow t (above place) rest
      else follow t (place ++ [part]) rest

/-- The location that a path leads to. The empty path leads nowhere. -/
def locate (t : FileTree α) (p : Path) : Except FileError Location :=
  if p.text = "" then .error .notFound else t.follow (origin p.isAbsolute) p.parts

/-- The file at a path. -/
def openFile (t : FileTree α) (p : Path) : Except FileError α :=
  match t.locate p with
  | .error e => .error e
  | .ok place =>
    match t.node? place with
    | none => .error .notFound
    | some .directory => .error .isDirectory
    | some (.file content) => .ok content

/-- Makes one directory, in a directory that is there. -/
def createDirectory (t : FileTree α) (start : Location) (names : List String) :
    Except FileError (FileTree α) :=
  match t.follow start names with
  | .error e => .error e
  | .ok place =>
    match t.node? place with
    | some _ => .error .alreadyExists
    | none =>
      match t.node? place.dropLast with
      | none => .error .notFound
      | some (.file _) => .error .notDirectory
      | some .directory =>
        match t.faults.refused place with
        | some e => .error e
        | none => .ok (t.put place .directory)

/-- There is a directory at the end of some names. -/
def isDirectory (t : FileTree α) (start : Location) (names : List String) : Bool :=
  match t.follow start names with
  | .error _ => false
  | .ok place =>
    match t.node? place with
    | some .directory => true
    | _ => false

/-- Makes one directory or finds it there. -/
def ensureDirectory (t : FileTree α) (start : Location) (names : List String) :
    Except FileError (FileTree α) :=
  match t.createDirectory start names with
  | .ok t => .ok t
  | .error e => if t.isDirectory start names then .ok t else .error e

/-- Makes one directory and before it all missing ones on the way, the names being given in reverse.
Ancestors are made only if the directory itself cannot be for want of them. What was made before an
error stays. -/
def createDirectories (t : FileTree α) (start : Location) :
    List String → FileTree α × Except FileError Unit
  | [] => (t, .ok ())
  | last :: ancestors =>
    let names := (last :: ancestors).reverse
    match t.ensureDirectory start names with
    | .ok t => (t, .ok ())
    | .error .notFound =>
      match createDirectories t start ancestors with
      | (t, .error e) => (t, .error e)
      | (t, .ok ()) =>
        match t.ensureDirectory start names with
        | .ok t => (t, .ok ())
        | .error e => (t, .error e)
    | .error e => (t, .error e)

/-- The location at which a path would have a file written, the directory around it being there. -/
def locateNew (t : FileTree α) (p : Path) : Except FileError Location :=
  if p.text = "" then .error .notFound
  else
    let parts := p.parts
    let last := parts.getLast?.getD ""
    if last = "." ∨ last = ".." then
      match t.follow (origin p.isAbsolute) parts with
      | .error e => .error e
      | .ok place => match t.node? place with
        | none => .error .notFound
        | some (.file _) => .error .notDirectory
        | some .directory => .error .isDirectory
    else
      let names := (parts.reverse.dropWhile (· = "")).reverse
      match t.follow (origin p.isAbsolute) names with
      | .error e => .error e
      | .ok place => if last = "" then .error .isDirectory else .ok place

/-- Opens a file at a location and writes it. Opening makes the file, or empties the one that is
there. If the writing breaks off then, the file stays with what was written of it. -/
def writeAt [Sequential α] (t : FileTree α) (place : Location) (content : α) :
    FileTree α × Except FileError Unit :=
  match t.faults.refused place with
  | some e => (t, .error e)
  | none =>
    match t.faults.broken place with
    | some (count, e) => (t.put place (.file (Sequential.front count content)), .error e)
    | none => (t.put place (.file content), .ok ())

/-- Writes a file at a path, over a file that is there. -/
def write [Sequential α] (t : FileTree α) (p : Path) (content : α) :
    FileTree α × Except FileError Unit :=
  match t.locateNew p with
  | .error e => (t, .error e)
  | .ok place =>
    match t.node? place with
    | some .directory => (t, .error .isDirectory)
    | some (.file _) => t.writeAt place content
    | none =>
      match t.node? place.dropLast with
      | none => (t, .error .notFound)
      | some (.file _) => (t, .error .notDirectory)
      | some .directory => t.writeAt place content

/-- Writes a file and before it all missing directories around it. The directories stay if the file
cannot be written. -/
def save [Sequential α] (t : FileTree α) (p : Path) (content : α) :
    FileTree α × Except FileError Unit :=
  let (absolute, names) := p.parent
  match t.createDirectories (origin absolute) names.reverse with
  | (t, .error e) => (t, .error e)
  | (t, .ok ()) => t.write p content

/-- The locations and contents of all files. -/
def files (t : FileTree α) : List (Location × α) :=
  t.entries.filterMap fun entry => match entry.2 with
    | .file content => some (entry.1, content)
    | .directory => none

end FileTree

end LineChart
