/-!
# File paths

A path is kept as the text it was given by. Its *parts* are the names between slashes; the empty
part behind a last slash and a last `.` still say that a directory is meant.

* `Path.names` : the parts that lead somewhere.
* `Path.fileName?`, `Path.extension` : the last name and what stands behind its last point.
* `Path.parent` : the path without its last name.
-/

namespace LineChart

/-- Cuts a text at a separator; a text without one is a single part. -/
def splitAt (separator : Char) : List Char → List (List Char)
  | [] => [[]]
  | c :: rest =>
    if c = separator then [] :: splitAt separator rest
    else
      match splitAt separator rest with
      | [] => [[c]]
      | part :: parts => (c :: part) :: parts

/-- A path by its text. -/
structure Path where
  text : String
deriving DecidableEq

namespace Path

/-- The texts between slashes. -/
def parts (p : Path) : List String := (splitAt '/' p.text.toList).map String.ofList

/-- The path starts at the root of all files. -/
def isAbsolute (p : Path) : Bool := p.text.toList.head? == some '/'

/-- The parts that name something: all but the empty ones and the points that stand for the
directory they are in. -/
def names (p : Path) : List String := p.parts.filter fun part => part ≠ "" && part ≠ "."

/-- The last name, unless it leads upwards. -/
def fileName? (p : Path) : Option String :=
  match p.names.getLast? with
  | some name => if name = ".." then none else some name
  | none => none

/-- What stands behind the last point of a name. A name that starts with its only point has no
extension. -/
def extensionOf (name : String) : String :=
  let parts := splitAt '.' name.toList
  match parts.getLast? with
  | some last =>
    if parts.length ≤ 1 ∨ parts.dropLast = [[]] then "" else String.ofList last
  | none => ""

/-- The extension of the last name with ASCII letters in lower case, empty if there is none. -/
def extension (p : Path) : String :=
  match p.fileName? with
  | some name => String.ofList ((extensionOf name).toList.map Char.toLower)
  | none => ""

/-- The path without its last name, as whether it is absolute and its names. -/
def parent (p : Path) : Bool × List String := (p.isAbsolute, p.names.dropLast)

end Path

end LineChart
