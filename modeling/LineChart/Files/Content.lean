import LineChart.Drawing.Scene
import LineChart.Files.Tree
import LineChart.Table.Columnar

/-!
# Contents of files

A file holds plain bytes, a columnar table, or a saved drawing. Tables and drawings have encodings
of their own, none of which is read as text. A file whose writing broke off holds the first bytes of
such a content.

* `FileContent.bytes?`, `FileContent.text?` : the content as bytes and as text.
* `FileContent.front` : the first bytes of a content.
* `Files` : file trees with these contents.
-/

namespace LineChart

/-- The formats that drawings are saved in. -/
inductive DrawingFormat where
  | svg
  | pdf
deriving DecidableEq

/-- The extension that asks for a format. -/
def DrawingFormat.extension : DrawingFormat → String
  | svg => "svg"
  | pdf => "pdf"

inductive FileContent where
  | bytes (content : List UInt8)
  | columnar (file : Columnar.File)
  | drawing (format : DrawingFormat) (scene : Scene)
  /-- The first bytes of the encoding of a content. -/
  | part (content : FileContent) (count : Nat)

namespace FileContent

def ofText (text : String) : FileContent := .bytes text.toUTF8.toList

/-- The content as plain bytes. -/
def bytes? : FileContent → Option (List UInt8)
  | .bytes content => some content
  | _ => none

/-- The content as text. -/
def text? : FileContent → Option String
  | .bytes content => String.fromUTF8? ⟨content.toArray⟩
  | _ => none

/-- The first bytes of a content. -/
def front (count : Nat) : FileContent → FileContent
  | .bytes content => .bytes (content.take count)
  | content => .part content count

instance : Sequential FileContent := ⟨front⟩

end FileContent

/-- Files and directories. -/
abbrev Files := FileTree FileContent

namespace Files

/-- The text of the file at a path. -/
def readText (files : Files) (path : Path) : Except FileError String :=
  match files.openFile path with
  | .error e => .error e
  | .ok content =>
    match content.text? with
    | some text => .ok text
    | none => .error .notText

end Files

/-- A message with the task in front in which the error arose. An error without a message of its own
leaves the task alone. -/
def inContext (task message : String) : String :=
  if message = "" then task else task ++ ": " ++ message

end LineChart
