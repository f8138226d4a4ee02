import LineChart.Description.Fields
import LineChart.Files.Content

/-!
# Loading figure descriptions

A description is written in TOML or JSON, as the extension of its file says. One that is loaded has
passed its check.

* `FigureDescription.load` : the description in a file.
-/

namespace LineChart

/-- What can go wrong while a description is loaded. -/
inductive DescriptionLoadError where
  | reading (path : Path) (e : FileError)
  | unknownExtension (extension : String)
  | notToml
  | notJson
  | description (e : DescriptionError)
deriving DecidableEq

namespace DescriptionLoadError

def message : DescriptionLoadError → String
  | reading path e => inContext ("reading figure spec " ++ path.text) e.message
  | unknownExtension extension => s!"Unsupported figure spec extension: .{extension}"
  | notToml => "parsing TOML figure spec"
  | notJson => "parsing JSON figure spec"
  | description e => e.message

end DescriptionLoadError

namespace FigureDescription

/-- The description in a text of the language that an extension stands for. -/
def ofText (extension text : String) : Except DescriptionLoadError FigureDescription :=
  if extension = "toml" then
    match ofToml? text with
    | some d => .ok d
    | none => .error .notToml
  else if extension = "json" then
    match ofJson? text with
    | some d => .ok d
    | none => .error .notJson
  else .error (.unknownExtension extension)

/-- The description in a file. The file is read before its extension is looked at. -/
def load (files : Files) (path : Path) : Except DescriptionLoadError FigureDescription :=
  match files.readText path with
  | .error e => .error (.reading path e)
  | .ok text =>
    match ofText path.extension text with
    | .error e => .error e
    | .ok d =>
      match d.check with
      | .error e => .error (.description e)
      | .ok () => .ok d

end FigureDescription

end LineChart
