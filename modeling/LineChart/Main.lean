import LineChart.Command.Arguments
import LineChart.Drawing.Pdf
import LineChart.Drawing.Svg
import LineChart.Figure.Building
import LineChart.Viewer.Window

/-!
# The command line

Reads the files that a command asks for, builds its figure and writes the drawing. Everything that
is decided is decided by `Command.ofArguments`, `Command.description` and `FigureDescription.build`.
-/

namespace LineChart.CommandLine

def versionText : String := "wfq-plot 0.1.0"

/-- The commands and their options. -/
def helpText : String :=
  let line (c : CommandName) : String :=
    "  " ++ c.name ++ String.join (c.options.map fun option => " --" ++ option.name)
  "\n".intercalate (["Plot scheduler measurement tables as line charts.", "", "Commands:"] ++
    CommandName.all.map line)

/-- Reads the file at a path into the files. A file that cannot be read is not there. -/
def readInto (files : Files) (path : Path) : IO Files := do
  try
    let content ← IO.FS.readBinFile path.text
    return (files.save path (.bytes content.toList)).1
  catch e =>
    match e with
    | .inappropriateType .. =>
      return (files.createDirectories (FileTree.origin path.isAbsolute) path.names.reverse).1
    | _ => return files

/-- The bytes that are written for the content of a file. -/
def encode : FileContent → List UInt8
  | .bytes content => content
  | .drawing .svg scene => scene.svg.toUTF8.toList
  | .drawing .pdf scene => scene.pdf
  | .columnar _ => []
  | .part content count => (encode content).take count

/-- Writes a file of the files to where they came from. -/
def writeFrom (files : Files) (path : Path) : IO Unit := do
  match files.openFile path with
  | .error e => throw (IO.userError e.message)
  | .ok content =>
    let (absolute, names) := path.parent
    if names ≠ [] then
      IO.FS.createDirAll ((if absolute then "/" else "") ++ "/".intercalate names)
    IO.FS.writeBinFile path.text ⟨(encode content).toArray⟩

/-- Reports an error. -/
def fail (code : UInt32) (message : String) : IO UInt32 := do
  IO.eprintln ("Error: " ++ message)
  return code

/-- The file that a command reads its description from. -/
def descriptionPath? : Command → Option Path
  | .render description .. => some description
  | _ => none

/-- Runs a command. Unless it is told not to, it reports the figure as the viewer's bar would. -/
def run (command : Command) : IO UInt32 := do
  let files ← (descriptionPath? command).toList.foldlM readInto .empty
  match command.description files with
  | .error e => fail 1 e.message
  | .ok d =>
    match d.build .standard (← readInto files d.input) with
    | (_, .error e) => fail 1 e.message
    | (files, .ok built) =>
      writeFrom files built.path
      if ¬ command.common.noShow then
        IO.println (", ".intercalate (Viewer.ofFigure built.figure (some built.path)).window.bar)
      return 0

/-- Answers what is wrong with the arguments, or what they ask for instead of a command. -/
def answerUsage (e : UsageError) : IO UInt32 := do
  match e with
  | .help => IO.println helpText; return 0
  | .version => IO.println versionText; return 0
  | .nothingGiven => IO.eprintln helpText; return 2
  | e => fail 2 e.message

end LineChart.CommandLine

def main (arguments : List String) : IO UInt32 :=
  match LineChart.Command.ofArguments arguments with
  | .error e => LineChart.CommandLine.answerUsage e
  | .ok command => LineChart.CommandLine.run command
