import LineChart.Drawing.Legend
import LineChart.Files.Content

/-!
# Saving figures

A figure is drawn and saved as SVG, or as a PDF page made of that. An SVG text may hold any
character, but a page is made only of characters that an XML document can hold. Other libraries draw,
read the drawing back and make the page, and each of them can refuse its task.

* `Renderer` : what these libraries refuse.
* `Renderer.standard` : a renderer that refuses only drawings that cannot be read back.
* `Figure.content` : the drawing of a figure as the content of a file.
* `Figure.save` : the files after a figure is saved.
-/

namespace LineChart

/-- The characters that an XML document can hold: all but the control characters that are no blanks
and the two last code points of the basic plane. -/
def isXmlCharacter (c : Char) : Bool :=
  c = '\t' || c = '\n' || c = '\r' ||
    (decide (0x20 ≤ c.toNat) && decide (c.toNat ≠ 0xFFFE) && decide (c.toNat ≠ 0xFFFF))

/-- All texts of a drawing consist of such characters. -/
def Scene.isXml (s : Scene) : Bool := s.texts.all fun text => text.toList.all isXmlCharacter

/-- What can go wrong while a figure is saved. -/
inductive SaveError where
  | unknownFormat (extension : String)
  /-- The figure is not drawn. -/
  | drawing (cause : String)
  /-- The drawing is not read back as SVG. -/
  | reading (cause : String)
  /-- No page is made of the drawing. -/
  | converting (cause : String)
  | writing (path : Path) (e : FileError)
deriving DecidableEq

namespace SaveError

def message : SaveError → String
  | unknownFormat extension =>
    s!"unsupported output extension: .{extension} (expected .pdf or .svg)"
  | drawing cause => "drawing figure: " ++ cause
  | reading cause => "parsing generated SVG: " ++ cause
  | converting cause => "converting SVG to PDF: " ++ cause
  | writing path e => inContext ("writing " ++ path.text) e.message

end SaveError

/-- The format for an extension. -/
def DrawingFormat.ofExtension? (extension : String) : Option DrawingFormat :=
  if extension = "svg" then some .svg
  else if extension = "pdf" then some .pdf
  else none

/-- What the libraries refuse that draw figures and make pages of the drawings, with the cause. -/
structure Renderer where
  /-- Why a figure is not drawn. -/
  undrawn : Figure → Option String
  /-- Why a drawing is not read back. -/
  unread : Scene → Option String
  /-- Why a drawing that was read back is not made a page. -/
  unconverted : Scene → Option String

namespace Renderer

/-- Every figure is drawn, and every drawing is made a page that is an XML document and covers
something. -/
def standard : Renderer where
  undrawn _ := none
  unread s :=
    if ¬ s.isXml then some "a character that XML cannot hold"
    else if s.width = 0 ∨ s.height = 0 then some "SVG has an invalid size"
    else none
  unconverted _ := none

/-- Draws a figure. -/
def draw (r : Renderer) (f : Figure) : Except SaveError Scene :=
  match r.undrawn f with
  | some cause => .error (.drawing cause)
  | none => .ok f.scene

/-- Draws a figure and makes a page of the drawing. -/
def drawPage (r : Renderer) (f : Figure) : Except SaveError Scene :=
  match r.draw f with
  | .error e => .error e
  | .ok scene =>
    match r.unread scene with
    | some cause => .error (.reading cause)
    | none =>
      match r.unconverted scene with
      | some cause => .error (.converting cause)
      | none => .ok scene

end Renderer

namespace Figure

/-- The drawing of a figure as the content of a file. -/
def content (f : Figure) (r : Renderer) (format : DrawingFormat) : Except SaveError FileContent :=
  match format with
  | .svg => (r.draw f).map (.drawing .svg)
  | .pdf => (r.drawPage f).map (.drawing .pdf)

/-- Saves a figure at a path, in the format that the path's extension stands for: the files after
that, and what went wrong. Nothing is written unless the drawing is done. -/
def save (f : Figure) (r : Renderer) (files : Files) (path : Path) :
    Files × Except SaveError Unit :=
  match DrawingFormat.ofExtension? path.extension with
  | none => (files, .error (.unknownFormat path.extension))
  | some format =>
    match f.content r format with
    | .error e => (files, .error e)
    | .ok content =>
      match FileTree.save files path content with
      | (files, .error e) => (files, .error (.writing path e))
      | (files, .ok ()) => (files, .ok ())

end Figure

end LineChart
