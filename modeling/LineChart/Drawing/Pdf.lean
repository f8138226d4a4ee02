import LineChart.Drawing.Scene

/-!
# Drawings as PDF

A drawing is written as a document of one page, which has the size of the drawing. Texts use the two
Helvetica fonts that every reader of such documents has, with the characters of Latin-1.

* `Pdf.Page.content` : the operators that draw the page.
* `Pdf.document` : a document of numbered objects and the table of their places.
* `Scene.pdf` : the bytes of a drawing.
-/

namespace LineChart

namespace Pdf

abbrev Bytes := List UInt8

/-- The bytes of a text that has only ASCII characters. -/
def ascii (text : String) : Bytes := text.toUTF8.toList

/-! ### The page -/

/-- A character inside a text. Brackets and backslashes are escaped, and a character that the fonts
do not have is shown as a question mark. -/
def letter (c : Char) : Bytes :=
  if c = '(' ∨ c = ')' ∨ c = '\\' then [0x5C, .ofNat c.toNat]
  else if (0x20 ≤ c.toNat ∧ c.toNat ≤ 0x7E) ∨ (0xA0 ≤ c.toNat ∧ c.toNat ≤ 0xFF) then
    [.ofNat c.toNat]
  else ascii "?"

/-- A text as an operand. -/
def operand (text : String) : Bytes := ascii "(" ++ text.toList.flatMap letter ++ ascii ")"

/-- A part of a colour as a share of the whole, in thousandths. -/
def share (part : UInt8) : String :=
  let thousandths := part.toNat * 1000 / 255
  if thousandths = 1000 then "1"
  else
    let digits := Nat.toDigits 10 thousandths
    .ofList ('0' :: '.' :: List.replicate (3 - digits.length) '0' ++ digits)

def shares (c : Colour) : String := " ".intercalate [share c.red, share c.green, share c.blue]

def number (n : Int) : String := toString n

def place (p : Pixel) : String := number p.x ++ " " ++ number p.y

/-- Operators that leave the settings of the page as they were. -/
def isolated (operators : List String) : Bytes :=
  ascii (" ".intercalate ("q" :: operators ++ ["Q\n"]))

/-- The rectangles of a page are numbered, since each has a setting for its opacity. -/
def opacityName (i : Nat) : String := "/G" ++ toString i

def rectangle (i : Nat) (r : Rectangle) : Bytes :=
  let corners := " ".intercalate
    [number r.area.left, number r.area.top, number r.area.width, number r.area.height, "re"]
  match r.paint with
  | .fill c _ => isolated [opacityName i, "gs", shares c, "rg", corners, "f"]
  | .outline c => isolated [shares c, "RG", corners, "S"]

/-- The line through some places; a single place is drawn as a dot. -/
def linePath : List Pixel → List String
  | [] => []
  | first :: rest => [place first, "m"] ++ (if rest = [] then [place first, "l"]
      else rest.flatMap fun p => [place p, "l"])

def stroke (s : Stroke) : Bytes :=
  isolated ([shares s.colour, "RG", "2 w 1 J"] ++ linePath s.points ++ ["S"])

/-- How a text is set. -/
structure Setting where
  font : String
  size : Nat
  /-- The place is that of the middle, not that of the start. -/
  centred : Bool
  /-- The text reads upwards. -/
  turned : Bool
  /-- The place is at the upper edge, not at the lower one. -/
  below : Bool

/-- The fonts by their names in the page. -/
def plainFont : String := "/F1"
def boldFont : String := "/F2"

/-- A text. Half of its estimated width lies in front of its place if it is centred. -/
def caption (setting : Setting) (c : Caption) : Bytes :=
  let down : Int := if setting.below then (setting.size * 76 / 100 : Nat) else 0
  let before : Int := if setting.centred then (setting.size * c.text.length / 4 : Nat) else 0
  let matrix :=
    if setting.turned then
      ["0 -1 -1 0", number (c.place.x + down), number (c.place.y + before), "Tm"]
    else ["1 0 0 -1", number (c.place.x - before), number (c.place.y + down), "Tm"]
  let font := [setting.font, toString setting.size, "Tf"]
  ascii (" ".intercalate ("q BT" :: font ++ matrix) ++ " ") ++ operand c.text ++
    ascii " Tj ET Q\n"

def axisLabel (l : AxisLabel) : Bytes := caption ⟨boldFont, 14, true, l.turned, l.turned⟩ l.caption

/-- The operators of a page. The vertical coordinate is turned to count from the upper edge. -/
def content (s : Scene) : Bytes :=
  let turn := " ".intercalate ["1 0 0 -1 0", toString s.height, "cm\n"]
  let legend := s.legendRectangles.mapIdx fun i r => rectangle (i + 1) r
  ascii turn ++ rectangle 0 s.background ++
    (s.title.map (caption ⟨plainFont, 16, true, false, true⟩)).getD [] ++
    s.axisLabels.flatMap axisLabel ++ s.strokes.flatMap stroke ++ legend.flatten ++
    s.legendTexts.flatMap (caption ⟨plainFont, 12, false, false, true⟩) ++ s.swatches.flatMap stroke

/-! ### The document -/

/-- A dictionary of some names and values. -/
def dictionary (entries : List (String × String)) : String :=
  "<< " ++ String.join (entries.map fun entry => "/" ++ entry.1 ++ " " ++ entry.2 ++ " ") ++ ">>"

/-- A reference to an object by its number. -/
def reference (n : Nat) : String := toString n ++ " 0 R"

/-- A font that every reader has. -/
def font (name : String) : String :=
  dictionary [("Type", "/Font"), ("Subtype", "/Type1"), ("BaseFont", "/" ++ name),
    ("Encoding", "/WinAnsiEncoding")]

/-- The opacity of each rectangle. -/
def opacities (rectangles : List Rectangle) : String :=
  let opacity (r : Rectangle) : String := match r.paint with
    | .fill _ d => .ofList d.positional
    | .outline _ => "1"
  dictionary (rectangles.mapIdx fun i r =>
    ("G" ++ toString i, dictionary [("ca", opacity r)]))

/-- The objects of the document of a drawing, the first of which has the number one. -/
def objects (s : Scene) : List Bytes :=
  let stream := content s
  let box := "[0 0 " ++ toString s.width ++ " " ++ toString s.height ++ "]"
  let resources := dictionary [("Font", dictionary [("F1", reference 5), ("F2", reference 6)]),
    ("ExtGState", opacities s.rectangles)]
  [ascii (dictionary [("Type", "/Catalog"), ("Pages", reference 2)]),
   ascii (dictionary [("Type", "/Pages"), ("Kids", "[" ++ reference 3 ++ "]"), ("Count", "1")]),
   ascii (dictionary [("Type", "/Page"), ("Parent", reference 2), ("MediaBox", box),
     ("Resources", resources), ("Contents", reference 4)]),
   ascii (dictionary [("Length", toString stream.length)] ++ "\nstream\n") ++ stream ++
     ascii "endstream",
   ascii (font "Helvetica"), ascii (font "Helvetica-Bold")]

/-- An object with its number. -/
def numbered (n : Nat) (object : Bytes) : Bytes :=
  ascii (toString n ++ " 0 obj\n") ++ object ++ ascii "\nendobj\n"

def header : Bytes := ascii "%PDF-1.4\n"

/-- The places of some consecutive parts, the first of which starts at `start`. -/
def starts (start : Nat) : List Bytes → List Nat
  | [] => []
  | part :: rest => start :: starts (start + part.length) rest

/-- A line of the table of places, which is twenty bytes long. -/
def tableLine (start : Nat) : String :=
  let digits := Nat.toDigits 10 start
  .ofList (List.replicate (10 - digits.length) '0' ++ digits) ++ " 00000 n \n"

/-- A document of some objects, the first of which is its root. -/
def document (objects : List Bytes) : Bytes :=
  let parts := objects.mapIdx fun i object => numbered (i + 1) object
  let count := toString (objects.length + 1)
  let lines := String.join ((starts header.length parts).map tableLine)
  let table := "xref\n0 " ++ count ++ "\n0000000000 65535 f \n" ++ lines
  let trailer := "trailer\n" ++ dictionary [("Size", count), ("Root", reference 1)] ++ "\n"
  let body := header ++ parts.flatten
  body ++ ascii (table ++ trailer ++ "startxref\n" ++ toString body.length ++ "\n%%EOF\n")

end Pdf

/-- The bytes of a drawing. -/
def Scene.pdf (s : Scene) : List UInt8 := Pdf.document (Pdf.objects s)

end LineChart
