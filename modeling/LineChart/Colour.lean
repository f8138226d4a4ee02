import LineChart.Number.Arithmetic
import LineChart.Number.Numeral
import LineChart.Text.Blank

/-!
# Colours

* `Colour.read` : the colour that a text names by three or six hexadecimal digits.
* `palette` : colours for a number of lines, their hues evenly spaced.
* `Colour.digits`, `Colour.code` : a colour by its six digits.
-/

namespace LineChart

/-- A colour by its three parts. -/
structure Colour where
  red : UInt8
  green : UInt8
  blue : UInt8
deriving DecidableEq

/-- What a text says of a colour. -/
inductive ColourReading where
  | colour (c : Colour)
  | notColour
  /-- The text has the length of a colour, but a cut between two parts falls inside a character. -/
  | cutCharacter
deriving DecidableEq

namespace Colour

/-- The number of bytes that some characters take. -/
def byteLength (text : List Char) : Nat := text.foldr (fun c size => c.utf8Size + size) 0

/-- Cuts a text behind `size` bytes, if there is a character's end. -/
def cutAt : Nat → List Char → Option (List Char × List Char)
  | 0, rest => some ([], rest)
  | _, [] => some ([], [])
  | size, c :: rest =>
    if c.utf8Size ≤ size then
      match cutAt (size - c.utf8Size) rest with
      | some (part, rest) => some (c :: part, rest)
      | none => none
    else none

/-- The value of some hexadecimal digits, of which there is at least one. -/
def hexDigits? (digits : List Char) : Option Nat :=
  if digits = [] then none
  else digits.foldl (fun n c => match n, hexValue? c with
    | some n, some digit => some (16 * n + digit)
    | _, _ => none) (some 0)

/-- One part of a colour: hexadecimal digits with, perhaps, a plus sign in front. -/
def part? : List Char → Option Nat
  | '+' :: digits => hexDigits? digits
  | digits => hexDigits? digits

/-- The parts of a colour of `size` bytes each, one after the other, multiplied by `factor`. The
first part that is wrong decides. -/
def readParts (size factor : Nat) (text : List Char) : ColourReading :=
  match cutAt size text with
  | none => .cutCharacter
  | some (first, text) =>
    match part? first with
    | none => .notColour
    | some red =>
      match cutAt size text with
      | none => .cutCharacter
      | some (second, text) =>
        match part? second with
        | none => .notColour
        | some green =>
          match cutAt size text with
          | none => .cutCharacter
          | some (third, _) =>
            match part? third with
            | none => .notColour
            | some blue =>
              .colour ⟨.ofNat (red * factor), .ofNat (green * factor), .ofNat (blue * factor)⟩

/-- The characters of a colour: outer blanks and one number sign in front do not count. -/
def body (text : String) : List Char :=
  match trimBlanks text.toList with
  | '#' :: rest => rest
  | rest => rest

/-- Reads a colour. Three bytes are taken as one digit a part, standing for that digit twice, and
six bytes as two digits a part. -/
def read (text : String) : ColourReading :=
  let text := body text
  if byteLength text = 3 then readParts 1 17 text
  else if byteLength text = 6 then readParts 2 1 text
  else .notColour

/-- Two hexadecimal digits. -/
def partDigits (part : UInt8) : List Char :=
  [Nat.digitChar (part.toNat / 16), Nat.digitChar (part.toNat % 16)]

/-- The six digits of a colour, in lower case. -/
def digits (c : Colour) : String :=
  .ofList (partDigits c.red ++ partDigits c.green ++ partDigits c.blue)

/-- A colour as drawings name it: a number sign and its digits in upper case. -/
def code (c : Colour) : String := "#" ++ .ofList (c.digits.toList.map Char.toUpper)

/-! ### Evenly spaced hues -/

/-- A part of a colour between zero and one as a byte, a half going to the even neighbour. -/
def ofFraction (x : Single) : UInt8 :=
  let scaled := x * .ofNat 255
  if scaled.negative then 0
  else .ofNat (Nat.min 255 (roundHalfEven scaled.units FloatFormat.single.one))

/-- The colour of a hue in degrees, with a saturation and a lightness between zero and one. All
arithmetic has thirty-two bits. -/
def ofHue (hue saturation lightness : Single) : Colour :=
  let one : Single := .ofNat 1
  let two : Single := .ofNat 2
  let half : Single := one / two
  let floor (x : Single) : Single := .ofInt x.floor
  let full : Single := .ofNat 360
  let chroma := (one - (lightness * two - one).abs) * saturation
  let sector := (hue - floor (hue / full) * full) / .ofNat 60
  let withinPair := sector - floor (sector * half) * two
  let second := chroma * (one - (withinPair - one).abs)
  let base := lightness - chroma * half
  let zero : Single := .zero
  let (red, green, blue) :=
    if sector.less one then (chroma, second, zero)
    else if sector.less two then (second, chroma, zero)
    else if sector.less (.ofNat 3) then (zero, chroma, second)
    else if sector.less (.ofNat 4) then (zero, second, chroma)
    else if sector.less (.ofNat 5) then (second, zero, chroma)
    else (chroma, zero, second)
  ⟨ofFraction (red + base), ofFraction (green + base), ofFraction (blue + base)⟩

end Colour

/-- The colour of line `i` among `n`. -/
def paletteColour (n i : Nat) : Colour :=
  Colour.ofHue (.ofNat i / .ofNat n * .ofNat 360)
    (.ofDecimal false ⟨75, -2⟩) (.ofDecimal false ⟨45, -2⟩)

/-- Colours for `n` lines. -/
def palette (n : Nat) : List Colour := (List.range n).map (paletteColour n)

end LineChart
