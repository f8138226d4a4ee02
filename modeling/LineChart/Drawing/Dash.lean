import LineChart.Drawing.Pixel
import LineChart.Number.Arithmetic

/-!
# Dashed lines

A dashed line is followed from place to place with a pen that is put down for eight units and lifted
for four, along the whole line and around its corners. The way is measured in numbers of thirty-two
bits.

* `Pen` : the state of the pen.
* `Pen.draw` : the way to one more place.
* `dashes` : the dashes of a line.
-/

namespace LineChart

/-- A place on the way, between whole units. -/
structure Position where
  x : Single
  y : Single

namespace Position

def ofPixel (p : Pixel) : Position := ⟨.ofInt p.x, .ofInt p.y⟩

/-- The nearest whole place, a half going away from zero. -/
def pixel (p : Position) : Pixel := ⟨p.x.roundAway, p.y.roundAway⟩

def equal (p q : Position) : Bool := p.x.equal q.x && p.y.equal q.y

/-- The distance between two places. -/
def distance (p q : Position) : Single := Double.hypotenuse (q.x - p.x) (q.y - p.y)

/-- The place at a share of the way to another one. -/
def toward (p q : Position) (share : Single) : Position :=
  ⟨p.x + (q.x - p.x) * share, p.y + (q.y - p.y) * share⟩

end Position

/-- The pen on its way along a dashed line. -/
structure Pen where
  position : Position
  /-- The way since the pen was last put down or lifted. -/
  travelled : Single
  down : Bool
  /-- The places of the dash that is being drawn, the last one first. -/
  current : List Pixel
  /-- The dashes that are done, the last one first. -/
  done : List (List Pixel)

namespace Pen

/-- The lengths of a dash and of the space behind it. -/
def dashLength : Single := .ofNat 8
def spaceLength : Single := .ofNat 4

/-- The pen is put down at the start of a line. -/
def start (p : Pixel) : Pen := ⟨.ofPixel p, .zero, true, [p], []⟩

/-- Notes the place that the pen is at. -/
def mark (pen : Pen) : Pen := { pen with current := pen.position.pixel :: pen.current }

/-- Lifts the pen at the end of a dash, or puts it down behind a space. -/
def turn (pen : Pen) : Pen :=
  if pen.down then
    { pen with travelled := .zero, down := false, current := [],
               done := pen.current.reverse :: pen.done }
  else { pen.mark with travelled := .zero, down := true }

/-- Moves the pen up to the end of its dash or space, or to `target` if that is nearer. -/
def step (pen : Pen) (target : Position) : Pen :=
  let distance := pen.position.distance target
  let size := if pen.down then dashLength else spaceLength
  let left := size - pen.travelled
  let moved :=
    if left.less distance then
      { pen with position := pen.position.toward target (left / distance),
                 travelled := pen.travelled + left }
    else { pen with position := target, travelled := pen.travelled + distance }
  let moved := if moved.down then moved.mark else moved
  if size.atMost moved.travelled then moved.turn else moved

/-- Moves the pen to a place, in at most the given number of steps. -/
def draw : Nat → Pen → Position → Pen
  | 0, pen, _ => pen
  | steps + 1, pen, target =>
    if pen.position.equal target then pen else draw steps (pen.step target) target

/-- A number of steps that is enough for the way between two places: a step that does not reach its
end completes a dash or a space, but for rounding. -/
def enoughSteps (p q : Pixel) : Nat := 4 * ((q.x - p.x).natAbs + (q.y - p.y).natAbs) + 16

/-- Moves the pen along some places, from `last` on. -/
def follow : Pen → Pixel → List Pixel → Pen
  | pen, _, [] => pen
  | pen, last, p :: rest => follow (pen.draw (enoughSteps last p) (.ofPixel p)) p rest

/-- All dashes at the end of the line. A single place is no dash. -/
def finish (pen : Pen) : List (List Pixel) :=
  (if 1 < pen.current.length then pen.current.reverse :: pen.done else pen.done).reverse

end Pen

/-- The dashes of a line through some places. -/
def dashes : List Pixel → List (List Pixel)
  | [] => []
  | first :: rest => ((Pen.start first).follow first rest).finish

end LineChart
