import LineChart.Figure.Basic

/-!
# The viewer

The viewer shows a figure on screen, and each of its series can be switched on and off.

* `Viewer.ofFigure` : the viewer of a figure, with every series switched on.
* `Viewer.toggle`, `Viewer.showAll`, `Viewer.hideAll` : the switches.
* `Viewer.shown`, `Viewer.pointCount` : the series that are on, and the number of their points.
* `Viewer.title` : the title of the window.
-/

namespace LineChart

structure Viewer where
  figure : Figure
  /-- Which series are on, in the order of the figure. -/
  visible : List Bool
  /-- Where the figure was saved. -/
  savedTo : Option Path
  /-- A remark about the figure. -/
  status : Option String
deriving DecidableEq

namespace Viewer

/-- The remark about a figure without points. -/
def emptyStatus (f : Figure) : Option String :=
  if f.pointCount = 0 then some "no points to plot" else none

def ofFigure (f : Figure) (savedTo : Option Path) : Viewer :=
  ⟨f, f.series.map fun _ => true, savedTo, emptyStatus f⟩

/-- Series `i` is on. -/
def isVisible (v : Viewer) (i : Nat) : Bool := v.visible[i]?.getD false

/-- The series that are on, with their positions in the figure. -/
def shown (v : Viewer) : List (Nat × Series) :=
  (v.figure.series.mapIdx fun i s => (i, s)).filter fun entry => v.isVisible entry.1

/-- The number of points of the series that are on. -/
def pointCount (v : Viewer) : Nat := (v.shown.flatMap fun entry => entry.2.points).length

/-- Switches one series; a position outside the figure switches nothing. -/
def toggle (v : Viewer) (i : Nat) : Viewer := { v with visible := v.visible.modify i not }

def showAll (v : Viewer) : Viewer := { v with visible := v.visible.map fun _ => true }

def hideAll (v : Viewer) : Viewer := { v with visible := v.visible.map fun _ => false }

/-- The title of the window if neither the figure nor its file has a name. -/
def defaultTitle : String := "wfq-plot"

/-- The title of the window: that of the figure, else the name of its file. -/
def title (v : Viewer) : String :=
  match v.figure.title with
  | some title => title
  | none => v.figure.output.fileName?.getD defaultTitle

theorem length_visible_ofFigure (f : Figure) (savedTo : Option Path) :
    (ofFigure f savedTo).visible.length = f.series.length := by
  simp [ofFigure]

end Viewer

end LineChart
