import LineChart.Viewer.Window

/-!
# Frames of the window

The window is drawn again and again, each time from the bar over the side panel to the plot. A click
takes effect while a frame is drawn: behind the bar, a button in front of the rows, and a box only
behind all of them.

* `Viewer.pressButtons`, `Viewer.drawRows`, `Viewer.sidePanel` : the side panel of a frame.
* `Viewer.frame` : a frame, as what is drawn and the viewer that it leaves behind.
* `Viewer.run` : the viewer after some frames.
-/

namespace LineChart.Viewer

/-- The viewer behind the two buttons, one of which may be clicked. -/
def pressButtons (v : Viewer) (click : Option Click) : Viewer :=
  let v := if click = some .all then v.showAll else v
  if click = some .none then v.hideAll else v

/-- The row of series `i` as it is drawn: a box that is clicked is drawn the other way. -/
def drawRow (v : Viewer) (click : Option Click) (i : Nat) (s : Series) : SeriesRow :=
  let row := v.row i s
  if click = some (.row i) then { row with ticked := !row.ticked } else row

/-- The rows from row `i` on, and the last row whose box was clicked, `toggled` being that of the
rows before them. -/
def drawRows (v : Viewer) (click : Option Click) :
    Nat → Option Nat → List Series → List SeriesRow × Option Nat
  | _, toggled, [] => ([], toggled)
  | i, toggled, s :: rest =>
    let toggled := if click = some (.row i) then some i else toggled
    let (rows, toggled) := drawRows v click (i + 1) toggled rest
    (v.drawRow click i s :: rows, toggled)

/-- The side panel of a frame, and the viewer behind it. -/
def sidePanel (v : Viewer) (click : Option Click) : List SeriesRow × Viewer :=
  let v := v.pressButtons click
  match v.drawRows click 0 none v.figure.series with
  | (rows, some i) => (rows, v.toggle i)
  | (rows, none) => (rows, v)

/-- A frame during which there is a click or none: what is drawn, and the viewer behind it. -/
def frame (v : Viewer) (click : Option Click) : Window × Viewer :=
  let bar := v.window.bar
  let (rows, v) := v.sidePanel click
  (⟨bar, rows, v.plot⟩, v)

/-- The viewer after some frames. -/
def run (v : Viewer) (clicks : List (Option Click)) : Viewer :=
  clicks.foldl (fun v click => (v.frame click).2) v

end LineChart.Viewer
