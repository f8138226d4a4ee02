import LineChart.Drawing.Saving
import LineChart.Figure.Resolution
import LineChart.Table.Loading

/-!
# Building figures

A figure is built in three stages: the table is loaded, the description is resolved against it, and
the figure is saved.

* `FigureDescription.build` : all three, for some files.
-/

namespace LineChart

/-- What can go wrong while a figure is built, by stage. -/
inductive BuildError where
  | load (e : LoadError)
  | resolve (input : Path) (e : ResolveError)
  | save (output : Path) (e : SaveError)
deriving DecidableEq

namespace BuildError

def message : BuildError → String
  | load e => e.message
  | resolve input e => inContext ("resolving figure from " ++ input.text) e.message
  | save output e => inContext ("saving " ++ output.text) e.message

end BuildError

/-- A figure that is built, and where it was saved. -/
structure Build where
  figure : Figure
  path : Path

/-- Builds the figure of a description: the files after that, and the figure or what went wrong. -/
def FigureDescription.build (d : FigureDescription) (r : Renderer) (files : Files) :
    Files × Except BuildError Build :=
  match Table.load files d.input with
  | .error e => (files, .error (.load e))
  | .ok table =>
    match (resolve d table).outcome with
    | .error e => (files, .error (.resolve d.input e))
    | .ok figure =>
      match figure.save r files d.output with
      | (files, .error e) => (files, .error (.save d.output e))
      | (files, .ok ()) => (files, .ok ⟨figure, d.output⟩)

end LineChart
