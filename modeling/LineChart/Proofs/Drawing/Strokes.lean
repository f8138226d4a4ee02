import LineChart.Drawing.Legend
import Mathlib.Data.List.Basic

/-!
# The strokes of a drawing

A figure is drawn run by run: what stands in its drawing for a run is what stands there when the run
is drawn alone on the same axes. The legend lists every series once, however many runs it has.

* `Figure.alone` : a figure of one run, on the axes of another figure.
* `Canvas.drawSeries_eq` : what one more series adds to a canvas.
* `Figure.canvas_eq` : all strokes and all entries of a figure.
* `Figure.drawn_run_by_run` : the strokes, the swatches and the legend texts of a drawing.
-/

namespace LineChart

/-! ### One series -/

namespace Canvas

variable (c : Canvas) (s : Series)

/-- A run without points has no strokes, in either style. -/
theorem runStrokes_nil : c.runStrokes s [] = [] := by
  rw [runStrokes]
  cases s.style with
  | solid => rfl
  | dashed => rfl

/-- Behind the first run of a series, only strokes are added. -/
theorem drawRuns_of_pos {i : Nat} (hi : 0 < i) (runs : List (List Point)) :
    drawRuns s c i runs = { c with strokes := c.strokes ++ runs.flatMap (c.runStrokes s) } := by
  induction runs generalizing c i with
  | nil => rw [drawRuns, List.flatMap_nil, List.append_nil]
  | cons run rest ih =>
    rw [drawRuns, ih _ (Nat.succ_pos i), drawRun, if_neg (Nat.ne_of_gt hi), List.flatMap_cons,
      ← List.append_assoc]
    rfl

/-- **What one more series adds to a canvas**: the strokes of its runs, and one entry for the
legend. -/
theorem drawSeries_eq : drawSeries c s =
    { c with
      strokes := c.strokes ++ s.runs.flatMap (c.runStrokes s)
      entries := c.entries ++ [⟨s.label, s.colour⟩] } := by
  rw [drawSeries]
  cases hruns : s.runs with
  | nil =>
    -- the empty run in place of the runs brings the entry and no strokes
    rw [if_pos rfl, drawRuns, drawRuns, drawRun, if_pos rfl, runStrokes_nil, List.flatMap_nil]
  | cons run rest =>
    rw [if_neg (List.cons_ne_nil run rest), drawRuns, drawRuns_of_pos _ _ Nat.one_pos, drawRun,
      if_pos rfl, List.flatMap_cons, ← List.append_assoc]
    rfl

/-- All series add their strokes and their entries, one series after the other. -/
theorem foldl_drawSeries (series : List Series) : series.foldl drawSeries c =
    { c with
      strokes := c.strokes ++ series.flatMap fun s => s.runs.flatMap (c.runStrokes s)
      entries := c.entries ++ series.map fun s => ⟨s.label, s.colour⟩ } := by
  induction series generalizing c with
  | nil => rw [List.foldl_nil, List.flatMap_nil, List.map_nil, List.append_nil, List.append_nil]
  | cons s rest ih =>
    rw [List.foldl_cons, ih, drawSeries_eq]
    simp only [List.flatMap_cons, List.map_cons, List.append_assoc, List.singleton_append]
    rfl

end Canvas

/-! ### All series -/

namespace Figure

variable (f : Figure)

/-- The place of a point in the drawing of a figure. -/
def place (p : Point) : Pixel := (Sheet.ofFigure f).place f.bounds p

/-- The strokes of a run of a series in the drawing of a figure. -/
def runStrokes (s : Series) (run : List Point) : List Stroke :=
  (s.style.lines (run.map f.place)).map (Stroke.mk s.colour)

/-- The canvas of a figure has the strokes of every run and an entry for every series. -/
theorem canvas_eq : f.canvas =
    ⟨Sheet.ofFigure f, f.bounds, f.series.flatMap fun s => s.runs.flatMap (f.runStrokes s),
      f.series.map fun s => ⟨s.label, s.colour⟩⟩ :=
  Canvas.foldl_drawSeries ⟨Sheet.ofFigure f, f.bounds, [], []⟩ f.series

/-- A run of a series and nothing else, on the axes of a figure. -/
def alone (s : Series) (run : List Point) : Figure :=
  { f with
    series := [{ s with runs := [run] }]
    xRange := some f.bounds.1
    yRange := some f.bounds.2 }

variable (s : Series) (run : List Point)

theorem bounds_alone : (f.alone s run).bounds = f.bounds := by
  rw [bounds, alone, Option.getD_some, Option.getD_some]

theorem place_alone : (f.alone s run).place = f.place := by
  funext p
  rw [place, place, bounds_alone]
  rfl

/-- A run is drawn alone as it is drawn among all runs. -/
theorem strokes_alone : (f.alone s run).scene.strokes = f.runStrokes s run := by
  have hone : (f.alone s run).scene.strokes =
      (f.alone s run).runStrokes { s with runs := [run] } run := by
    rw [scene, canvas_eq]
    simp only [alone, List.flatMap_singleton]
  rw [hone, runStrokes, runStrokes, place_alone]

end Figure

/-! ### The legend -/

/-- What is built from entries and their numbers, seen without the numbers. -/
theorem map_mapIdx_of_eq {α β γ : Type} {entries : List α} {build : Nat → α → β} {view : β → γ}
    {plain : α → γ} (h : ∀ i e, view (build i e) = plain e) :
    (entries.mapIdx build).map view = entries.map plain := by
  refine List.ext_getElem ?_ ?_
  · rw [List.length_map, List.length_mapIdx, List.length_map]
  · intro i _ _
    rw [List.getElem_map, List.getElem_mapIdx, List.getElem_map, h]

namespace Legend

theorem colours_draw (l : Legend) :
    l.draw.swatches.map Stroke.colour = l.entries.map LegendEntry.colour :=
  map_mapIdx_of_eq fun _ _ => rfl

theorem texts_draw (l : Legend) :
    l.draw.entries.map Caption.text = l.entries.map LegendEntry.label :=
  map_mapIdx_of_eq fun _ _ => rfl

end Legend

namespace Figure

variable (f : Figure)

/-- The series that the legend lists: all of them, or none if there is no legend. -/
def listed : List Series := if f.legend then f.series else []

/-- The legend has an entry for each series that it lists, if there is one. -/
theorem legend?_eq : f.legend? = if f.listed = [] then none else
    some ⟨(Sheet.ofFigure f).plot, f.listed.map fun s => ⟨s.label, s.colour⟩⟩ := by
  rw [legend?, listed, canvas_eq]
  cases f.legend with
  | false => simp
  | true => simp

theorem swatches_colours : f.scene.swatches.map Stroke.colour = f.listed.map Series.colour := by
  rw [Scene.swatches, scene, legend?_eq]
  split
  · next hnone => rw [hnone]; rfl
  · show (Legend.draw _).swatches.map Stroke.colour = _
    rw [Legend.colours_draw, List.map_map]
    rfl

theorem legendTexts_labels :
    f.scene.legendTexts.map Caption.text = f.listed.map Series.label := by
  rw [Scene.legendTexts, scene, legend?_eq]
  split
  · next hnone => rw [hnone]; rfl
  · show (Legend.draw _).entries.map Caption.text = _
    rw [Legend.texts_draw, List.map_map]
    rfl

/-- **A drawing has the strokes of its runs, one run after the other, and a legend entry for each
series.** A run has the strokes that it has alone on the same axes, which are lines in the style and
the colour of its series. A run without points has none. The swatches of the legend follow the
strokes, and swatches and texts stand for the listed series in order. -/
theorem drawn_run_by_run :
    f.scene.strokes =
        (f.series.flatMap fun s => s.runs.flatMap fun run => (f.alone s run).scene.strokes) ∧
      (∀ s run, (f.alone s run).scene.strokes =
        (s.style.lines (run.map f.place)).map (Stroke.mk s.colour)) ∧
      (∀ s, (f.alone s []).scene.strokes = []) ∧
      f.scene.lines = f.scene.strokes ++ f.scene.swatches ∧
      f.scene.swatches.map Stroke.colour = f.listed.map Series.colour ∧
      f.scene.legendTexts.map Caption.text = f.listed.map Series.label := by
  refine ⟨?_, f.strokes_alone, ?_, rfl, f.swatches_colours, f.legendTexts_labels⟩
  · simp only [strokes_alone]
    rw [scene, canvas_eq]
  · intro s
    rw [strokes_alone]
    exact Canvas.runStrokes_nil ⟨Sheet.ofFigure f, f.bounds, [], []⟩ s

end Figure

end LineChart
