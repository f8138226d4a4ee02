import LineChart.Proofs.Viewer.Legend
import LineChart.Viewer.Frame

/-!
# Clicks, frame by frame

The frames of the window do what the switches of the viewer do. A frame draws its bar before the click
of the frame counts and all else as if it had counted from the beginning, although a box is toggled
only behind the last row.

* `Viewer.Flagged` : there is a flag for each series; switches keep it so.
* `Viewer.sidePanel_eq` : the side panel is that of the viewer behind it.
* `Viewer.frame_eq` : one frame.
* `Viewer.clicked_eq_click` : the click of a frame is one on the window as a whole.
* `Viewer.frame_of_not_mem_clicks` : a click that the side panel does not take.
* `Viewer.run_eq_after` : the viewer after some frames.
* `Viewer.frames_refine_switches` : all that the frames of a figure show.
-/

namespace LineChart

/-- The switch that a click stands for. -/
def Click.switch : Click → Switch
  | .row i => .toggle i
  | .all => .showAll
  | .none => .hideAll

namespace Viewer

variable {v : Viewer} {click : Option Click}

/-! ### Flags -/

/-- There is a flag for each series. -/
def Flagged (v : Viewer) : Prop := v.visible.length = v.figure.series.length

theorem flagged_ofFigure (f : Figure) (savedTo : Option Path) : (ofFigure f savedTo).Flagged :=
  length_visible_ofFigure f savedTo

/-- Switches change flags, but not their number. -/
theorem Flagged.switch (h : v.Flagged) (s : Switch) : (v.switch s).Flagged := by
  rw [switch_eq]
  show (v.visible.mapIdx s.act).length = v.figure.series.length
  rw [List.length_mapIdx]
  exact h

theorem isVisible_switch (h : v.Flagged) (s : Switch) {j : Nat} (hj : j < v.figure.series.length) :
    (v.switch s).isVisible j = s.act j (v.isVisible j) := by
  have hflag : j < v.visible.length := by rw [h]; exact hj
  rw [switch_eq]
  show (v.visible.mapIdx s.act)[j]?.getD false = s.act j (v.visible[j]?.getD false)
  rw [List.getElem?_mapIdx, List.getElem?_eq_getElem hflag]
  rfl

/-- A switch of a series that is not there changes nothing. -/
theorem switch_toggle_of_le (h : v.Flagged) {i : Nat} (hi : v.figure.series.length ≤ i) :
    v.switch (.toggle i) = v := by
  show v.toggle i = v
  rw [toggle, List.modify_eq_self (by rw [h]; exact hi)]

/-! ### The side panel -/

theorem rows_drawRows (i : Nat) (toggled : Option Nat) (series : List Series) :
    (v.drawRows click i toggled series).1 =
      series.mapIdx fun j s => v.drawRow click (i + j) s := by
  induction series generalizing i toggled with
  | nil => rfl
  | cons s rest ih =>
    rw [drawRows, List.mapIdx_cons]
    dsimp only
    rw [ih]
    congr 2
    funext j s
    rw [Nat.add_right_comm, Nat.add_assoc]

/-- Without a click on a box, none is remembered. -/
theorem toggled_drawRows_of_ne (h : ∀ k, click ≠ some (.row k)) (i : Nat) (toggled : Option Nat)
    (series : List Series) : (v.drawRows click i toggled series).2 = toggled := by
  induction series generalizing i toggled with
  | nil => rfl
  | cons s rest ih =>
    rw [drawRows]
    dsimp only
    rw [ih, if_neg (h i)]

/-- A box that is clicked is remembered behind the last row, if its row is drawn. -/
theorem toggled_drawRows_row (k i : Nat) (toggled : Option Nat) (series : List Series) :
    (v.drawRows (some (.row k)) i toggled series).2 =
      if i ≤ k ∧ k < i + series.length then some k else toggled := by
  induction series generalizing i toggled with
  | nil =>
    rw [if_neg (by simp)]
    rfl
  | cons s rest ih =>
    rw [drawRows]
    dsimp only
    rw [ih, List.length_cons]
    by_cases hk : k = i
    · subst hk
      rw [if_neg (by omega), if_pos rfl, if_pos (by omega)]
    · have hclick : ¬ some (Click.row k) = some (.row i) := by simpa using hk
      rw [if_neg hclick]
      by_cases hlater : i + 1 ≤ k ∧ k < i + 1 + rest.length
      · rw [if_pos hlater, if_pos (by omega)]
      · rw [if_neg hlater, if_neg (by omega)]

/-- Without a click on a box, the rows are those of the viewer behind the buttons. -/
theorem sidePanel_of_ne (h : ∀ k, click ≠ some (.row k)) :
    v.sidePanel click =
      ((v.pressButtons click).window.rows, v.pressButtons click) := by
  have hrow : ∀ i s, (v.pressButtons click).drawRow click i s = (v.pressButtons click).row i s := by
    intro i s
    rw [drawRow, if_neg (h i)]
  have hdrawn : (v.pressButtons click).drawRows click 0 none (v.pressButtons click).figure.series =
      ((v.pressButtons click).window.rows, none) := by
    apply Prod.ext
    · rw [rows_drawRows]
      simp only [Nat.zero_add, hrow]
      rfl
    · exact toggled_drawRows_of_ne h 0 none _
  rw [sidePanel]
  simp only [hdrawn]

/-- A clicked box is drawn as it is behind the click. -/
theorem drawRow_row (h : v.Flagged) (k : Nat) {j : Nat} (hj : j < v.figure.series.length)
    (s : Series) : v.drawRow (some (.row k)) j s = (v.switch (.toggle k)).row j s := by
  have hvisible := isVisible_switch h (.toggle k) hj
  by_cases hk : k = j
  · subst hk
    rw [drawRow, if_pos rfl, row, row, hvisible, Switch.act, if_pos rfl]
  · have hclick : ¬ some (Click.row k) = some (.row j) := by simpa using hk
    rw [drawRow, if_neg hclick, row, row, hvisible, Switch.act, if_neg hk]

/-- With a click on a box, the rows are drawn as if it had been toggled in front of them. -/
theorem sidePanel_row (h : v.Flagged) (k : Nat) :
    v.sidePanel (some (.row k)) =
      ((v.switch (.toggle k)).window.rows, v.switch (.toggle k)) := by
  have hpress : v.pressButtons (some (.row k)) = v := rfl
  have hdrawn : v.drawRows (some (.row k)) 0 none v.figure.series =
      ((v.switch (.toggle k)).window.rows,
        if k < v.figure.series.length then some k else none) := by
    apply Prod.ext
    · rw [rows_drawRows]
      show _ = v.figure.series.mapIdx (v.switch (.toggle k)).row
      apply List.ext_getElem (by simp)
      intro j hj _
      rw [List.length_mapIdx] at hj
      rw [List.getElem_mapIdx, List.getElem_mapIdx, Nat.zero_add, drawRow_row h k hj]
    · rw [toggled_drawRows_row, Nat.zero_add]
      exact if_congr (and_iff_right (Nat.zero_le k)) rfl rfl
  rw [sidePanel]
  simp only [hpress, hdrawn]
  by_cases hk : k < v.figure.series.length
  · rw [if_pos hk]
    rfl
  · rw [if_neg hk, switch_toggle_of_le h (Nat.le_of_not_lt hk)]

/-! ### Frames -/

/-- The viewer behind the click of a frame, if there is a click. -/
def clicked (v : Viewer) : Option Click → Viewer
  | some c => v.switch c.switch
  | none => v

theorem Flagged.clicked (h : v.Flagged) (click : Option Click) : (v.clicked click).Flagged := by
  cases click with
  | none => exact h
  | some c => exact h.switch c.switch

/-- **The side panel is that of the viewer behind it**, though a box is toggled behind the rows. -/
theorem sidePanel_eq (h : v.Flagged) (click : Option Click) :
    v.sidePanel click = ((v.clicked click).window.rows, v.clicked click) := by
  cases click with
  | none => exact sidePanel_of_ne nofun
  | some c =>
    cases c with
    | row k => exact sidePanel_row h k
    | all => exact sidePanel_of_ne (by simp)
    | none => exact sidePanel_of_ne (by simp)

/-- **One frame.** The bar is that of the viewer in front of the click, and all else is that of the
viewer behind it. -/
theorem frame_eq (h : v.Flagged) (click : Option Click) :
    v.frame click =
      ({ (v.clicked click).window with bar := v.window.bar }, v.clicked click) := by
  rw [frame]
  dsimp only
  rw [sidePanel_eq h]
  rfl

/-- There is a row for each series. -/
theorem length_rows (v : Viewer) : v.window.rows.length = v.figure.series.length :=
  List.length_mapIdx

/-- A click does what it does to the window as a whole. -/
theorem clicked_eq_click (h : v.Flagged) (c : Click) : v.clicked (some c) = v.click c := by
  cases c with
  | row k =>
    show v.switch (.toggle k) = if k < v.window.rows.length then v.toggle k else v
    have hrows := v.length_rows
    by_cases hk : k < v.window.rows.length
    · rw [if_pos hk]
      rfl
    · rw [if_neg hk, switch_toggle_of_le h (by omega)]
  | all => rfl
  | none => rfl

/-- The side panel takes a click on each of its buttons and its rows. -/
theorem mem_clicks_iff {c : Click} : c ∈ v.window.clicks ↔
    c = .all ∨ c = .none ∨ ∃ i < v.figure.series.length, c = .row i := by
  have hpanel : v.window.clicks = .all :: .none ::
      (v.window.rows.mapIdx PanelItem.row).filterMap PanelItem.click? := rfl
  have hmem : c ∈ (v.window.rows.mapIdx PanelItem.row).filterMap PanelItem.click? ↔
      ∃ i < v.figure.series.length, c = .row i := by
    rw [List.mem_filterMap, ← length_rows]
    constructor
    · rintro ⟨item, hitem, hclick⟩
      obtain ⟨i, hi, rfl⟩ := List.mem_mapIdx.1 hitem
      exact ⟨i, hi, (Option.some.inj hclick).symm⟩
    · rintro ⟨i, hi, rfl⟩
      exact ⟨.row i v.window.rows[i], List.mem_mapIdx.2 ⟨i, hi, rfl⟩, rfl⟩
  rw [hpanel, List.mem_cons, List.mem_cons, hmem]

/-- **A click that the side panel does not take changes nothing**, neither what is drawn nor the viewer
behind it. -/
theorem frame_of_not_mem_clicks (h : v.Flagged) {c : Click} (hc : c ∉ v.window.clicks) :
    v.frame (some c) = v.frame none := by
  have hclicked : v.clicked (some c) = v.clicked none := by
    rw [clicked_eq_click h]
    cases c with
    | row i =>
      apply if_neg
      intro hi
      rw [length_rows] at hi
      exact hc (mem_clicks_iff.2 (.inr (.inr ⟨i, hi, rfl⟩)))
    | all => exact absurd (mem_clicks_iff.2 (.inl rfl)) hc
    | none => exact absurd (mem_clicks_iff.2 (.inr (.inl rfl))) hc
  rw [frame_eq h, frame_eq h, hclicked]

/-! ### Runs of frames -/

/-- The switches that the clicks of some frames stand for. -/
def switches (clicks : List (Option Click)) : List Switch := clicks.filterMap (·.map Click.switch)

theorem after_switches_cons (v : Viewer) (click : Option Click) (rest : List (Option Click)) :
    v.after (switches (click :: rest)) = (v.clicked click).after (switches rest) := by
  cases click <;> rfl

theorem Flagged.after (h : v.Flagged) (history : List Switch) : (v.after history).Flagged := by
  induction history generalizing v with
  | nil => exact h
  | cons s rest ih => exact ih (h.switch s)

/-- **The viewer after some frames** is the one after the switches that were clicked. -/
theorem run_eq_after (h : v.Flagged) (clicks : List (Option Click)) :
    v.run clicks = v.after (switches clicks) := by
  induction clicks generalizing v with
  | nil => rfl
  | cons click rest ih =>
    show (v.frame click).2.run rest = _
    rw [frame_eq h, ih (h.clicked click), after_switches_cons]

/-- One more click is one more switch, if it is one. -/
theorem clicked_after (v : Viewer) (clicks : List (Option Click)) (click : Option Click) :
    (v.after (switches clicks)).clicked click = v.after (switches (clicks ++ [click])) := by
  rw [switches, switches, List.filterMap_append]
  cases click with
  | none => exact congrArg v.after (List.append_nil _).symm
  | some c => exact (after_concat v _ c.switch).symm

/-! ### What the frames show -/

/-- A window shows a figure of which some series are on. The rows and the plot are those of a viewer,
and so is the bar, of the same viewer or of an earlier one. -/
structure Shows (w : Window) (f : Figure) (savedTo : Option Path) (earlier v : Viewer) : Prop where
  bar : w.bar = [(ofFigure f savedTo).title,
      toString f.series.length ++ " series, " ++ toString earlier.pointCount ++ " points visible",
      (match savedTo with
        | some path => "saved to " ++ path.text
        | none => "not saved")] ++
    if f.pointCount = 0 then ["no points to plot"] else []
  rows : w.rows = f.series.mapIdx fun i s =>
    ⟨s.label ++ "  (" ++ toString s.pointCount ++ " pts)", s.colour, v.isVisible i⟩
  nothing : w.plot = .nothingToPlot ↔ f.series = []
  plot : ∀ xLabel yLabel legend, w.plot = .plot xLabel yLabel legend → legend.Nodup ∧
    (f.legend = false → legend = []) ∧
    ∀ label, label ∈ legend ↔ f.legend = true ∧
      ∃ i s, f.series[i]? = some s ∧ v.isVisible i = true ∧ s.runs ≠ [] ∧ s.label = label

/-- The legend of a viewer by the series of its figure. -/
theorem mem_legend_iff_series {v : Viewer} {label : String} : label ∈ v.legend ↔
    v.figure.legend = true ∧ ∃ i s, v.figure.series[i]? = some s ∧ v.isVisible i = true ∧
      s.runs ≠ [] ∧ s.label = label := by
  rw [mem_legend_iff]
  apply and_congr_right
  intro _
  constructor
  · rintro ⟨⟨i, s⟩, hshown, hruns, hlabel⟩
    obtain ⟨hs, hon⟩ := mem_shown_iff.1 hshown
    exact ⟨i, s, hs, hon, hruns, hlabel⟩
  · rintro ⟨i, s, hs, hon, hruns, hlabel⟩
    exact ⟨(i, s), mem_shown_iff.2 ⟨hs, hon⟩, hruns, hlabel⟩

theorem toList_emptyStatus (f : Figure) :
    (emptyStatus f).toList = if f.pointCount = 0 then ["no points to plot"] else [] := by
  rw [emptyStatus]
  split <;> rfl

theorem figure_after (f : Figure) (savedTo : Option Path) (history : List Switch) :
    ((ofFigure f savedTo).after history).figure = f := by
  rw [after_eq]
  rfl

/-- The bar after a history: only the number of points depends on the switches. -/
theorem bar_after (f : Figure) (savedTo : Option Path) (history : List Switch) :
    ((ofFigure f savedTo).after history).window.bar = [(ofFigure f savedTo).title,
      toString f.series.length ++ " series, " ++
        toString ((ofFigure f savedTo).after history).pointCount ++ " points visible",
      (match savedTo with
        | some path => "saved to " ++ path.text
        | none => "not saved")] ++
    if f.pointCount = 0 then ["no points to plot"] else [] := by
  have htitle : ((ofFigure f savedTo).after history).title = (ofFigure f savedTo).title := by
    rw [after_eq]
    rfl
  have hsaved : ((ofFigure f savedTo).after history).savedTo = savedTo := by
    rw [after_eq]
    rfl
  have hstatus : ((ofFigure f savedTo).after history).status = emptyStatus f := by
    rw [after_eq]
    rfl
  rw [← toList_emptyStatus, ← hstatus]
  show [_, countText _, savedText _] ++ _ = _
  rw [htitle, countText, savedText, hsaved, figure_after]
  rfl

/-- A viewer of a figure is shown by its window, also with the bar of an earlier one. -/
theorem shows_window (f : Figure) (savedTo : Option Path) (history history' : List Switch) :
    Shows { ((ofFigure f savedTo).after history').window with
      bar := ((ofFigure f savedTo).after history).window.bar } f savedTo
      ((ofFigure f savedTo).after history) ((ofFigure f savedTo).after history') := by
  have hfigure := figure_after f savedTo history'
  generalize (ofFigure f savedTo).after history' = v at hfigure
  subst hfigure
  refine ⟨bar_after _ savedTo history, rfl, ?_, ?_⟩
  · show v.plot = .nothingToPlot ↔ v.figure.series = []
    rw [plot]
    by_cases hseries : v.figure.series = []
    · rw [if_pos hseries]
      exact iff_of_true rfl hseries
    · rw [if_neg hseries]
      exact iff_of_false nofun hseries
  · intro xLabel yLabel legend hplot
    have hlegend : legend = v.legend := by
      change v.plot = .plot xLabel yLabel legend at hplot
      rw [plot] at hplot
      split at hplot
      · cases hplot
      · obtain ⟨-, -, rfl⟩ := PlotPanel.plot.inj hplot
        rfl
    subst hlegend
    refine ⟨nodup_legend v, ?_, fun label => mem_legend_iff_series⟩
    intro hoff
    rw [Viewer.legend, hoff]
    rfl

/-- **The frames of a figure.** Whatever is clicked in some frames, the viewer behind them is the one
after the switches that were clicked. The next frame shows that viewer if nothing is clicked in it. If
something is, the rows and the plot show what the click leaves, and the bar what was there before. -/
theorem frames_refine_switches (f : Figure) (savedTo : Option Path)
    (clicks : List (Option Click)) (click : Option Click) :
    (ofFigure f savedTo).run clicks = (ofFigure f savedTo).after (switches clicks) ∧
      Shows (((ofFigure f savedTo).run clicks).frame none).1 f savedTo
        ((ofFigure f savedTo).after (switches clicks))
        ((ofFigure f savedTo).after (switches clicks)) ∧
      Shows (((ofFigure f savedTo).run clicks).frame click).1 f savedTo
        ((ofFigure f savedTo).after (switches clicks))
        ((ofFigure f savedTo).after (switches (clicks ++ [click]))) := by
  have hrun := run_eq_after (flagged_ofFigure f savedTo) clicks
  have hflagged := (flagged_ofFigure f savedTo).after (switches clicks)
  refine ⟨hrun, ?_, ?_⟩
  · rw [hrun, frame_eq hflagged]
    exact shows_window f savedTo _ _
  · rw [hrun, frame_eq hflagged, clicked_after]
    exact shows_window f savedTo _ _

end Viewer

end LineChart
