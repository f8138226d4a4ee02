import LineChart.Proofs.Figure.Outcome

/-!
# Labels

What a figure draws is the runs, the style and the colour of each of its series, in order. The labels
of a description take no part in it.

* `FigureDescription.Draws` : what a description draws from a table, labels apart.
* `SeriesDescription.SameButLabel` : series of a description that differ in their labels alone.
* `draws_relabelled_iff` : descriptions whose series are the same but for labels draw the same.
-/

namespace LineChart

variable {t : Table}

/-! ### What is drawn -/

/-- What a series of a figure draws. -/
def Series.stroke (s : Series) : List (List Point) × LineStyle × Colour := (s.runs, s.style, s.colour)

/-- What a figure draws, series by series. -/
def Figure.strokes (f : Figure) : List (List (List Point) × LineStyle × Colour) :=
  f.series.map Series.stroke

/-- A description resolves to a figure that draws some strokes. -/
def FigureDescription.Draws (d : FigureDescription) (t : Table)
    (strokes : List (List (List Point) × LineStyle × Colour)) : Prop :=
  ∃ f, (resolve d t).outcome = .ok f ∧ f.strokes = strokes

/-- A draft without its label. -/
def Draft.unlabelled (d : Draft) : Draft := { d with label := "" }

/-- The label of a draft takes no part in what is drawn. -/
theorem strokes_paintAll (drafts : List Draft) :
    (paintAll drafts).map Series.stroke =
      (paintAll (drafts.map Draft.unlabelled)).map Series.stroke := by
  rw [paintAll, paintAll, List.length_map, List.zip_map_left, List.map_map, List.map_map,
    List.map_map]
  rfl

/-! ### Series with other labels -/

namespace SeriesDescription

variable {s s' : SeriesDescription}

/-- Two series are the same, their labels apart. -/
def SameButLabel (s s' : SeriesDescription) : Prop := s' = { s with label := s'.label }

theorem SameButLabel.symm (h : s.SameButLabel s') : s'.SameButLabel s := by
  rw [SameButLabel] at h ⊢
  rw [h]

theorem SameButLabel.check_eq_ok_iff (h : s.SameButLabel s') :
    s'.check = .ok () ↔ s.check = .ok () := by
  rw [SeriesDescription.check_eq_ok_iff, SeriesDescription.check_eq_ok_iff, h]

theorem SameButLabel.exists_draftsFrom (h : s.SameButLabel s') {points : List Point}
    {drafts : List Draft} (hfrom : s.DraftsFrom t points drafts) :
    ∃ drafts', s'.DraftsFrom t points drafts' ∧
      drafts'.map Draft.unlabelled = drafts.map Draft.unlabelled := by
  have hgroupBy : s'.groupBy = s.groupBy := by rw [h]
  have hfilter : s'.filter = s.filter := by rw [h]
  have hdraft : ∀ label label' points,
      (s'.draft label' points).unlabelled = (s.draft label points).unlabelled := by
    intro label label' points
    rw [h]
    rfl
  cases hfrom with
  | grouped hg hc hne =>
    refine ⟨_, .grouped (hgroupBy.trans hg) hc hne, ?_⟩
    rw [List.map_map, List.map_map]
    refine List.map_congr_left ?_
    intro k _
    exact hdraft _ _ _
  | filtered hg hf hc hcell =>
    refine ⟨_, .filtered (hgroupBy.trans hg) (hfilter.trans hf) hc hcell, ?_⟩
    exact congrArg (fun draft => [draft]) (hdraft _ _ _)
  | whole hg hf =>
    refine ⟨_, .whole (hgroupBy.trans hg) (hfilter.trans hf), ?_⟩
    exact congrArg (fun draft => [draft]) (hdraft _ _ _)

/-- **The drafts of a series with another label** are its drafts with other labels. -/
theorem SameButLabel.exists_drafts (h : s.SameButLabel s') {expansion : Expansion}
    (hdrafts : s.drafts t = .ok expansion) :
    ∃ expansion', s'.drafts t = .ok expansion' ∧
      expansion'.drafts.map Draft.unlabelled = expansion.drafts.map Draft.unlabelled := by
  obtain ⟨points, hp, hfrom⟩ := SeriesDescription.exists_draftsFrom hdrafts
  have hp' : s'.points t = .ok points := by
    rw [h]
    exact hp
  obtain ⟨drafts', hfrom', hsame⟩ := h.exists_draftsFrom hfrom
  obtain ⟨skipped, hdrafts'⟩ := hfrom'.exists_drafts hp'
  exact ⟨_, hdrafts', hsame⟩

end SeriesDescription

/-! ### Descriptions with other labels -/

theorem exists_allDrafts_relabelled {series series' : List SeriesDescription} {drafts : List Draft}
    (h : List.Forall₂ SeriesDescription.SameButLabel series series')
    (hdrafts : allDrafts t series = .ok drafts) :
    ∃ drafts', allDrafts t series' = .ok drafts' ∧
      drafts'.map Draft.unlabelled = drafts.map Draft.unlabelled := by
  induction h generalizing drafts with
  | nil => exact ⟨[], rfl, by rw [← Except.ok.inj hdrafts]⟩
  | cons hs _ ih =>
    obtain ⟨expansion, behind, hexpansion, hbehind, rfl⟩ := allDrafts_cons_eq_ok_iff.1 hdrafts
    obtain ⟨expansion', hexpansion', hfirst⟩ := hs.exists_drafts hexpansion
    obtain ⟨behind', hbehind', hsame⟩ := ih hbehind
    refine ⟨expansion'.drafts ++ behind', ?_, ?_⟩
    · exact allDrafts_cons_eq_ok_iff.2 ⟨expansion', behind', hexpansion', hbehind', rfl⟩
    · rw [List.map_append, List.map_append, hfirst, hsame]

theorem draws_relabelled {d : FigureDescription} {series : List SeriesDescription}
    {strokes : List (List (List Point) × LineStyle × Colour)}
    (h : List.Forall₂ SeriesDescription.SameButLabel d.series series)
    (hdraws : d.Draws t strokes) : { d with series }.Draws t strokes := by
  obtain ⟨f, hf, hstrokes⟩ := hdraws
  obtain ⟨hcheck, drafts, hdrafts, rfl⟩ := outcome_eq_ok_iff.1 hf
  obtain ⟨hne, -, hseries⟩ := FigureDescription.check_eq_ok_iff.1 hcheck
  obtain ⟨drafts', hdrafts', hsame⟩ := exists_allDrafts_relabelled h hdrafts
  refine ⟨_, outcome_eq_ok_iff.2 ⟨FigureDescription.check_with_series hcheck ?_ ?_, drafts',
    hdrafts', rfl⟩, ?_⟩
  · rw [Ne, ← List.length_eq_zero_iff, ← h.length_eq, List.length_eq_zero_iff]
    exact hne
  · exact (forall_mem_iff_of_forall₂ (h.imp fun _ _ hs => hs.check_eq_ok_iff)).2 hseries
  · -- the strokes are those of the drafts without their labels, which are the same
    rw [← hstrokes]
    show (paintAll drafts').map Series.stroke = (paintAll drafts).map Series.stroke
    rw [strokes_paintAll drafts', hsame, ← strokes_paintAll drafts]

/-- **The labels of a description take no part in what it draws.** -/
theorem draws_relabelled_iff {d : FigureDescription} {series : List SeriesDescription}
    {strokes : List (List (List Point) × LineStyle × Colour)}
    (h : List.Forall₂ SeriesDescription.SameButLabel d.series series) :
    d.Draws t strokes ↔ { d with series }.Draws t strokes := by
  constructor
  · exact draws_relabelled h
  · have hback : List.Forall₂ SeriesDescription.SameButLabel series d.series :=
      h.flip.imp fun _ _ hs => SeriesDescription.SameButLabel.symm hs
    exact draws_relabelled hback

end LineChart
