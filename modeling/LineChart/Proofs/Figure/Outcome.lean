import LineChart.Proofs.Description.Check
import LineChart.Proofs.Figure.Drafts

/-!
# The outcome of resolving

Resolving keeps a log beside its outcome. Without the log, the outcome is a check, the drafts of all
series one after the other, and a colour for each draft, which never fails after the check.

* `allDrafts` : the drafts of all series, or the first error.
* `paintAll` : the series of some drafts, the palette spread over all of them.
* `outcome_of_check` : the outcome of a description that passes its check.
-/

namespace LineChart

variable {t : Table}

/-! ### Drafts of all series -/

/-- The drafts of some series, one series after the other, or the first error. -/
def allDrafts (t : Table) : List SeriesDescription → Except ResolveError (List Draft)
  | [] => .ok []
  | s :: rest =>
    match s.drafts t with
    | .error e => .error e
    | .ok expansion => (allDrafts t rest).map (expansion.drafts ++ ·)

/-- The log takes no part in the drafts. -/
theorem expandAll_snd (t : Table) (log : List LogEntry) (series : List SeriesDescription) :
    (expandAll t log series).2 = allDrafts t series := by
  induction series generalizing log with
  | nil => rfl
  | cons s rest ih =>
    rw [expandAll, allDrafts]
    cases s.drafts t with
    | error e => rfl
    | ok expansion => exact congrArg (Except.map _) (ih _)

theorem allDrafts_cons {s : SeriesDescription} {rest : List SeriesDescription}
    {expansion : Expansion} (h : s.drafts t = .ok expansion) :
    allDrafts t (s :: rest) = (allDrafts t rest).map (expansion.drafts ++ ·) := by
  rw [allDrafts, h]

theorem allDrafts_cons_error {s : SeriesDescription} {rest : List SeriesDescription}
    {e : ResolveError} (h : s.drafts t = .error e) : allDrafts t (s :: rest) = .error e := by
  rw [allDrafts, h]

theorem allDrafts_cons_eq_ok_iff {s : SeriesDescription} {rest : List SeriesDescription}
    {drafts : List Draft} : allDrafts t (s :: rest) = .ok drafts ↔ ∃ expansion behind,
      s.drafts t = .ok expansion ∧ allDrafts t rest = .ok behind ∧
        expansion.drafts ++ behind = drafts := by
  cases hs : s.drafts t with
  | error e => simp [allDrafts_cons_error hs]
  | ok expansion =>
    rw [allDrafts_cons hs, map_eq_ok_iff]
    simp

/-- **All drafts are there if every series has drafts**, and they are those of the series in order. -/
theorem allDrafts_eq_ok_iff {series : List SeriesDescription} {drafts : List Draft} :
    allDrafts t series = .ok drafts ↔ ∃ expansions,
      List.Forall₂ (fun s expansion => s.drafts t = .ok expansion) series expansions ∧
        drafts = expansions.flatMap Expansion.drafts := by
  induction series generalizing drafts with
  | nil => simp [allDrafts, eq_comm]
  | cons s rest ih =>
    rw [allDrafts_cons_eq_ok_iff]
    constructor
    · intro h
      obtain ⟨expansion, behind, hs, hbehind, hdrafts⟩ := h
      obtain ⟨expansions, hall, rfl⟩ := ih.1 hbehind
      exact ⟨expansion :: expansions, .cons hs hall, hdrafts.symm⟩
    · intro h
      obtain ⟨expansions, hall, rfl⟩ := h
      obtain ⟨expansion, behind, hs, hrest, rfl⟩ := List.forall₂_cons_left_iff.1 hall
      exact ⟨expansion, _, hs, ih.2 ⟨behind, hrest, rfl⟩, List.flatMap_cons.symm⟩

theorem allDrafts_cons_eq_error_iff {s : SeriesDescription} {rest : List SeriesDescription}
    {e : ResolveError} : allDrafts t (s :: rest) = .error e ↔
      s.drafts t = .error e ∨ (∃ expansion, s.drafts t = .ok expansion) ∧ allDrafts t rest = .error e := by
  cases hs : s.drafts t with
  | error e' => simp [allDrafts_cons_error hs]
  | ok expansion =>
    rw [allDrafts_cons hs, map_eq_error_iff]
    simp

/-- **The error is the one of the first series that has one.** -/
theorem allDrafts_eq_error_iff {series : List SeriesDescription} {e : ResolveError} :
    allDrafts t series = .error e ↔ ∃ before s after, series = before ++ s :: after ∧
      (∀ b ∈ before, ∃ expansion, b.drafts t = .ok expansion) ∧ s.drafts t = .error e := by
  induction series with
  | nil => simp [allDrafts]
  | cons s rest ih => rw [allDrafts_cons_eq_error_iff, ih, exists_first_cons_iff]

theorem allDrafts_append_eq_ok_iff {as bs : List SeriesDescription} {drafts : List Draft} :
    allDrafts t (as ++ bs) = .ok drafts ↔ ∃ xs ys, allDrafts t as = .ok xs ∧
      allDrafts t bs = .ok ys ∧ drafts = xs ++ ys := by
  induction as generalizing drafts with
  | nil => simp [allDrafts]
  | cons s rest ih =>
    simp only [List.cons_append, allDrafts_cons_eq_ok_iff, ih]
    constructor
    · intro h
      obtain ⟨expansion, _, hs, ⟨xs, ys, hxs, hys, rfl⟩, rfl⟩ := h
      exact ⟨_, ys, ⟨expansion, xs, hs, hxs, rfl⟩, hys, (List.append_assoc _ _ _).symm⟩
    · intro h
      obtain ⟨_, ys, ⟨expansion, xs, hs, hxs, rfl⟩, hys, rfl⟩ := h
      exact ⟨expansion, _, hs, ⟨xs, ys, hxs, hys, rfl⟩, (List.append_assoc _ _ _).symm⟩

/-! ### Colours -/

namespace Draft

/-- The colour of a draft, which is a spare one if its own cannot be read. -/
def paint (d : Draft) (spare : Colour) : Colour :=
  match d.colour with
  | none => spare
  | some text =>
    match Colour.read text with
    | .colour c => c
    | _ => spare

/-- A draft with its colour. -/
def painted (d : Draft) (spare : Colour) : Series :=
  ⟨d.label, splitRuns d.points, d.style, d.paint spare⟩

theorem series_eq_ok {d : Draft} (h : Readable d.colour) (spare : Colour) :
    d.series spare = .ok (d.painted spare) := by
  rw [series, painted, paint]
  cases hcolour : d.colour with
  | none => rfl
  | some text =>
    obtain ⟨c, hc⟩ := h text hcolour
    simp only [hc]

/-- A series is its draft in some colour. -/
theorem exists_colour_of_series {d : Draft} {spare : Colour} {line : Series}
    (h : d.series spare = .ok line) :
    ∃ colour, line = ⟨d.label, splitRuns d.points, d.style, colour⟩ := by
  rw [series] at h
  split at h
  · cases h
    exact ⟨_, rfl⟩
  · split at h
    · cases h
      exact ⟨_, rfl⟩
    · cases h

theorem runs_of_series {d : Draft} {spare : Colour} {line : Series}
    (h : d.series spare = .ok line) : line.runs = splitRuns d.points := by
  obtain ⟨_, rfl⟩ := exists_colour_of_series h
  rfl

theorem label_of_series {d : Draft} {spare : Colour} {line : Series}
    (h : d.series spare = .ok line) : line.label = d.label := by
  obtain ⟨_, rfl⟩ := exists_colour_of_series h
  rfl

theorem paint_of_none {d : Draft} (h : d.colour = none) (spare : Colour) : d.paint spare = spare := by
  rw [paint, h]

theorem read_of_some {d : Draft} {text : String} (hr : Readable d.colour) (h : d.colour = some text)
    (spare : Colour) : Colour.read text = .colour (d.paint spare) := by
  obtain ⟨c, hc⟩ := hr text h
  rw [paint, h]
  simp only [hc]

end Draft

/-- **No colour is lost** among drafts whose colours can be read. -/
theorem finishAll_snd {pairs : List (Draft × Colour)} (h : ∀ pair ∈ pairs, Readable pair.1.colour)
    (log : List LogEntry) :
    (finishAll log pairs).2 = .ok (pairs.map fun pair => pair.1.painted pair.2) := by
  induction pairs generalizing log with
  | nil => rfl
  | cons pair rest ih =>
    obtain ⟨draft, spare⟩ := pair
    obtain ⟨hfirst, hrest⟩ := List.forall_mem_cons.1 h
    rw [finishAll, Draft.series_eq_ok hfirst]
    show ((finishAll _ rest).2.map (draft.painted spare :: ·)) = _
    rw [ih hrest]
    rfl

/-- The series of some drafts, the palette spread over all of them. -/
def paintAll (drafts : List Draft) : List Series :=
  (drafts.zip (palette drafts.length)).map fun pair => pair.1.painted pair.2

theorem length_palette (n : Nat) : (palette n).length = n := by
  rw [palette, List.length_map, List.length_range]

theorem length_paintAll (drafts : List Draft) : (paintAll drafts).length = drafts.length := by
  rw [paintAll, List.length_map, List.length_zip, length_palette, Nat.min_self]

/-! ### The outcome -/

theorem SeriesDescription.DraftsFrom.style_colour {s : SeriesDescription} {points : List Point}
    {drafts : List Draft} (h : s.DraftsFrom t points drafts) {draft : Draft}
    (hmem : draft ∈ drafts) : draft.style = s.style ∧ draft.colour = s.colour := by
  cases h with
  | grouped =>
    obtain ⟨k, -, rfl⟩ := List.mem_map.1 hmem
    exact ⟨rfl, rfl⟩
  | filtered =>
    rw [List.mem_singleton.1 hmem]
    exact ⟨rfl, rfl⟩
  | whole =>
    rw [List.mem_singleton.1 hmem]
    exact ⟨rfl, rfl⟩

/-- After the check, the colours of all drafts can be read. -/
theorem readable_of_mem_allDrafts {series : List SeriesDescription} {drafts : List Draft}
    (hcheck : ∀ s ∈ series, s.check = .ok ()) (h : allDrafts t series = .ok drafts)
    {draft : Draft} (hmem : draft ∈ drafts) : Readable draft.colour := by
  obtain ⟨expansions, hall, rfl⟩ := allDrafts_eq_ok_iff.1 h
  obtain ⟨expansion, hexpansion, hdraft⟩ := List.mem_flatMap.1 hmem
  obtain ⟨s, hs, hdrafts⟩ : ∃ s ∈ series, s.drafts t = .ok expansion := by
    obtain ⟨i, hi, rfl⟩ := List.mem_iff_getElem.1 hexpansion
    have hi' : i < series.length := by rw [hall.length_eq]; exact hi
    exact ⟨series[i], List.getElem_mem hi', hall.get hi' hi⟩
  obtain ⟨points, -, hfrom⟩ := SeriesDescription.exists_draftsFrom hdrafts
  rw [(hfrom.style_colour hdraft).2]
  exact (SeriesDescription.check_eq_ok_iff.1 (hcheck s hs)).1

theorem outcome_of_check_error {d : FigureDescription} {e : DescriptionError}
    (h : d.check = .error e) : (resolve d t).outcome = .error (.description e) := by
  rw [resolve, h]

/-- **The outcome of a description that passes its check** is the figure of all its drafts. -/
theorem outcome_of_check {d : FigureDescription} (h : d.check = .ok ()) :
    (resolve d t).outcome = (allDrafts t d.series).map fun drafts => d.figure (paintAll drafts) := by
  rcases hpair : expandAll t [] d.series with ⟨log, expanded⟩
  have hexpand : expanded = allDrafts t d.series := by
    rw [← expandAll_snd t [], hpair]
  subst hexpand
  rw [resolve, h]
  simp only [hpair]
  cases hdrafts : allDrafts t d.series with
  | error e => rfl
  | ok drafts =>
    have hreadable : ∀ pair ∈ drafts.zip (palette drafts.length), Readable pair.1.colour := by
      intro pair hmem
      exact readable_of_mem_allDrafts (FigureDescription.check_eq_ok_iff.1 h).2.2 hdrafts
        (List.of_mem_zip hmem).1
    show (finishAll log _).2.map d.figure = _
    rw [finishAll_snd hreadable]
    rfl

theorem outcome_eq_ok_iff {d : FigureDescription} {f : Figure} :
    (resolve d t).outcome = .ok f ↔ d.check = .ok () ∧ ∃ drafts,
      allDrafts t d.series = .ok drafts ∧ f = d.figure (paintAll drafts) := by
  cases h : d.check with
  | error e => simp [outcome_of_check_error h]
  | ok _ =>
    rw [outcome_of_check h, map_eq_ok_iff]
    simp [eq_comm]

end LineChart
