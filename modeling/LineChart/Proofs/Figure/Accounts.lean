import LineChart.Proofs.Figure.Blocks
import LineChart.Proofs.Figure.Content
import LineChart.Proofs.Figure.Log

/-!
# Rows accounted for

Each row that a series selects is a point of one of its lines or a gap in it, and each row that a
grouped series does not select is passed over for want of a key. The log warns of the gaps in a line
and of the rows passed over, and has their numbers.

* `Account` : the lines of a series, the rows that are gaps in each, and the rows passed over.
* `Account.warnings` : the warnings that the log has about them.
* `Account.Sound` : which lines, gaps and rows these are, said by the table.
* `Account.Balanced` : points, gaps and rows passed over add up to the rows that a series is about.
* `rows_accounted_for` : the series of a figure and the log are those of sound and balanced accounts.
-/

namespace LineChart

variable {t : Table}

/-! ### Gaps in one line -/

/-- A row leaves a gap in a series if a coordinate of its point is missing. -/
def SeriesDescription.GapAt (s : SeriesDescription) (t : Table) (row : Nat) : Prop :=
  ∃ p, s.PointAt t row p ∧ (p.x.isNaN = true ∨ p.y.isNaN = true)

theorem SeriesDescription.PointAt.gapAt_iff {s : SeriesDescription} {row : Nat} {p : Point}
    (h : s.PointAt t row p) : s.GapAt t row ↔ p.isGap = true := by
  rw [Point.isGap, Bool.or_eq_true]
  constructor
  · intro hgap
    obtain ⟨q, hq, hmissing⟩ := hgap
    rw [h.unique hq]
    exact hmissing
  · intro hmissing
    exact ⟨p, h, hmissing⟩

/-- The line of a part, and its gaps: the rows of the part without a point, in ascending order. Each
other row has its point on the line. -/
structure Part.AccountedBy (t : Table) (part : Part) (line : Series) (gaps : List Nat) : Prop where
  label : line.label = part.label
  ascending : gaps.Pairwise (· < ·)
  mem_gaps_iff : ∀ row, row ∈ gaps ↔ row ∈ part.rows ∧ part.source.GapAt t row
  pointCount_add : line.pointCount + gaps.length = part.rows.length

/-- The warning about the gaps in a line, if there are any. -/
def gapWarnings (line : Series) (gaps : List Nat) : List LogEntry :=
  if gaps = [] then [] else [.gaps line.label gaps.length]

theorem gapWarnings_eq (line : Series) (gaps : List Nat) : gapWarnings line gaps =
    if gaps.length = 0 then [] else [.gaps line.label gaps.length] := by
  cases gaps <;> rfl

theorem pointCount_add_gapCount {line : Series} {points : List Point}
    (h : line.runs = splitRuns points) : line.pointCount + gapCount points = points.length := by
  have hpoints : line.pointCount = points.countP fun p => !p.isGap := by
    rw [Series.pointCount, Series.points, h, flatten_splitRuns, List.countP_eq_length_filter]
  have hsplit := List.length_eq_countP_add_countP Point.isGap (l := points)
  simp only [Bool.not_eq_true, Bool.decide_eq_false] at hsplit
  rw [hpoints, gapCount, hsplit, Nat.add_comm]

/-- **The gaps in the line of a part** are counted once each, and warned of. -/
theorem Part.Drafted.exists_gaps {part : Part} {draft : Draft} {line : Series} {spare : Colour}
    (h : part.Drafted t draft) (hasc : part.rows.Pairwise (· < ·))
    (hline : draft.series spare = .ok line) :
    ∃ gaps, part.AccountedBy t line gaps ∧ gapWarnings line gaps = draft.warnings := by
  classical
  have hcount : (part.rows.filter fun row => part.source.GapAt t row).length =
      gapCount draft.points := by
    rw [← List.countP_eq_length_filter]
    refine countP_eq_countP_of_forall₂ (h.points.imp ?_)
    intro row p hp
    rw [Bool.eq_iff_iff, decide_eq_true_eq]
    exact hp.gapAt_iff
  have hlabel := Draft.label_of_series hline
  have hruns := Draft.runs_of_series hline
  refine ⟨part.rows.filter fun row => part.source.GapAt t row, ⟨?_, ?_, ?_, ?_⟩, ?_⟩
  · rw [hlabel, h.label]
  · exact hasc.sublist List.filter_sublist
  · intro row
    rw [List.mem_filter, decide_eq_true_eq]
  · rw [hcount, pointCount_add_gapCount hruns, h.points.length_eq]
  · rw [gapWarnings_eq, Draft.warnings, hcount, hlabel]

/-! ### The account of a series -/

/-- What becomes of the rows of a series: its lines, each with the rows that are gaps in it, and the
rows that are passed over. -/
structure Account where
  source : SeriesDescription
  lines : List (Series × List Nat)
  skipped : List Nat

namespace Account

/-- The warning about the rows that are passed over, if there are any. -/
def skipWarnings (a : Account) : List LogEntry :=
  match a.source.groupBy with
  | some column =>
    if a.skipped = [] then [] else [.skipped a.source.label a.skipped.length column]
  | none => []

/-- The warnings about a series: first the rows that are passed over, then the gaps line by line. -/
def warnings (a : Account) : List LogEntry :=
  a.skipWarnings ++ a.lines.flatMap fun entry => gapWarnings entry.1 entry.2

/-- The number of points of all lines. -/
def points (a : Account) : Nat := (a.lines.flatMap fun entry => entry.1.points).length

/-- The number of gaps in all lines. -/
def gaps (a : Account) : Nat := (a.lines.flatMap Prod.snd).length

/-- The account is that of a series: there is a line for each of its parts, and the rows passed over
are those of a grouped series without a key, in ascending order. -/
structure Sound (t : Table) (a : Account) : Prop where
  lines : ∃ parts, a.source.Expands t parts ∧
    List.Forall₂ (fun part entry => Part.AccountedBy t part entry.1 entry.2) parts a.lines
  skipped : ∀ column, a.source.groupBy = some column →
    t.RowsWhere column (fun cell => cell = .missing) a.skipped
  ungrouped : a.source.groupBy = none → a.skipped = []

/-- Every row that a series is about is a point, a gap or passed over: these are all rows of the
table, or the rows that pass the filter of a series that has one. -/
structure Balanced (t : Table) (a : Account) : Prop where
  grouped : ∀ column, a.source.groupBy = some column →
    a.points + a.gaps + a.skipped.length = t.length
  filtered : ∀ filter rows, a.source.groupBy = none → a.source.filter = some filter →
    t.RowsWhere filter.column (fun cell => cell.agrees (Cell.ofJson filter.wanted) = true) rows →
    a.points + a.gaps = rows.length
  whole : a.source.groupBy = none → a.source.filter = none → a.points + a.gaps = t.length

end Account

/-- The gaps in the lines of a series, line by line. -/
theorem exists_lines {parts : List Part} {drafts : List Draft} {share : List Series}
    (hdrafted : List.Forall₂ (Part.Drafted t) parts drafts)
    (hasc : ∀ part ∈ parts, part.rows.Pairwise (· < ·))
    (hshare : List.Forall₂ (fun draft line => ∃ spare, draft.series spare = .ok line) drafts share) :
    ∃ lines : List (Series × List Nat), lines.map Prod.fst = share ∧
      List.Forall₂ (fun part entry => Part.AccountedBy t part entry.1 entry.2) parts lines ∧
      lines.flatMap (fun entry => gapWarnings entry.1 entry.2) = drafts.flatMap Draft.warnings := by
  induction hdrafted generalizing share with
  | nil =>
    cases hshare
    exact ⟨[], rfl, .nil, rfl⟩
  | cons hfirst _ ih =>
    obtain ⟨line, rest, ⟨spare, hline⟩, hrest, rfl⟩ := List.forall₂_cons_left_iff.1 hshare
    obtain ⟨hascfirst, hascrest⟩ := List.forall_mem_cons.1 hasc
    obtain ⟨gaps, haccounted, hwarnings⟩ := hfirst.exists_gaps hascfirst hline
    obtain ⟨lines, rfl, hlines, hall⟩ := ih hascrest hrest
    refine ⟨(line, gaps) :: lines, rfl, .cons haccounted hlines, ?_⟩
    rw [List.flatMap_cons, List.flatMap_cons, hwarnings, hall]

/-- **A series has an account**, and the warnings about its drafts are those of the account. -/
theorem SeriesDescription.exists_account {s : SeriesDescription} {expansion : Expansion}
    {share : List Series} (h : s.drafts t = .ok expansion)
    (hshare : List.Forall₂ (fun draft line => ∃ spare, draft.series spare = .ok line)
      expansion.drafts share) :
    ∃ a : Account, a.source = s ∧ a.lines.map Prod.fst = share ∧ a.Sound t ∧
      a.warnings = expansion.warnings s.label := by
  obtain ⟨parts, hexpands, hdrafted⟩ := expands_of_drafts h
  obtain ⟨lines, hfst, hlines, hgaps⟩ := exists_lines hdrafted hexpands.ascending_rows hshare
  cases hg : s.groupBy with
  | none =>
    refine ⟨⟨s, lines, []⟩, rfl, hfst, ⟨⟨parts, hexpands, hlines⟩, ?_, fun _ => rfl⟩, ?_⟩
    · intro column hcolumn
      cases hg.symm.trans hcolumn
    · simp only [Account.warnings, Account.skipWarnings, Expansion.warnings, hg,
        skipped_of_ungrouped hg h, hgaps]
  | some column =>
    obtain ⟨c, hc, hskipped⟩ := skipped_of_groupBy hg h
    have hmissing : t.RowsWhere column (fun cell => cell = .missing)
        (rowsPassing (fun cell => decide (cell = .missing)) 0 c.cells) := by
      simpa only [decide_eq_true_eq] using hc.rowsWhere fun cell => decide (cell = .missing)
    refine ⟨⟨s, lines, rowsPassing (fun cell => decide (cell = .missing)) 0 c.cells⟩, rfl, hfst,
      ⟨⟨parts, hexpands, hlines⟩, ?_, ?_⟩, ?_⟩
    · intro column' hcolumn
      obtain rfl := Option.some.inj (hg.symm.trans hcolumn)
      exact hmissing
    · intro hnone
      cases hg.symm.trans hnone
    · rw [Groups.find?_ofCells] at hskipped
      simp only [Account.warnings, Account.skipWarnings, Expansion.warnings, hg, hgaps, hskipped]
      split
      · rfl
      · rfl

/-! ### The balance of a series -/

/-- The rows of the parts of some keys are the rows that hold one of the keys, each of them once. -/
theorem rows_of_keys {s : SeriesDescription} {column : String} {keys : List Cell} {parts : List Part}
    (h : List.Forall₂ (Part.OfKey s t column) keys parts) (hkeys : keys.Nodup) :
    (parts.flatMap Part.rows).Nodup ∧
      ∀ row, row ∈ parts.flatMap Part.rows ↔ ∃ k ∈ keys, t.CellAt column row k := by
  induction h with
  | nil => simp
  | @cons k part keys parts hpart _ ih =>
    obtain ⟨hnew, hkeys⟩ := List.nodup_cons.1 hkeys
    obtain ⟨hnodup, hmem⟩ := ih hkeys
    have hrows : ∀ row, row ∈ part.rows ↔ t.CellAt column row k := by
      intro row
      simp only [hpart.rows.2, Cell.order_eq_iff, exists_eq_right]
    rw [List.flatMap_cons]
    constructor
    · refine List.nodup_append'.2 ⟨hpart.rows.1.imp Nat.ne_of_lt, hnodup, ?_⟩
      intro row hrow hrest
      obtain ⟨k', hk', hcell⟩ := (hmem row).1 hrest
      rw [← ((hrows row).1 hrow).unique hcell] at hk'
      exact hnew hk'
    · intro row
      rw [List.mem_append, hrows, hmem, List.exists_mem_cons_iff]

/-- **The rows of a grouped series** are those of its parts and those without a key. -/
theorem length_rows_of_keys {s : SeriesDescription} {column : String} {keys : List Cell}
    {parts : List Part} {skipped : List Nat} {c : Column} (hc : t.FirstNamed column c)
    (hkeys : t.Keys column keys) (hparts : List.Forall₂ (Part.OfKey s t column) keys parts)
    (hskipped : t.RowsWhere column (fun cell => cell = .missing) skipped) :
    (parts.flatMap Part.rows).length + skipped.length = t.length := by
  obtain ⟨hnodup, hmem⟩ := rows_of_keys hparts hkeys.1.nodup
  have hperm : (parts.flatMap Part.rows ++ skipped).Perm (List.range t.length) := by
    refine (List.perm_ext_iff_of_nodup (List.nodup_append'.2
      ⟨hnodup, hskipped.1.imp Nat.ne_of_lt, ?_⟩) List.nodup_range).2 ?_
    · intro row hrow hskip
      obtain ⟨k, hk, hcell⟩ := (hmem row).1 hrow
      obtain ⟨_, hcell', rfl⟩ := (hskipped.2 row).1 hskip
      exact ((hkeys.2 k).1 hk).1 (hcell.unique hcell')
    · intro row
      rw [List.mem_append, hmem, hskipped.2, List.mem_range, hc.lt_length_iff]
      constructor
      · rintro (⟨k, -, hcell⟩ | ⟨cell, hcell, -⟩)
        · exact ⟨k, hcell⟩
        · exact ⟨cell, hcell⟩
      · rintro ⟨cell, hcell⟩
        by_cases hmissing : cell = .missing
        · exact .inr ⟨cell, hcell, hmissing⟩
        · exact .inl ⟨cell, (hkeys.2 cell).2 ⟨hmissing, row, hcell⟩, hcell⟩
  rw [← List.length_append, hperm.length_eq, List.length_range]

/-- Points and gaps of the lines of some parts are as many as the rows of the parts. -/
theorem length_points_add_gaps {parts : List Part} {lines : List (Series × List Nat)}
    (h : List.Forall₂ (fun part entry => Part.AccountedBy t part entry.1 entry.2) parts lines) :
    (lines.flatMap fun entry => entry.1.points).length + (lines.flatMap Prod.snd).length =
      (parts.flatMap Part.rows).length := by
  induction h with
  | nil => rfl
  | cons hfirst _ ih =>
    have hcount := hfirst.pointCount_add
    rw [Series.pointCount] at hcount
    simp only [List.flatMap_cons, List.length_append]
    omega

/-- **Sound accounts are balanced**, as a cell is missing or a key. The column of a grouped series has
to be there, or no row of the table has a cell in it. -/
theorem Account.Sound.balanced {a : Account} (h : a.Sound t)
    (hcolumn : ∀ column, a.source.groupBy = some column → ∃ c, t.FirstNamed column c) :
    a.Balanced t := by
  obtain ⟨parts, hexpands, hlines⟩ := h.lines
  have hcount : a.points + a.gaps = (parts.flatMap Part.rows).length := length_points_add_gaps hlines
  refine ⟨?_, ?_, ?_⟩
  · intro column hg
    cases hexpands with
    | whole hnone _ => cases hnone.symm.trans hg
    | filtered hnone _ _ => cases hnone.symm.trans hg
    | grouped hg' hkeys hparts =>
      obtain rfl := Option.some.inj (hg'.symm.trans hg)
      obtain ⟨c, hc⟩ := hcolumn _ hg
      rw [hcount, length_rows_of_keys hc hkeys hparts (h.skipped _ hg)]
  · intro filter rows hg hf hrows
    cases hexpands with
    | whole _ hnone => cases hnone.symm.trans hf
    | filtered _ hf' hrows' =>
      obtain rfl := Option.some.inj (hf'.symm.trans hf)
      rw [hcount, hrows.unique hrows', List.flatMap_singleton]
    | grouped hg' _ _ => cases hg.symm.trans hg'
  · intro hg hf
    cases hexpands with
    | whole _ _ => rw [hcount, List.flatMap_singleton, List.length_range]
    | filtered _ hf' _ => cases hf.symm.trans hf'
    | grouped hg' _ _ => cases hg.symm.trans hg'

/-! ### The log -/

/-- The accounts of some series, their lines and warnings one series after the other. -/
theorem exists_accounts {series : List SeriesDescription} {expansions : List Expansion}
    {shares : List (List Series)}
    (hall : List.Forall₂ (fun s expansion => s.drafts t = .ok expansion) series expansions)
    (hshares : List.Forall₂ (fun expansion share => List.Forall₂
      (fun draft line => ∃ spare, draft.series spare = .ok line) expansion.drafts share)
      expansions shares) :
    ∃ accounts : List Account, accounts.map Account.source = series ∧
      (∀ a ∈ accounts, a.Sound t ∧ a.Balanced t) ∧
      accounts.flatMap (fun a => a.lines.map Prod.fst) = shares.flatten ∧
      accounts.flatMap Account.warnings =
        (series.zip expansions).flatMap fun entry => entry.2.warnings entry.1.label := by
  induction hall generalizing shares with
  | nil =>
    cases hshares
    exact ⟨[], rfl, by simp, rfl, rfl⟩
  | cons hs _ ih =>
    obtain ⟨share, rest, hshare, hrest, rfl⟩ := List.forall₂_cons_left_iff.1 hshares
    obtain ⟨a, hsource, hlines, hsound, hwarnings⟩ := SeriesDescription.exists_account hs hshare
    obtain ⟨accounts, hsources, haccounts, hshares, hlog⟩ := ih hrest
    have hbalanced : a.Balanced t := by
      refine hsound.balanced ?_
      intro column hg
      rw [hsource] at hg
      obtain ⟨c, hc, -⟩ := SeriesDescription.skipped_of_groupBy hg hs
      exact ⟨c, hc⟩
    refine ⟨a :: accounts, ?_, List.forall_mem_cons.2 ⟨⟨hsound, hbalanced⟩, haccounts⟩, ?_, ?_⟩
    · rw [List.map_cons, hsource, hsources]
    · rw [List.flatMap_cons, List.flatten_cons, hlines, hshares]
    · rw [List.flatMap_cons, List.zip_cons_cons, List.flatMap_cons, hwarnings, hlog]

/-- **Every row is accounted for.** The series of a figure are the lines of accounts, one account for
each series of the description, which are sound and balanced. The log has the warnings of the
accounts in the order of the series, and behind them the numbers of points and runs of each series of
the figure. -/
theorem rows_accounted_for {d : FigureDescription} {f : Figure}
    (h : (resolve d t).outcome = .ok f) :
    ∃ accounts : List Account, accounts.map Account.source = d.series ∧
      (∀ a ∈ accounts, a.Sound t ∧ a.Balanced t) ∧
      f.series = accounts.flatMap (fun a => a.lines.map Prod.fst) ∧
      (resolve d t).log = accounts.flatMap Account.warnings ++
        f.series.map fun line => .drawn line.label line.pointCount line.runs.length := by
  obtain ⟨hcheck, drafts, hdrafts, rfl⟩ := outcome_eq_ok_iff.1 h
  obtain ⟨expansions, hall, rfl⟩ := allDrafts_eq_ok_iff.1 hdrafts
  obtain ⟨shares, hflatten, hshares⟩ := exists_shares_paintAll fun draft hmem =>
    readable_of_mem_allDrafts (FigureDescription.check_eq_ok_iff.1 hcheck).2.2 hdrafts hmem
  obtain ⟨accounts, hsources, haccounts, hlines, hwarnings⟩ := exists_accounts hall hshares
  refine ⟨accounts, hsources, haccounts, hflatten.trans hlines.symm, ?_⟩
  rw [log_of_check hcheck hall, hwarnings]
  rfl

/-- A request to queue 1, one without a queue, and two to queue 0, of which the first has no elapsed
time. -/
def brokenQueue : Table := requestTable [.integer 1, .missing, .integer 0, .integer 0]

/-- Both lines of queue 0 have the gap. -/
theorem rows_accounted_for_brokenQueue :
    ∃ f, (resolve requestLines brokenQueue).outcome = .ok f ∧
      (resolve requestLines brokenQueue).log =
        [.skipped "Queue \x7bkey\x7d" 1 "queue_id", .gaps "Queue 0" 1, .gaps "first queue" 1,
          .drawn "Queue 0" 1 1, .drawn "Queue 1" 1 1, .drawn "first queue" 1 1] ∧
      ∃ accounts : List Account, accounts.map Account.source = requestLines.series ∧
        (∀ a ∈ accounts, a.Sound brokenQueue ∧ a.Balanced brokenQueue) ∧
        f.series = accounts.flatMap fun a => a.lines.map Prod.fst := by
  have hlog : (resolve requestLines brokenQueue).log =
      [.skipped "Queue \x7bkey\x7d" 1 "queue_id", .gaps "Queue 0" 1, .gaps "first queue" 1,
        .drawn "Queue 0" 1 1, .drawn "Queue 1" 1 1, .drawn "first queue" 1 1] := by
    decide +kernel
  have hlabels : (resolve requestLines brokenQueue).outcome.toOption.map
      (fun f => f.series.map Series.label) = some ["Queue 0", "Queue 1", "first queue"] := by
    decide +kernel
  obtain ⟨f, hf, -⟩ := exists_ok_of_map hlabels
  obtain ⟨accounts, hsources, haccounts, hlines, -⟩ := rows_accounted_for hf
  exact ⟨f, hf, hlog, accounts, hsources, haccounts, hlines⟩

end LineChart
