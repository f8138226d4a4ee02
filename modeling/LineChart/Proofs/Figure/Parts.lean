import LineChart.Proofs.Figure.Labels
import LineChart.Proofs.Figure.Outcome

/-!
# Parts of a series

A series of a description stands for parts: labelled sets of rows, each of which is drawn as a line.
What the parts of a series are is said by the table alone.

* `Part` : a label and the rows that it stands for.
* `SeriesDescription.Expands` : the parts of a series that is grouped, filtered or neither.
* `SeriesDescription.expands_of_drafts` : the drafts of a series are drafts of its parts, in order.
-/

namespace LineChart

/-- The rows that one line is drawn from, with its label and the series that asks for it. -/
structure Part where
  source : SeriesDescription
  label : String
  rows : List Nat

/-- The part of a key: it has the label with the key filled in, and the rows that hold the key. -/
structure Part.OfKey (s : SeriesDescription) (t : Table) (column : String) (k : Cell)
    (part : Part) : Prop where
  source : part.source = s
  label : KeyFilled k.display.toList s.label.toList part.label.toList
  rows : t.RowsWhere column (fun cell => cell.order k = .eq) part.rows

/-- The parts of a series: all rows, the rows that pass its filter, or one part for each key of its
column, the keys ascending. -/
inductive SeriesDescription.Expands (s : SeriesDescription) (t : Table) : List Part → Prop
  | whole : s.groupBy = none → s.filter = none → Expands s t [⟨s, s.label, List.range t.length⟩]
  | filtered {f : RowFilter} {rows : List Nat} : s.groupBy = none → s.filter = some f →
      t.RowsWhere f.column (fun cell => cell.agrees (Cell.ofJson f.wanted) = true) rows →
      Expands s t [⟨s, s.label, rows⟩]
  | grouped {column : String} {keys : List Cell} {parts : List Part} : s.groupBy = some column →
      t.Keys column keys → List.Forall₂ (Part.OfKey s t column) keys parts → Expands s t parts

/-- A draft of a part: it has the points of the rows of the part, one for each. -/
structure Part.Drafted (t : Table) (part : Part) (draft : Draft) : Prop where
  label : draft.label = part.label
  style : draft.style = part.source.style
  colour : draft.colour = part.source.colour
  points : List.Forall₂ (part.source.PointAt t) part.rows draft.points

namespace SeriesDescription

variable {s : SeriesDescription} {t : Table} {points : List Point} {c : Column}

/-- The rows that pass a test in a column give a draft of the part of these rows. -/
theorem drafted_draftWhere {column : String} (hp : s.points t = .ok points)
    (hc : t.FirstNamed column c) (label : String) (test : Cell → Bool) :
    Part.Drafted t ⟨s, label, rowsPassing test 0 c.cells⟩
      (s.draftWhere label points test c.cells) := by
  have hrows : ∀ row ∈ rowsPassing test 0 c.cells, row < t.length := by
    intro row hrow
    obtain ⟨cell, hcell, -⟩ := ((hc.rowsWhere test).2 row).1 hrow
    exact hcell.lt_length
  exact ⟨rfl, rfl, rfl, forall₂_pick (forall₂_pointAt hp) hrows⟩

theorem rowsWhere_key {column : String} (hc : t.FirstNamed column c) (k : Cell) :
    t.RowsWhere column (fun cell => cell.order k = .eq)
      (rowsPassing (fun cell => decide (cell = k)) 0 c.cells) := by
  have hrows := hc.rowsWhere fun cell => decide (cell = k)
  refine ⟨hrows.1, ?_⟩
  intro row
  rw [hrows.2 row]
  simp only [decide_eq_true_eq, Cell.order_eq_iff]

/-- **The drafts of a series are drafts of its parts**, in order. -/
theorem expands_of_drafts {expansion : Expansion} (h : s.drafts t = .ok expansion) :
    ∃ parts, s.Expands t parts ∧ List.Forall₂ (Part.Drafted t) parts expansion.drafts := by
  obtain ⟨drafts, skipped⟩ := expansion
  obtain ⟨points, hp, hfrom⟩ := exists_draftsFrom h
  cases hfrom with
  | @grouped column c hg hc hne =>
    -- the part of a key has the rows that the draft of the key has
    let part (k : Cell) : Part :=
      ⟨s, s.labelOf k, rowsPassing (fun cell => decide (cell = k)) 0 c.cells⟩
    refine ⟨(Groups.presentKeys (Groups.ofCells 0 c.cells)).map part,
      .grouped hg (hc.keys_iff.2 rfl) ?_, ?_⟩
    · rw [List.forall₂_map_right_iff, List.forall₂_same]
      intro k _
      exact ⟨rfl, keyFilled_labelOf s k, rowsWhere_key hc k⟩
    · rw [List.forall₂_map_right_iff, List.forall₂_map_left_iff, List.forall₂_same]
      intro k _
      exact drafted_draftWhere hp hc (s.labelOf k) _
  | @filtered f c hg hf hc hcell =>
    exact ⟨_, .filtered hg hf (hc.rowsWhere (·.agrees (Cell.ofJson f.wanted))),
      .cons (drafted_draftWhere hp hc s.label _) .nil⟩
  | whole hg hf =>
    exact ⟨_, .whole hg hf, .cons ⟨rfl, rfl, rfl, forall₂_pointAt hp⟩ .nil⟩

end SeriesDescription

/-! ### Parts of all series -/

/-- Two relations in a row, from one list to another, pass through a list between them. -/
theorem forall₂_comp_iff {α β γ : Type} {P : α → γ → Prop} {Q : γ → β → Prop} {as : List α}
    {bs : List β} : List.Forall₂ (fun a b => ∃ c, P a c ∧ Q c b) as bs ↔
      ∃ cs, List.Forall₂ P as cs ∧ List.Forall₂ Q cs bs := by
  constructor
  · intro h
    induction h with
    | nil => exact ⟨[], .nil, .nil⟩
    | cons hab _ ih =>
      obtain ⟨c, hp, hq⟩ := hab
      obtain ⟨cs, hps, hqs⟩ := ih
      exact ⟨c :: cs, .cons hp hps, .cons hq hqs⟩
  · intro h
    obtain ⟨cs, hps, hqs⟩ := h
    induction hps generalizing bs with
    | nil =>
      cases hqs
      exact .nil
    | cons hp _ ih =>
      cases hqs with
      | cons hq hqs => exact .cons ⟨_, hp, hq⟩ (ih hqs)

/-- **The drafts of a description are drafts of the parts of its series**, in order. -/
theorem expands_of_allDrafts {t : Table} {series : List SeriesDescription} {drafts : List Draft}
    (h : allDrafts t series = .ok drafts) :
    ∃ parts : List (List Part),
      List.Forall₂ (fun s parts => s.Expands t parts) series parts ∧
        List.Forall₂ (Part.Drafted t) parts.flatten drafts := by
  obtain ⟨expansions, hall, rfl⟩ := allDrafts_eq_ok_iff.1 h
  have hparts : List.Forall₂ (fun s expansion => ∃ parts : List Part,
      s.Expands t parts ∧ List.Forall₂ (Part.Drafted t) parts expansion.drafts) series expansions :=
    hall.imp fun _ _ hs => SeriesDescription.expands_of_drafts hs
  obtain ⟨parts, hexpands, hdrafted⟩ := forall₂_comp_iff.1 hparts
  refine ⟨parts, hexpands, ?_⟩
  rw [List.flatMap_def]
  exact List.rel_flatten (List.forall₂_map_right_iff.2 hdrafted)

/-! ### A table of requests -/

/-- A table of requests to some queues, which the examples speak of. The requests start ten units
apart, and the third one has no elapsed time. -/
def requestTable (queues : List Cell) : Table where
  columns :=
    [⟨"queue_id", queues⟩,
     ⟨"start_time", queues.zipIdx.map fun entry => .integer (10 * .ofNat entry.2)⟩,
     ⟨"elapsed", queues.zipIdx.map fun entry =>
        if entry.2 = 2 then .missing else .integer (5 + .ofNat entry.2)⟩]
  rectangular := by simp [rowCount]

/-- Requests to two queues, and one without a queue. -/
def twoQueues : Table := requestTable [.integer 1, .missing, .integer 0, .integer 1]

/-- A table of requests, each with its start time and its elapsed time. -/
def timedRequests (times : List (Cell × Cell)) : Table where
  columns := [⟨"start_time", times.map Prod.fst⟩, ⟨"elapsed", times.map Prod.snd⟩]
  rectangular := by simp [rowCount]

end LineChart
