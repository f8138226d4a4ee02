import LineChart.Proofs.Figure.Contribution

/-!
# One line for each key

A series that is grouped by a column contributes one line for each key of the column, the keys
ascending. Missing cells are no keys.

* `SeriesDescription.DrawsKey` : the line of a key.
* `SeriesDescription.Contributes.exists_keys` : the lines of a grouped series are those of its keys.
-/

namespace LineChart

/-- The line of a key: it has the label that the key is filled into, and it is drawn from the points of
the rows that hold the key. -/
structure SeriesDescription.DrawsKey (s : SeriesDescription) (t : Table) (column : String) (k : Cell)
    (line : Series) : Prop where
  label : line.label = s.labelOf k
  runs : ∃ rows points, t.RowsWhere column (fun cell => cell.order k = .eq) rows ∧
    List.Forall₂ (s.PointAt t) rows points ∧ line.runs = splitRuns points

variable {s : SeriesDescription} {t : Table} {column : String} {share : List Series}

/-- **A grouped series contributes one line for each key** of its column, in the order of keys. -/
theorem SeriesDescription.Contributes.exists_keys (h : s.Contributes t share)
    (hg : s.groupBy = some column) :
    ∃ c keys, t.FirstNamed column c ∧ t.Keys column keys ∧
      List.Forall₂ (s.DrawsKey t column) keys share := by
  obtain ⟨⟨drafts, skipped⟩, hdrafts, hshare⟩ := h
  obtain ⟨points, hp, hfrom⟩ := exists_draftsFrom hdrafts
  cases hfrom with
  | @grouped column' c hg' hc _ =>
    obtain rfl : column' = column := Option.some.inj (hg'.symm.trans hg)
    refine ⟨c, _, hc, hc.keys_iff.2 rfl, (List.forall₂_map_left_iff.1 hshare).imp ?_⟩
    rintro k line ⟨spare, hline⟩
    exact ⟨Draft.label_of_series hline, _, _, rowsWhere_key hc k,
      (drafted_draftWhere hp hc (s.labelOf k) _).points, Draft.runs_of_series hline⟩
  | filtered hg' => rw [hg] at hg'; cases hg'
  | whole hg' => rw [hg] at hg'; cases hg'

end LineChart
