import LineChart.Proofs.Figure.Keys
import LineChart.Proofs.Figure.Labels
import LineChart.Proofs.Table.Addresses
import LineChart.Proofs.Table.KeyTexts

/-!
# Labels of the lines of one series

The lines of a grouped series are labelled with the texts of their keys. So two of them have one label
exactly if their keys have one text, which different keys have if they are alike.

* `SeriesDescription.nodup_labels_iff` : the labels of the lines are distinct exactly if no two of the
  keys are alike.
* `load_groupLabels` : the labels of a figure that is drawn from a loaded table.
* `exists_lines_of_one_label` : a file from which two lines of one label are drawn.
-/

namespace LineChart

variable {s : SeriesDescription} {t : Table} {column : String} {keys : List Cell} {share : List Series}

/-- **The lines of a grouped series have distinct labels exactly if no two different keys are alike**,
provided that the label of the series has a mark. -/
theorem SeriesDescription.nodup_labels_iff (hmark : keyMark <:+: s.label.toList)
    (hkeys : t.Keys column keys) (h : List.Forall₂ (s.DrawsKey t column) keys share) :
    (share.map Series.label).Nodup ↔ ∀ j ∈ keys, ∀ k ∈ keys, j ≠ k → ¬ j.Alike k := by
  have hlabels : share.map Series.label = keys.map s.labelOf :=
    map_eq_map_of_forall₂ (h.imp fun _ _ hdraws => hdraws.label)
  rw [hlabels, List.nodup_map_iff_inj_on hkeys.1.nodup]
  constructor
  · intro hinjective j hj k hk hne halike
    exact hne (hinjective j hj k hk ((labelOf_eq_iff hmark).2 halike.display_eq))
  · intro hnot j hj k hk hlabel
    have hdisplay := (labelOf_eq_iff hmark).1 hlabel
    by_contra hne
    rcases (Cell.display_eq_iff ((hkeys.2 j).1 hj).1 ((hkeys.2 k).1 hk).1).1 hdisplay with
      heq | halike | halike
    · exact hne heq
    · exact hnot j hj k hk hne halike
    · exact hnot k hk j hj (Ne.symm hne) halike

/-- **The texts in a column of a delimited file are alike to no other key.** -/
theorem Table.Keys.not_alike_of_text {files : Files} {path : Path} (h : Table.load files path = .ok t)
    (hextension : path.extension = "csv") (hkeys : t.Keys column keys) {text : String}
    (htext : .text text ∈ keys) {k : Cell} (hk : k ∈ keys) : ¬ (Cell.text text).Alike k := by
  obtain ⟨bytes, -, hcolumns⟩ := Table.exists_bytes_of_load hextension h
  obtain ⟨-, row, c, hfirst, hcell⟩ := (hkeys.2 _).1 htext
  obtain ⟨place, -, hc⟩ := Table.FirstNamed.exists_position hfirst
  obtain ⟨field, -, hfield⟩ := Delimited.exists_fieldAt hcolumns hc hcell
  exact Delimited.not_alike_of_cell hfield.symm ((hkeys.2 k).1 hk).1

/-- **Which lines of one grouped series share a label.** In a figure that is drawn from a loaded table,
the lines of a series that is grouped by a column, and whose label has a mark, have distinct labels
exactly if no two different keys of the column are alike. Keys of a delimited file are not alike if one
of them is a text. An integer and a number that are alike have one value, and integers below `2 ^ 53`
are alike to the number of their value. -/
theorem load_groupLabels (files : Files) (path : Path) (t : Table)
    (h : Table.load files path = .ok t) (d : FigureDescription) (f : Figure)
    (hf : (resolve d t).outcome = .ok f) :
    (∃ shares : List (List Series), f.series = shares.flatten ∧
      List.Forall₂ (fun s share => s.Contributes t share ∧
        ∀ column, s.groupBy = some column → keyMark <:+: s.label.toList →
          ∃ keys, t.Keys column keys ∧ List.Forall₂ (s.DrawsKey t column) keys share ∧
            ((share.map Series.label).Nodup ↔ ∀ j ∈ keys, ∀ k ∈ keys, j ≠ k → ¬ j.Alike k) ∧
            (path.extension = "csv" → ∀ text, .text text ∈ keys → ∀ k ∈ keys,
              ¬ (Cell.text text).Alike k)) d.series shares) ∧
      ∀ (n : Int64) (x : Double), ((Cell.integer n).Alike (.number x) → x = .ofInt n.toInt) ∧
        (n.toInt.natAbs < 2 ^ 53 → ((Cell.integer n).Alike (.number x) ↔ x = .ofInt n.toInt)) := by
  refine ⟨?_, Cell.alike_integer_iff⟩
  obtain ⟨shares, hflatten, hshares⟩ := exists_contributions hf
  refine ⟨shares, hflatten, hshares.imp ?_⟩
  intro s share hcontributes
  refine ⟨hcontributes, ?_⟩
  intro column hgroup hmark
  obtain ⟨-, keys, -, hkeys, hdraws⟩ := hcontributes.exists_keys hgroup
  exact ⟨keys, hkeys, hdraws, SeriesDescription.nodup_labels_iff hmark hkeys hdraws,
    fun hextension _ htext _ hk => hkeys.not_alike_of_text h hextension htext hk⟩

/-- Requests to queues of all kinds, and requests to the queue `1` that is written in two ways. -/
def queueFiles : Files :=
  { entries := [(["kinds.csv"], .file (.ofText
        "queue_id,start_time,elapsed\n1,0,5\n2.5,10,6\nx,20,7\nTrue,30,8\n")),
      (["twice.csv"], .file (.ofText "queue_id,start_time,elapsed\n1,0,5\n1.0,10,6\n"))] }

theorem load_groupLabels_kinds :
    ∃ t f, Table.load queueFiles ⟨"kinds.csv"⟩ = .ok t ∧
      (resolve (Presets.requestTimeByQueue []) t).outcome = .ok f ∧
      f.series.map Series.label = ["Queue true", "Queue 1", "Queue 2.5", "Queue x"] ∧
      ∃ shares : List (List Series), f.series = shares.flatten ∧
        List.Forall₂ (fun s share => s.Contributes t share ∧
          ∀ column, s.groupBy = some column → keyMark <:+: s.label.toList →
            ∃ keys, t.Keys column keys ∧ List.Forall₂ (s.DrawsKey t column) keys share ∧
              ((share.map Series.label).Nodup ↔ ∀ j ∈ keys, ∀ k ∈ keys, j ≠ k → ¬ j.Alike k) ∧
              ((⟨"kinds.csv"⟩ : Path).extension = "csv" → ∀ text, .text text ∈ keys →
                ∀ k ∈ keys, ¬ (Cell.text text).Alike k))
          (Presets.requestTimeByQueue []).series shares := by
  have hloaded : (Table.load queueFiles ⟨"kinds.csv"⟩).toOption.map (fun t =>
      (resolve (Presets.requestTimeByQueue []) t).outcome.toOption.map
        fun f => f.series.map Series.label) =
      some (some ["Queue true", "Queue 1", "Queue 2.5", "Queue x"]) := by
    decide +kernel
  obtain ⟨t, ht, hlabels⟩ := exists_ok_of_map hloaded
  obtain ⟨f, hf, hseries⟩ := exists_ok_of_map hlabels
  exact ⟨t, f, ht, hf, hseries, (load_groupLabels queueFiles ⟨"kinds.csv"⟩ t ht _ f hf).1⟩

/-- **Two lines of one grouped series can share a label**: the queue `1` is an integer and the queue
`1.0` a number, and both are shown as `1`. -/
theorem exists_lines_of_one_label :
    (¬ ∀ (files : Files) (path : Path) (t : Table) (d : FigureDescription) (f : Figure)
      (s : SeriesDescription) (column : String), Table.load files path = .ok t → d.series = [s] →
      s.groupBy = some column → keyMark <:+: s.label.toList → (resolve d t).outcome = .ok f →
      (f.series.map Series.label).Nodup) ∧
    ∃ t f, Table.load queueFiles ⟨"twice.csv"⟩ = .ok t ∧
      (resolve (Presets.requestTimeByQueue []) t).outcome = .ok f ∧
      f.series.map Series.label = ["Queue 1", "Queue 1"] := by
  have hloaded : (Table.load queueFiles ⟨"twice.csv"⟩).toOption.map (fun t =>
      (resolve (Presets.requestTimeByQueue []) t).outcome.toOption.map
        fun f => f.series.map Series.label) = some (some ["Queue 1", "Queue 1"]) := by
    decide +kernel
  obtain ⟨t, ht, hlabels⟩ := exists_ok_of_map hloaded
  obtain ⟨f, hf, hseries⟩ := exists_ok_of_map hlabels
  refine ⟨?_, t, f, ht, hf, hseries⟩
  intro h
  have hmark : keyMark <:+: "Queue \x7bkey\x7d".toList := ⟨"Queue ".toList, [], by decide +kernel⟩
  have hdistinct := h queueFiles ⟨"twice.csv"⟩ t (Presets.requestTimeByQueue []) f _ "queue_id" ht rfl
    rfl hmark hf
  rw [hseries] at hdistinct
  exact absurd hdistinct (by decide)

end LineChart
