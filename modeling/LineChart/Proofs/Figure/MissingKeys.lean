import LineChart.Proofs.Figure.Keys
import LineChart.Proofs.Table.Addresses
import LineChart.Proofs.Table.NotNumbers

/-!
# Missing keys of a delimited file

A field of a delimited file that is a text for a missing cell is no key, so no line is drawn for it. Of
the spellings of NaN, four are such texts. Each other one gives a cell that holds NaN, which is a key,
so a line is drawn for it.

* `Delimited.MissingAt`, `Delimited.NaNAt` : the fields that give a missing cell, and those that give
  NaN.
* `Table.load_notNumbers` : the cells of a loaded table that are missing or NaN, and the lines of a
  figure that are drawn for NaN.
* `Table.exists_line_of_nan` : a file from which such a line is drawn.
-/

namespace LineChart

namespace Delimited

/-- The field in a row and at a place is a text for a missing cell. -/
def MissingAt (bytes : List UInt8) (row place : Nat) : Prop :=
  ∃ text, FieldAt bytes row place text ∧ text ∈ missingTexts

/-- The field in a row and at a place spells NaN in another way than as a missing cell. -/
def NaNAt (bytes : List UInt8) (row place : Nat) : Prop :=
  ∃ text, FieldAt bytes row place text ∧ SpellsNaN text.toList ∧ text ∉ missingNaNs

variable {bytes : List UInt8} {columns : List Column} {place row : Nat} {c : Column}

theorem missing_iff_missingAt (h : Delimited.columns bytes = .ok columns)
    (hc : columns[place]? = some c) : c.cells[row]? = some .missing ↔ MissingAt bytes row place := by
  rw [cell_of_columns h hc]
  refine exists_congr fun text => and_congr_right fun _ => ?_
  rw [← cell_missing_iff]
  exact eq_comm

theorem isNaN_iff_nanAt (h : Delimited.columns bytes = .ok columns)
    (hc : columns[place]? = some c) :
    (∃ x, c.cells[row]? = some (Cell.number x) ∧ x.isNaN = true) ↔ NaNAt bytes row place := by
  simp only [cell_of_columns h hc]
  constructor
  · intro hcell
    obtain ⟨x, ⟨text, hfield, hx⟩, hnan⟩ := hcell
    exact ⟨text, hfield, cell_isNaN_iff.1 ⟨x, hx.symm, hnan⟩⟩
  · intro hfield
    obtain ⟨text, hfield, hspells⟩ := hfield
    obtain ⟨x, hx, hnan⟩ := cell_isNaN_iff.2 hspells
    exact ⟨x, ⟨text, hfield, hx.symm⟩, hnan⟩

end Delimited

/-- A column has a key that is NaN exactly if one of its cells is. -/
theorem Table.FirstNamed.nan_mem_keys_iff {t : Table} {name : String} {c : Column} {keys : List Cell}
    (hc : t.FirstNamed name c) (h : t.Keys name keys) :
    (∃ x, Cell.number x ∈ keys ∧ x.isNaN = true) ↔
      ∃ row : Nat, ∃ x, c.cells[row]? = some (Cell.number x) ∧ x.isNaN = true := by
  simp only [h.2, hc.cellAt_iff]
  constructor
  · intro hkey
    obtain ⟨x, ⟨-, row, hcell⟩, hnan⟩ := hkey
    exact ⟨row, x, hcell, hnan⟩
  · intro hcell
    obtain ⟨row, x, hcell, hnan⟩ := hcell
    exact ⟨x, ⟨Cell.noConfusion, row, hcell⟩, hnan⟩

namespace Table

/-- **The cells of a delimited file that are missing or NaN.** A cell is missing exactly if its field is
a text for a missing cell, and NaN exactly if its field spells NaN in another way. In a figure, a series
that is grouped by a column has one line for each key of the column. A missing cell is no key, and some
key is NaN exactly if the column has a field that gives NaN. -/
theorem load_notNumbers (files : Files) (path : Path) (bytes : List UInt8) (t : Table)
    (hextension : path.extension = "csv") (hfile : files.openFile path = .ok (.bytes bytes))
    (h : load files path = .ok t) :
    (∀ place row c, t.columns[place]? = some c →
      (c.cells[row]? = some .missing ↔ Delimited.MissingAt bytes row place) ∧
        ((∃ x, c.cells[row]? = some (Cell.number x) ∧ x.isNaN = true) ↔
          Delimited.NaNAt bytes row place)) ∧
      ∀ d f, (resolve d t).outcome = .ok f →
        ∃ shares : List (List Series), f.series = shares.flatten ∧
          List.Forall₂ (fun s share => s.Contributes t share ∧ ∀ column, s.groupBy = some column →
            ∃ place keys, t.position? column = some place ∧ t.Keys column keys ∧
              List.Forall₂ (s.DrawsKey t column) keys share ∧ .missing ∉ keys ∧
              ((∃ x, Cell.number x ∈ keys ∧ x.isNaN = true) ↔ ∃ row, Delimited.NaNAt bytes row place))
            d.series shares := by
  obtain ⟨bytes', hopened, hcolumns⟩ := exists_bytes_of_load hextension h
  rw [hfile] at hopened
  obtain rfl := FileContent.bytes.inj (Except.ok.inj hopened)
  constructor
  · intro place row c hc
    exact ⟨Delimited.missing_iff_missingAt hcolumns hc, Delimited.isNaN_iff_nanAt hcolumns hc⟩
  · intro d f hf
    obtain ⟨shares, hflatten, hshares⟩ := exists_contributions hf
    refine ⟨shares, hflatten, hshares.imp ?_⟩
    intro s share hcontributes
    refine ⟨hcontributes, ?_⟩
    intro column hgroup
    obtain ⟨c, keys, hfirst, hkeys, hdraws⟩ := hcontributes.exists_keys hgroup
    obtain ⟨place, hplace, hc⟩ := hfirst.exists_position
    have hmissing : Cell.missing ∉ keys := fun hmem => ((hkeys.2 _).1 hmem).1 rfl
    refine ⟨place, keys, hplace, hkeys, hdraws, hmissing, ?_⟩
    rw [hfirst.nan_mem_keys_iff hkeys]
    exact exists_congr fun row => Delimited.isNaN_iff_nanAt hcolumns hc

/-- Requests of which the second has the queue `+nan` and the third the queue `nan`. -/
def unnumberedRequests : String :=
  "queue_id,start_time,elapsed\n0,0,5\n+nan,10,6\nnan,20,7\n"

def unnumberedFiles : Files := { entries := [(["q.csv"], .file (.ofText unnumberedRequests))] }

theorem exists_unnumbered :
    ∃ t f, load unnumberedFiles ⟨"q.csv"⟩ = .ok t ∧
      t.columns[0]? = some ⟨"queue_id", [.integer 0, .number .nan, .missing]⟩ ∧
      (resolve (Presets.requestTimeByQueue []) t).outcome = .ok f ∧
      f.series.map Series.label = ["Queue 0", "Queue NaN"] := by
  have hloaded : (load unnumberedFiles ⟨"q.csv"⟩).toOption.map (fun t =>
      (t.columns[0]?, (resolve (Presets.requestTimeByQueue []) t).outcome.toOption.map
        fun f => f.series.map Series.label)) =
      some (some ⟨"queue_id", [.integer 0, .number .nan, .missing]⟩,
        some ["Queue 0", "Queue NaN"]) := by
    decide +kernel
  obtain ⟨t, ht, hanswer⟩ := exists_ok_of_map hloaded
  obtain ⟨hqueues, hlabels⟩ := Prod.mk.inj hanswer
  obtain ⟨f, hf, hseries⟩ := exists_ok_of_map hlabels
  exact ⟨t, f, ht, hqueues, hf, hseries⟩

theorem load_notNumbers_unnumberedFiles :
    ∃ t f, load unnumberedFiles ⟨"q.csv"⟩ = .ok t ∧
      (resolve (Presets.requestTimeByQueue []) t).outcome = .ok f ∧
      f.series.map Series.label = ["Queue 0", "Queue NaN"] ∧
      Delimited.NaNAt (utf8 unnumberedRequests) 1 0 ∧
      Delimited.MissingAt (utf8 unnumberedRequests) 2 0 ∧
      ∃ shares : List (List Series), f.series = shares.flatten ∧
        List.Forall₂ (fun s share => s.Contributes t share ∧ ∀ column, s.groupBy = some column →
          ∃ place keys, t.position? column = some place ∧ t.Keys column keys ∧
            List.Forall₂ (s.DrawsKey t column) keys share ∧ .missing ∉ keys ∧
            ((∃ x, Cell.number x ∈ keys ∧ x.isNaN = true) ↔
              ∃ row, Delimited.NaNAt (utf8 unnumberedRequests) row place))
          (Presets.requestTimeByQueue []).series shares := by
  obtain ⟨t, f, ht, hqueues, hf, hseries⟩ := exists_unnumbered
  obtain ⟨hcells, hfigures⟩ := load_notNumbers unnumberedFiles ⟨"q.csv"⟩ (utf8 unnumberedRequests) t
    (by decide +kernel) rfl ht
  refine ⟨t, f, ht, hf, hseries, ?_, ?_, hfigures _ f hf⟩
  · exact (hcells 0 1 _ hqueues).2.1 ⟨.nan, rfl, by decide +kernel⟩
  · exact (hcells 0 2 _ hqueues).1.1 rfl

/-- **A cell of a delimited file can be NaN**, and then a line is drawn for it: the queue `+nan` is no
text for a missing cell. -/
theorem exists_line_of_nan :
    (¬ ∀ (files : Files) (path : Path) (t : Table), path.extension = "csv" →
      load files path = .ok t → ∀ c ∈ t.columns, ∀ x, Cell.number x ∈ c.cells → x.isNaN = false) ∧
    ∃ t f, load unnumberedFiles ⟨"q.csv"⟩ = .ok t ∧
      t.columns[0]? = some ⟨"queue_id", [.integer 0, .number .nan, .missing]⟩ ∧
      (resolve (Presets.requestTimeByQueue []) t).outcome = .ok f ∧
      f.series.map Series.label = ["Queue 0", "Queue NaN"] := by
  refine ⟨?_, exists_unnumbered⟩
  intro h
  obtain ⟨t, f, ht, hqueues, -⟩ := exists_unnumbered
  have hfinite := h unnumberedFiles ⟨"q.csv"⟩ t (by decide +kernel) ht _
    (List.mem_of_getElem? hqueues) .nan (List.mem_cons_of_mem _ List.mem_cons_self)
  exact absurd hfinite (by decide +kernel)

end Table

end LineChart
