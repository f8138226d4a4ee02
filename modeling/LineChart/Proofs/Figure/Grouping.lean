import LineChart.Description.Presets
import LineChart.Proofs.Figure.Parts
import LineChart.Proofs.Figure.Relabelling
import LineChart.Proofs.Table.Agreement

/-!
# Grouping and filtering

A grouped series stands for one filtered series for each key of its column. Groups are found in a
table of keys and filtered rows by a search, but where agreement of cells is equality both see the
same rows, and the figures are the same.

* `SeriesDescription.forKey` : the filtered series of a key.
* `allDrafts_forKeys_iff` : a grouped series and the filtered series of its keys have the same drafts.
* `grouping_agrees_with_filtering` : their figures are the same, and the stock figure of queues draws
  the same with weights and without.
-/

namespace LineChart

variable {t : Table} {s : SeriesDescription} {column : String} {c : Column} {keys : List Cell}

/-! ### One key -/

/-- The series that a filter makes for a key of a grouped series. -/
def SeriesDescription.forKey (s : SeriesDescription) (column : String) (k : Cell) :
    SeriesDescription :=
  { s with label := s.labelOf k, filter := some ⟨column, k.toJson⟩, groupBy := none }

/-- **The filtered series of a key has the draft of the key.** -/
theorem drafts_forKey {points : List Point} (hp : s.points t = .ok points)
    (hkind : t.OneKind column) (hc : t.FirstNamed column c) {k : Cell} (hk : k ∈ c.cells)
    (hne : k ≠ .missing) :
    ∃ skipped, (s.forKey column k).drafts t = .ok ⟨[s.keyDraft points c.cells k], skipped⟩ := by
  have hread : Cell.ofJson k.toJson = k := hkind.ofJson_toJson hc hk
  have hagrees : k.agrees (Cell.ofJson k.toJson) = true := by
    rw [hread, hkind.agrees_eq hc hk hk hne]
    exact decide_eq_true rfl
  have hfiltered : (s.forKey column k).DraftsFrom t points _ :=
    .filtered rfl rfl hc ⟨k, hk, hagrees⟩
  have hrows : rowsPassing (·.agrees (Cell.ofJson k.toJson)) 0 c.cells =
      rowsPassing (fun cell => decide (cell = k)) 0 c.cells := by
    refine rowsPassing_congr 0 ?_
    intro cell hcell
    rw [hread]
    exact hkind.agrees_eq hc hcell hk hne
  rw [SeriesDescription.draftWhere, hrows] at hfiltered
  exact hfiltered.exists_drafts hp

/-! ### All keys -/

theorem allDrafts_forKeys {points : List Point} (hp : s.points t = .ok points)
    (hkind : t.OneKind column) (hc : t.FirstNamed column c)
    (hkeys : ∀ k ∈ keys, k ∈ c.cells ∧ k ≠ .missing) :
    allDrafts t (keys.map (s.forKey column)) = .ok (keys.map (s.keyDraft points c.cells)) := by
  induction keys with
  | nil => rfl
  | cons k rest ih =>
    obtain ⟨⟨hk, hne⟩, hrest⟩ := List.forall_mem_cons.1 hkeys
    obtain ⟨skipped, hdrafts⟩ := drafts_forKey (s := s) hp hkind hc hk hne
    rw [List.map_cons, allDrafts_cons hdrafts, ih hrest]
    rfl

/-- **A grouped series and the filtered series of its keys have the same drafts.** -/
theorem allDrafts_forKeys_iff (hg : s.groupBy = some column) (hkind : t.OneKind column)
    (hkeys : t.Keys column keys) (hne : keys ≠ []) {drafts : List Draft} :
    allDrafts t [s] = .ok drafts ↔ allDrafts t (keys.map (s.forKey column)) = .ok drafts := by
  obtain ⟨k, rest, rfl⟩ := List.exists_cons_of_ne_nil hne
  obtain ⟨-, row, c, hc, hrow⟩ := (hkeys.2 k).1 List.mem_cons_self
  cases hp : s.points t with
  | error e =>
    -- neither side has drafts, the filtered one because it has a first key
    have hgrouped : s.drafts t = .error (.table e) := by
      rw [SeriesDescription.drafts, hp]
    have hfiltered : (s.forKey column k).drafts t = .error (.table e) := by
      have hpk : (s.forKey column k).points t = .error e := hp
      rw [SeriesDescription.drafts, hpk]
    rw [List.map_cons, allDrafts_cons_error hgrouped, allDrafts_cons_error hfiltered]
  | ok points =>
    have hcells : c.cells ≠ [] := List.ne_nil_of_mem (List.mem_of_getElem? hrow)
    obtain ⟨skipped, hgrouped⟩ := (SeriesDescription.DraftsFrom.grouped hg hc hcells).exists_drafts hp
    rw [← hc.keys_iff.1 hkeys] at hgrouped
    have hpresent : ∀ key ∈ k :: rest, key ∈ c.cells ∧ key ≠ .missing := by
      intro key hkey
      obtain ⟨hpresent, hat⟩ := (hkeys.2 key).1 hkey
      exact ⟨hc.exists_cellAt_iff.1 hat, hpresent⟩
    rw [allDrafts_forKeys hp hkind hc hpresent, allDrafts_cons hgrouped]
    show (Except.ok (List.map _ _ ++ []) : Except ResolveError _) = _ ↔ _
    rw [List.append_nil]

/-! ### A series among others -/

/-- Series with the same drafts can take each other's place. -/
theorem allDrafts_replace {as bs before after : List SeriesDescription}
    (h : ∀ drafts, allDrafts t as = .ok drafts ↔ allDrafts t bs = .ok drafts) {drafts : List Draft} :
    allDrafts t (before ++ as ++ after) = .ok drafts ↔
      allDrafts t (before ++ bs ++ after) = .ok drafts := by
  simp only [allDrafts_append_eq_ok_iff, h]

theorem check_forKeys_iff (hf : s.filter = none) (hne : keys ≠ []) :
    (∀ r ∈ keys.map (s.forKey column), r.check = .ok ()) ↔ s.check = .ok () := by
  have hkey : ∀ k, (s.forKey column k).check = .ok () ↔ s.check = .ok () := by
    intro k
    rw [SeriesDescription.check_eq_ok_iff, SeriesDescription.check_eq_ok_iff]
    simp [SeriesDescription.forKey, hf]
  rw [List.forall_mem_map]
  constructor
  · intro h
    obtain ⟨k, hk⟩ := List.exists_mem_of_ne_nil keys hne
    exact (hkey k).1 (h k hk)
  · intro h k _
    exact (hkey k).2 h

/-- **The figure of a grouped series among others** is the one of the filtered series of its keys. -/
theorem outcome_forKeys_iff (d : FigureDescription) (before after : List SeriesDescription)
    (hg : s.groupBy = some column) (hf : s.filter = none) (hkind : t.OneKind column)
    (hkeys : t.Keys column keys) (hne : keys ≠ []) {f : Figure} :
    (resolve { d with series := before ++ s :: after } t).outcome = .ok f ↔
      (resolve { d with series := before ++ keys.map (s.forKey column) ++ after } t).outcome =
        .ok f := by
  have hdrafts : ∀ drafts, allDrafts t (before ++ s :: after) = .ok drafts ↔
      allDrafts t (before ++ keys.map (s.forKey column) ++ after) = .ok drafts := by
    intro drafts
    rw [← List.singleton_append, ← List.append_assoc]
    exact allDrafts_replace fun _ => allDrafts_forKeys_iff hg hkind hkeys hne
  have hcheck : ({ d with series := before ++ s :: after } : FigureDescription).check = .ok () ↔
      ({ d with series := before ++ keys.map (s.forKey column) ++ after } :
        FigureDescription).check = .ok () := by
    have hall : (∀ r ∈ before ++ keys.map (s.forKey column) ++ after, r.check = .ok ()) ↔
        ∀ r ∈ before ++ s :: after, r.check = .ok () := by
      rw [List.forall_mem_append, List.forall_mem_append, List.forall_mem_append,
        List.forall_mem_cons, check_forKeys_iff hf hne, and_assoc]
    constructor
    · intro h
      refine FigureDescription.check_with_series h (by simp [hne]) ?_
      exact hall.2 (FigureDescription.check_eq_ok_iff.1 h).2.2
    · intro h
      refine FigureDescription.check_with_series h (by simp) ?_
      exact hall.1 (FigureDescription.check_eq_ok_iff.1 h).2.2
  rw [outcome_eq_ok_iff, outcome_eq_ok_iff, hcheck]
  simp only [hdrafts]
  rfl

/-! ### The figure of queues -/

/-- The cells of a column are missing, or integers that cover exactly the numbers below `n`. -/
def Table.Covers (t : Table) (name : String) (n : Nat) : Prop :=
  ∀ cell, cell ≠ .missing →
    ((∃ row, t.CellAt name row cell) ↔ ∃ q < n, cell = .integer (.ofNat q))

/-- The keys of the queues below `n`. -/
def queueKeys (n : Nat) : List Cell := (List.range n).map fun q => .integer (.ofNat q)

theorem toInt_ofNat_of_le {q : Nat} (h : q ≤ 2 ^ 53) : (Int64.ofNat q).toInt = q :=
  Int64.toInt_ofNat_of_lt (by omega)

/-- Numbers of queues that a column of one kind covers are held exactly. -/
theorem Table.Covers.le_of_oneKind {name : String} {n : Nat} (h : t.Covers name n)
    (hkind : t.OneKind name) : n ≤ 2 ^ 53 + 1 := by
  by_contra hn
  -- the first number that is too large would be a cell of the column
  have hne : Cell.integer (.ofNat (2 ^ 53 + 1)) ≠ .missing := by simp
  obtain ⟨row, hrow⟩ := (h _ hne).2 ⟨2 ^ 53 + 1, by omega, rfl⟩
  rcases hkind with htext | hflag | hinteger
  · obtain ⟨s, hs⟩ := htext row _ hrow hne
    cases hs
  · obtain ⟨b, hb⟩ := hflag row _ hrow hne
    cases hb
  · obtain ⟨k, hk, hbound⟩ := hinteger row _ hrow hne
    rw [← Cell.integer.inj hk] at hbound
    exact absurd hbound (by decide)

theorem ascending_queueKeys {n : Nat} (hn : n ≤ 2 ^ 53 + 1) : Cell.Ascending (queueKeys n) := by
  rw [Cell.Ascending, queueKeys, List.pairwise_map]
  refine List.pairwise_lt_range.imp_of_mem ?_
  intro a b ha hb hlt
  have ha' := List.mem_range.1 ha
  have hb' := List.mem_range.1 hb
  show compare (Int64.ofNat a).toInt (Int64.ofNat b).toInt = .lt
  rw [toInt_ofNat_of_le (by omega), toInt_ofNat_of_le (by omega), Int.compare_eq_lt]
  omega

/-- **The keys of a column that covers the numbers below `n`** are these numbers. -/
theorem Table.Covers.keys_queueKeys {name : String} {n : Nat} (h : t.Covers name n) (hn : n ≤ 2 ^ 53 + 1) :
    t.Keys name (queueKeys n) := by
  refine ⟨ascending_queueKeys hn, ?_⟩
  intro k
  have hmem : k ∈ queueKeys n ↔ ∃ q < n, k = .integer (.ofNat q) := by
    simp [queueKeys, eq_comm]
  rw [hmem]
  constructor
  · intro hk
    have hne : k ≠ .missing := by
      obtain ⟨q, -, rfl⟩ := hk
      simp
    exact ⟨hne, (h k hne).2 hk⟩
  · intro hk
    exact (h k hk.1).1 hk.2

/-- The series of the stock figure of queues without weights. -/
def groupedQueues : SeriesDescription :=
  { Presets.requestSeries "Queue \x7bkey\x7d" with groupBy := some "queue_id" }

/-- The series of a weight is the filtered series of its queue, but for its label. -/
theorem sameButLabel_queueSeries (weight : UInt64) {q : Nat} (hq : q ≤ 2 ^ 53) :
    (groupedQueues.forKey "queue_id" (.integer (.ofNat q))).SameButLabel
      (Presets.queueSeries weight q) := by
  have hjson : (Cell.integer (.ofNat q)).toJson = .ofInt q := by
    rw [Cell.toJson, toInt_ofNat_of_le hq]
  rw [SeriesDescription.SameButLabel, SeriesDescription.forKey, hjson]
  rfl

theorem forall₂_sameButLabel_queueSeries {weights : List UInt64}
    (hn : weights.length ≤ 2 ^ 53 + 1) :
    List.Forall₂ SeriesDescription.SameButLabel
      ((queueKeys weights.length).map (groupedQueues.forKey "queue_id"))
      (weights.zipIdx.map fun (weight, queue) => Presets.queueSeries weight queue) := by
  rw [queueKeys, List.map_map, List.forall₂_map_left_iff, List.forall₂_map_right_iff]
  refine List.forall₂_iff_get.2 ⟨by rw [List.length_range, List.length_zipIdx], ?_⟩
  intro i hi _
  have hq : i ≤ 2 ^ 53 := by
    rw [List.length_range] at hi
    omega
  simp only [List.get_eq_getElem, List.getElem_range, List.getElem_zipIdx, Nat.zero_add]
  exact sameButLabel_queueSeries _ hq

/-- **The stock figure of queues draws the same with weights and without**, where there is a weight
for each queue. -/
theorem draws_requestTimeByQueue_iff {weights : List UInt64} (hne : weights ≠ [])
    (hkind : t.OneKind "queue_id") (hcovers : t.Covers "queue_id" weights.length)
    {strokes : List (List (List Point) × LineStyle × Colour)} :
    (Presets.requestTimeByQueue weights).Draws t strokes ↔
      (Presets.requestTimeByQueue []).Draws t strokes := by
  have hn : weights.length ≤ 2 ^ 53 + 1 := hcovers.le_of_oneKind hkind
  have hkeys := hcovers.keys_queueKeys hn
  have hkeysne : queueKeys weights.length ≠ [] := by
    simp [queueKeys, List.range_eq_nil, hne]
  have hgrouped : ∀ f, (resolve (Presets.requestTimeByQueue []) t).outcome = .ok f ↔
      (resolve (Presets.requestTimes
        ((queueKeys weights.length).map (groupedQueues.forKey "queue_id"))) t).outcome = .ok f := by
    intro f
    have hreplace := outcome_forKeys_iff (s := groupedQueues) (Presets.requestTimes []) [] [] rfl rfl
      hkind hkeys hkeysne (f := f)
    rw [List.nil_append, List.append_nil] at hreplace
    exact hreplace
  have hweights : Presets.requestTimeByQueue weights = Presets.requestTimes
      (weights.zipIdx.map fun (weight, queue) => Presets.queueSeries weight queue) := by
    rw [Presets.requestTimeByQueue, if_neg (by simpa using hne)]
  have hrelabel : (Presets.requestTimes
      ((queueKeys weights.length).map (groupedQueues.forKey "queue_id"))).Draws t strokes ↔
      (Presets.requestTimes
        (weights.zipIdx.map fun (weight, queue) => Presets.queueSeries weight queue)).Draws t strokes :=
    draws_relabelled_iff (forall₂_sameButLabel_queueSeries hn)
  rw [hweights]
  refine Iff.trans hrelabel.symm ?_
  simp only [FigureDescription.Draws, hgrouped]

/-! ### Both ways to the same figure -/

/-- **Grouping and filtering agree.** Where the keys of a column are of one kind, a grouped series
can be replaced by the filtered series of its keys and the figure stays the same. So the stock
figure of queues draws the same with a weight for each queue as without weights. -/
theorem grouping_agrees_with_filtering (t : Table) :
    (∀ (d : FigureDescription) (before after : List SeriesDescription) (s : SeriesDescription)
      (column : String) (keys : List Cell), s.groupBy = some column → s.filter = none →
      t.OneKind column → t.Keys column keys → keys ≠ [] → ∀ f,
        (resolve { d with series := before ++ s :: after } t).outcome = .ok f ↔
          (resolve { d with series := before ++ keys.map (s.forKey column) ++ after } t).outcome =
            .ok f) ∧
      ∀ weights : List UInt64, weights ≠ [] → t.OneKind "queue_id" →
        t.Covers "queue_id" weights.length → ∀ strokes,
          (Presets.requestTimeByQueue weights).Draws t strokes ↔
            (Presets.requestTimeByQueue []).Draws t strokes := by
  constructor
  · intro d before after s column keys hg hf hkind hkeys hne f
    exact outcome_forKeys_iff d before after hg hf hkind hkeys hne
  · intro weights hne hkind hcovers strokes
    exact draws_requestTimeByQueue_iff hne hkind hcovers

/-! ### Two queues -/

theorem cellAt_twoQueues_iff {cell : Cell} (hne : cell ≠ .missing) :
    (∃ row, twoQueues.CellAt "queue_id" row cell) ↔ cell = .integer 0 ∨ cell = .integer 1 := by
  have hc : twoQueues.FirstNamed "queue_id"
      ⟨"queue_id", [.integer 1, .missing, .integer 0, .integer 1]⟩ := Table.column_eq_ok_iff.1 rfl
  rw [hc.exists_cellAt_iff]
  simp only [List.mem_cons, List.not_mem_nil, hne, false_or, or_false]
  rw [or_comm, or_assoc, or_self]

theorem covers_twoQueues : twoQueues.Covers "queue_id" 2 := by
  intro cell hne
  rw [cellAt_twoQueues_iff hne]
  constructor
  · intro h
    rcases h with rfl | rfl
    · exact ⟨0, by decide, rfl⟩
    · exact ⟨1, by decide, rfl⟩
  · intro h
    obtain ⟨q, hq, rfl⟩ := h
    rcases Nat.le_one_iff_eq_zero_or_eq_one.1 (Nat.le_of_lt_succ hq) with rfl | rfl
    · exact .inl rfl
    · exact .inr rfl

theorem oneKind_twoQueues : twoQueues.OneKind "queue_id" := by
  refine .inr (.inr ?_)
  intro row cell hcell hne
  rcases (cellAt_twoQueues_iff hne).1 ⟨row, hcell⟩ with rfl | rfl
  · exact ⟨0, rfl, by decide⟩
  · exact ⟨1, rfl, by decide⟩

/-- Two queues behind the line of all requests, and the stock figure with two weights. -/
theorem twoQueues_grouped_and_filtered :
    (∃ f, (resolve (Presets.requestTimes
        ([Presets.requestSeries "all queues"] ++ groupedQueues :: [])) twoQueues).outcome = .ok f ∧
      (resolve (Presets.requestTimes ([Presets.requestSeries "all queues"] ++
        [.integer 0, .integer 1].map (groupedQueues.forKey "queue_id") ++ [])) twoQueues).outcome =
          .ok f ∧ f.series.map Series.label = ["all queues", "Queue 0", "Queue 1"]) ∧
      ∃ strokes, (Presets.requestTimeByQueue [3, 1]).Draws twoQueues strokes ∧
        (Presets.requestTimeByQueue []).Draws twoQueues strokes ∧ strokes.length = 2 := by
  obtain ⟨hreplace, hweights⟩ := grouping_agrees_with_filtering twoQueues
  have hkeys : twoQueues.Keys "queue_id" [.integer 0, .integer 1] :=
    covers_twoQueues.keys_queueKeys (by decide)
  have hlabels : (resolve (Presets.requestTimes
      ([Presets.requestSeries "all queues"] ++ groupedQueues :: [])) twoQueues).outcome.toOption.map
        (fun f => f.series.map Series.label) = some ["all queues", "Queue 0", "Queue 1"] := by
    decide +kernel
  have hlength : (resolve (Presets.requestTimeByQueue []) twoQueues).outcome.toOption.map
      (fun f => f.strokes.length) = some 2 := by
    decide +kernel
  refine ⟨?_, ?_⟩
  · obtain ⟨f, hf, hseries⟩ := exists_ok_of_map hlabels
    have hfiltered := (hreplace (Presets.requestTimes []) [Presets.requestSeries "all queues"] []
      groupedQueues "queue_id" [.integer 0, .integer 1] rfl rfl oneKind_twoQueues hkeys
        (by decide) f).1 hf
    exact ⟨f, hf, hfiltered, hseries⟩
  · obtain ⟨f, hf, hstrokes⟩ := exists_ok_of_map hlength
    have hgrouped : (Presets.requestTimeByQueue []).Draws twoQueues f.strokes := ⟨f, hf, rfl⟩
    have hdrawn := (hweights [3, 1] (by decide) oneKind_twoQueues covers_twoQueues f.strokes).2
      hgrouped
    exact ⟨f.strokes, hdrawn, hgrouped, hstrokes⟩

end LineChart
