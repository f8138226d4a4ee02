import LineChart.Proofs.Figure.Contribution
import Mathlib.Data.List.TakeWhile

/-!
# Unbroken blocks

The runs of a line are the maximal unbroken blocks of its rows: a row without a point ends a block,
and nothing else does.

* `UnbrokenBlocks` : the blocks that some rows fall into, said by the rows alone.
* `UnbrokenBlocks.unique` : there is one way to cut rows into such blocks.
* `RunsOver` : runs whose points stand in the blocks of some rows.
* `runsOver_iff` : cutting the points of some rows into runs gives these runs and no others.
* `runs_are_unbroken_blocks` : so it is for every series of a figure and all lists of coordinates.
-/

namespace LineChart

/-! ### Cutting at the first gap -/

theorem splitRuns_cons_of_gap {p : Point} {rest : List Point} (h : p.isGap = true) :
    splitRuns (p :: rest) = splitRuns rest := by
  rw [splitRuns, runsBehind, if_pos h]
  rfl

/-- An open run takes in all points up to the next gap. -/
theorem runsBehind_append {openRun run rest : List Point} (hne : openRun.reverse ++ run ≠ [])
    (hrun : ∀ p ∈ run, p.isGap = false) (hrest : ∀ p ∈ rest.head?, p.isGap = true) :
    runsBehind openRun (run ++ rest) = (openRun.reverse ++ run) :: splitRuns rest := by
  induction run generalizing openRun with
  | nil =>
    rw [List.append_nil] at hne ⊢
    have hclose : closeRun openRun = [openRun.reverse] := by
      cases openRun with
      | nil => exact absurd rfl hne
      | cons _ _ => rfl
    cases rest with
    | nil => exact hclose
    | cons p rest =>
      have hgap : p.isGap = true := hrest p rfl
      rw [List.nil_append, runsBehind, if_pos hgap, hclose, splitRuns_cons_of_gap hgap]
      rfl
  | cons p run ih =>
    obtain ⟨hp, hrun⟩ := List.forall_mem_cons.1 hrun
    rw [List.cons_append, runsBehind, if_neg (by simp [hp]), ih (by simp) hrun]
    simp

/-- **The first run** goes up to the first gap behind it. -/
theorem splitRuns_append {run rest : List Point} (hne : run ≠ [])
    (hrun : ∀ p ∈ run, p.isGap = false) (hrest : ∀ p ∈ rest.head?, p.isGap = true) :
    splitRuns (run ++ rest) = run :: splitRuns rest :=
  runsBehind_append hne hrun hrest

/-- Points are none at all, a gap in front of points, or a run in front of points that start with a
gap. -/
theorem points_induction {motive : List Point → Prop} (nil : motive [])
    (gap : ∀ p rest, p.isGap = true → motive rest → motive (p :: rest))
    (run : ∀ run rest, run ≠ [] → (∀ p ∈ run, p.isGap = false) →
      (∀ p ∈ rest.head?, p.isGap = true) → motive rest → motive (run ++ rest))
    (points : List Point) : motive points := by
  induction hn : points.length using Nat.strong_induction_on generalizing points with
  | _ n ih =>
    cases points with
    | nil => exact nil
    | cons p rest =>
      cases hp : p.isGap with
      | true => exact gap p rest hp (ih rest.length (by rw [← hn]; simp) rest rfl)
      | false =>
        have hsplit : (p :: rest.takeWhile fun q => !q.isGap) ++ (rest.dropWhile fun q => !q.isGap) =
            p :: rest := by
          rw [List.cons_append, List.takeWhile_append_dropWhile]
        rw [← hsplit]
        refine run _ _ (List.cons_ne_nil _ _) ?_ ?_ (ih _ ?_ _ rfl)
        · refine List.forall_mem_cons.2 ⟨hp, ?_⟩
          intro q hq
          simpa using List.mem_takeWhile_imp hq
        · intro q hq
          have hhead := List.head?_dropWhile_not (fun q : Point => !q.isGap) rest
          rw [Option.mem_def.1 hq] at hhead
          simpa using hhead
        · have hlen := (List.dropWhile_sublist (fun q : Point => !q.isGap) (l := rest)).length_le
          rw [← hn, List.length_cons]
          omega

/-! ### Blocks of rows -/

/-- The maximal unbroken blocks of some rows, of which only whole ones count: no block is empty, one
after the other the blocks are the whole rows in ascending order, and two rows are in one block if
all rows between them are whole, and only then. -/
structure UnbrokenBlocks (rows : List Nat) (whole : Nat → Prop) (blocks : List (List Nat)) :
    Prop where
  ne_nil : ∀ block ∈ blocks, block ≠ []
  ascending : blocks.flatten.Pairwise (· < ·)
  mem_iff : ∀ row, row ∈ blocks.flatten ↔ row ∈ rows ∧ whole row
  together_iff : ∀ i ∈ blocks.flatten, ∀ j ∈ blocks.flatten, i < j →
    ((∃ block ∈ blocks, i ∈ block ∧ j ∈ block) ↔ ∀ row ∈ rows, i < row → row < j → whole row)

namespace UnbrokenBlocks

variable {rows head : List Nat} {whole : Nat → Prop} {blocks : List (List Nat)} {row : Nat}

theorem nil (whole : Nat → Prop) : UnbrokenBlocks [] whole [] where
  ne_nil := by simp
  ascending := .nil
  mem_iff := by simp
  together_iff := by simp

/-- A row that is not whole makes no difference to the blocks behind it. -/
theorem cons (h : UnbrokenBlocks rows whole blocks) (hfirst : ∀ r ∈ rows, row < r)
    (hrow : ¬ whole row) : UnbrokenBlocks (row :: rows) whole blocks where
  ne_nil := h.ne_nil
  ascending := h.ascending
  mem_iff r := by
    rw [h.mem_iff, List.mem_cons]
    refine ⟨fun hr => ⟨.inr hr.1, hr.2⟩, ?_⟩
    rintro ⟨rfl | hr, hwhole⟩
    · exact absurd hwhole hrow
    · exact ⟨hr, hwhole⟩
  together_iff i hi j hj hij := by
    have hrowi : row < i := hfirst i ((h.mem_iff i).1 hi).1
    rw [h.together_iff i hi j hj hij, List.forall_mem_cons]
    exact ⟨fun hrest => ⟨fun hlt => absurd hlt (by omega), hrest⟩, fun hall => hall.2⟩

/-- In ascending blocks, a row of the first block is with no row of the others. -/
theorem not_together_of_mem_flatten {first : List Nat} {i j : Nat}
    (hasc : (first :: blocks).flatten.Pairwise (· < ·)) (hi : i ∈ first)
    (hj : j ∈ blocks.flatten) : ¬ ∃ block ∈ first :: blocks, i ∈ block ∧ j ∈ block := by
  have hbefore := (List.pairwise_append.1 hasc).2.2
  rw [List.exists_mem_cons_iff]
  rintro (⟨-, hjfirst⟩ | ⟨block, hblock, hiblock, -⟩)
  · exact absurd (hbefore j hjfirst j hj) (Nat.lt_irrefl j)
  · exact absurd (hbefore i hi i (List.mem_flatten.2 ⟨block, hblock, hiblock⟩)) (Nat.lt_irrefl i)

/-- In front of a row of a block stands the first of the rows, if that one is not whole. -/
theorem exists_gap_lt (h : UnbrokenBlocks rows whole blocks) (hasc : rows.Pairwise (· < ·))
    (hrows : ∀ r ∈ rows.head?, ¬ whole r) {j : Nat} (hj : j ∈ blocks.flatten) :
    ∃ r ∈ rows, r < j ∧ ¬ whole r := by
  obtain ⟨hjrows, hjwhole⟩ := (h.mem_iff j).1 hj
  cases rows with
  | nil => exact absurd hjrows List.not_mem_nil
  | cons r rest =>
    have hr : ¬ whole r := hrows r rfl
    have hne : j ≠ r := fun heq => hr (heq ▸ hjwhole)
    have hrest : j ∈ rest := (List.mem_cons.1 hjrows).resolve_left hne
    exact ⟨r, .head _, (List.pairwise_cons.1 hasc).1 j hrest, hr⟩

/-- Whole rows in front of rows that start with one that is not whole are a block of their own. -/
theorem append (h : UnbrokenBlocks rows whole blocks) (hasc : (head ++ rows).Pairwise (· < ·))
    (hne : head ≠ []) (hhead : ∀ r ∈ head, whole r) (hrows : ∀ r ∈ rows.head?, ¬ whole r) :
    UnbrokenBlocks (head ++ rows) whole (head :: blocks) := by
  obtain ⟨hasch, hascr, hbefore⟩ := List.pairwise_append.1 hasc
  have hmem : ∀ r, r ∈ blocks.flatten → r ∈ rows := fun r hr => ((h.mem_iff r).1 hr).1
  have hflat : (head :: blocks).flatten.Pairwise (· < ·) := by
    rw [List.flatten_cons, List.pairwise_append]
    exact ⟨hasch, h.ascending, fun a ha b hb => hbefore a ha b (hmem b hb)⟩
  refine ⟨List.forall_mem_cons.2 ⟨hne, h.ne_nil⟩, hflat, ?_, ?_⟩
  · intro r
    rw [List.flatten_cons, List.mem_append, List.mem_append, h.mem_iff]
    constructor
    · rintro (hr | hr)
      · exact ⟨.inl hr, hhead r hr⟩
      · exact ⟨.inr hr.1, hr.2⟩
    · rintro ⟨hr | hr, hwhole⟩
      · exact .inl hr
      · exact .inr ⟨hr, hwhole⟩
  · intro i hi j hj hij
    rw [List.flatten_cons, List.mem_append] at hi hj
    rcases hi with hi | hi
    · rcases hj with hj | hj
      · -- both in the new block, and so is every row between them
        refine iff_of_true ⟨head, List.mem_cons_self, hi, hj⟩ ?_
        intro r hr _ hrj
        rcases List.mem_append.1 hr with hr | hr
        · exact hhead r hr
        · exact absurd (hbefore j hj r hr) (by omega)
      · -- the first row behind the new block stands between them
        obtain ⟨r, hr, hrj, hgap⟩ := h.exists_gap_lt hascr hrows hj
        refine iff_of_false (not_together_of_mem_flatten hflat hi hj) fun hall => ?_
        exact hgap (hall r (List.mem_append.2 (.inr hr)) (hbefore i hi r hr) hrj)
    · rcases hj with hj | hj
      · exact absurd (hbefore j hj i (hmem i hi)) (by omega)
      · -- the new block lies in front of both
        have hnot : ¬ (i ∈ head ∧ j ∈ head) := fun hboth =>
          absurd (hbefore i hboth.1 i (hmem i hi)) (Nat.lt_irrefl i)
        rw [List.exists_mem_cons_iff, or_iff_right hnot, h.together_iff i hi j hj hij]
        refine ⟨?_, fun hall r hr => hall r (List.mem_append.2 (.inr hr))⟩
        intro hall r hr hir
        rcases List.mem_append.1 hr with hr | hr
        · exact absurd (hbefore r hr i (hmem i hi)) (by omega)
        · exact hall r hr hir

/-! ### Uniqueness -/

/-- A block that goes on where the other one ends puts a row with rows of the other's rest. -/
theorem eq_nil_of_together_iff {first surplus : List Nat} {others : List (List Nat)}
    (hasc : (first :: blocks).flatten.Pairwise (· < ·)) (hfirst : first ≠ [])
    (hrest : ∀ j ∈ surplus, j ∈ blocks.flatten)
    (h : ∀ i ∈ (first :: blocks).flatten, ∀ j ∈ (first :: blocks).flatten, i < j →
      ((∃ block ∈ first :: blocks, i ∈ block ∧ j ∈ block) ↔
        ∃ block ∈ (first ++ surplus) :: others, i ∈ block ∧ j ∈ block)) : surplus = [] := by
  cases surplus with
  | nil => rfl
  | cons j surplus =>
    obtain ⟨i, hi⟩ := List.exists_mem_of_ne_nil first hfirst
    have hj : j ∈ blocks.flatten := hrest j List.mem_cons_self
    have hij : i < j := (List.pairwise_append.1 hasc).2.2 i hi j hj
    have htogether := (h i (List.mem_append.2 (.inl hi)) j (List.mem_append.2 (.inr hj)) hij).2
      ⟨_, List.mem_cons_self, by simp [hi], by simp⟩
    exact absurd htogether (not_together_of_mem_flatten hasc hi hj)

theorem eq_of_together_iff {as bs : List (List Nat)} (hflat : as.flatten = bs.flatten)
    (hasc : as.flatten.Pairwise (· < ·)) (ha : ∀ block ∈ as, block ≠ [])
    (hb : ∀ block ∈ bs, block ≠ [])
    (h : ∀ i ∈ as.flatten, ∀ j ∈ as.flatten, i < j →
      ((∃ block ∈ as, i ∈ block ∧ j ∈ block) ↔ ∃ block ∈ bs, i ∈ block ∧ j ∈ block)) :
    as = bs := by
  induction as generalizing bs with
  | nil =>
    cases bs with
    | nil => rfl
    | cons b bs => exact absurd (List.append_eq_nil_iff.1 hflat.symm).1 (hb b List.mem_cons_self)
  | cons a as ih =>
    obtain ⟨hane, ha⟩ := List.forall_mem_cons.1 ha
    cases bs with
    | nil => exact absurd (List.append_eq_nil_iff.1 hflat).1 hane
    | cons b bs =>
      obtain ⟨hbne, hb'⟩ := List.forall_mem_cons.1 hb
      have hascb : (b :: bs).flatten.Pairwise (· < ·) := hflat ▸ hasc
      -- one of the first blocks goes on behind the other's end, if they differ
      have hfirst : a = b := by
        rcases List.append_eq_append_iff.1 hflat with ⟨c, rfl, hc⟩ | ⟨c, rfl, hc⟩
        · have hnil : c = [] := eq_nil_of_together_iff hasc hane
            (fun j hj => hc ▸ List.mem_append.2 (.inl hj)) h
          rw [hnil, List.append_nil]
        · have hnil : c = [] := eq_nil_of_together_iff hascb hbne
            (fun j hj => hc ▸ List.mem_append.2 (.inl hj))
            fun i hi j hj hij => (h i (hflat ▸ hi) j (hflat ▸ hj) hij).symm
          rw [hnil, List.append_nil]
      subst hfirst
      have hflat' : as.flatten = bs.flatten := List.append_cancel_left hflat
      have hasc' := (List.pairwise_append.1 hasc).2.1
      have hbefore := (List.pairwise_append.1 hasc).2.2
      congr 1
      refine ih hflat' hasc' ha hb' ?_
      intro i hi j hj hij
      have hwhole := h i (List.mem_append.2 (.inr hi)) j (List.mem_append.2 (.inr hj)) hij
      have hnot : ¬ (i ∈ a ∧ j ∈ a) := fun hboth =>
        absurd (hbefore i hboth.1 i hi) (Nat.lt_irrefl i)
      rwa [List.exists_mem_cons_iff, List.exists_mem_cons_iff, or_iff_right hnot,
        or_iff_right hnot] at hwhole

/-- **There is one way to cut rows into unbroken blocks.** -/
theorem unique {others : List (List Nat)} (h : UnbrokenBlocks rows whole blocks)
    (h' : UnbrokenBlocks rows whole others) : blocks = others := by
  have hflat : blocks.flatten = others.flatten := by
    have hperm : blocks.flatten.Perm others.flatten :=
      (List.perm_ext_iff_of_nodup (h.ascending.imp Nat.ne_of_lt)
        (h'.ascending.imp Nat.ne_of_lt)).2 fun row => by rw [h.mem_iff, h'.mem_iff]
    exact hperm.eq_of_pairwise (fun a b _ _ hab hba => absurd hab (by omega)) h.ascending
      h'.ascending
  refine eq_of_together_iff hflat h.ascending h.ne_nil h'.ne_nil ?_
  intro i hi j hj hij
  rw [h.together_iff i hi j hj hij,
    h'.together_iff i (hflat ▸ hi) j (hflat ▸ hj) hij]

end UnbrokenBlocks

/-! ### Runs over rows -/

/-- A row has a point whose coordinates are both numbers. -/
def HasPoint (pointAt : Nat → Point → Prop) (row : Nat) : Prop :=
  ∃ p, pointAt row p ∧ p.x.isNaN = false ∧ p.y.isNaN = false

/-- The runs of some rows, where `pointAt` tells the point of each row: one run for each unbroken
block of the rows that have a point, with the points of the rows of the block. -/
def RunsOver (rows : List Nat) (pointAt : Nat → Point → Prop) (runs : List (List Point)) : Prop :=
  ∃ blocks, UnbrokenBlocks rows (HasPoint pointAt) blocks ∧
    List.Forall₂ (List.Forall₂ pointAt) blocks runs

section

variable {rows : List Nat} {pointAt : Nat → Point → Prop} {points : List Point}

theorem isGap_eq_false_iff {p : Point} :
    p.isGap = false ↔ p.x.isNaN = false ∧ p.y.isNaN = false := by
  rw [Point.isGap, Bool.or_eq_false_iff]

/-- A row whose point is a gap has no point. -/
theorem not_hasPoint_of_gap (hsingle : ∀ row p q, pointAt row p → pointAt row q → p = q) {row : Nat}
    {p : Point} (hp : pointAt row p) (hgap : p.isGap = true) : ¬ HasPoint pointAt row := by
  rintro ⟨q, hq, hnumbers⟩
  rw [hsingle row p q hp hq, isGap_eq_false_iff.2 hnumbers] at hgap
  cases hgap

/-- **Cutting points at the gaps cuts their rows into unbroken blocks.** -/
theorem runsOver_splitRuns (hsingle : ∀ row p q, pointAt row p → pointAt row q → p = q)
    (hasc : rows.Pairwise (· < ·)) (h : List.Forall₂ pointAt rows points) :
    RunsOver rows pointAt (splitRuns points) := by
  induction points using points_induction generalizing rows with
  | nil =>
    cases h
    exact ⟨[], .nil _, .nil⟩
  | gap p rest hp ih =>
    obtain ⟨row, rows, hrow, hrest, rfl⟩ := List.forall₂_cons_right_iff.1 h
    obtain ⟨hfirst, hasc⟩ := List.pairwise_cons.1 hasc
    obtain ⟨blocks, hblocks, hruns⟩ := ih hasc hrest
    rw [splitRuns_cons_of_gap hp]
    exact ⟨blocks, hblocks.cons hfirst (not_hasPoint_of_gap hsingle hrow hp), hruns⟩
  | run run rest hne hrun hrest ih =>
    -- the rows of the run stand in front of the others
    obtain ⟨head, rows, hhead, hrows, rfl⟩ :
        ∃ head tail, List.Forall₂ pointAt head run ∧ List.Forall₂ pointAt tail rest ∧
          rows = head ++ tail := by
      refine ⟨rows.take run.length, rows.drop run.length, ?_, ?_,
        (List.take_append_drop _ _).symm⟩
      · simpa using List.forall₂_take run.length h
      · simpa using List.forall₂_drop run.length h
    obtain ⟨blocks, hblocks, hruns⟩ := ih (List.pairwise_append.1 hasc).2.1 hrows
    have hheadne : head ≠ [] := by
      rintro rfl
      cases hhead
      exact hne rfl
    have hwhole : ∀ r ∈ head, HasPoint pointAt r := by
      intro r hr
      obtain ⟨i, hi, rfl⟩ := List.mem_iff_getElem.1 hr
      have hi' : i < run.length := hhead.length_eq ▸ hi
      exact ⟨run[i], hhead.get hi hi', isGap_eq_false_iff.1 (hrun _ (List.getElem_mem hi'))⟩
    have hbroken : ∀ r ∈ rows.head?, ¬ HasPoint pointAt r := by
      intro r hr
      cases hrows with
      | nil => cases hr
      | @cons row p _ _ hrow _ =>
        obtain rfl := Option.some.inj hr
        exact not_hasPoint_of_gap hsingle hrow (hrest p rfl)
    rw [splitRuns_append hne hrun hrest]
    exact ⟨head :: blocks, hblocks.append hasc hheadne hwhole hbroken, .cons hhead hruns⟩

/-- **The runs over some rows** are the points of the rows, cut at the gaps, and nothing else is. -/
theorem runsOver_iff (hsingle : ∀ row p q, pointAt row p → pointAt row q → p = q)
    (hasc : rows.Pairwise (· < ·)) (h : List.Forall₂ pointAt rows points)
    {runs : List (List Point)} : RunsOver rows pointAt runs ↔ runs = splitRuns points := by
  obtain ⟨blocks, hblocks, hsplit⟩ := runsOver_splitRuns hsingle hasc h
  constructor
  · rintro ⟨others, hothers, hruns⟩
    rw [← hblocks.unique hothers] at hruns
    have hunique : Relator.RightUnique pointAt := fun row p q => hsingle row p q
    exact hunique.forall₂.forall₂ hruns hsplit
  · rintro rfl
    exact ⟨blocks, hblocks, hsplit⟩

end

/-! ### Series of a figure -/

namespace SeriesDescription

variable {s : SeriesDescription} {t : Table}

theorem XAt.unique {row : Nat} {x x' : Double} (h : s.XAt t row x) (h' : s.XAt t row x') :
    x = x' := by
  rw [XAt] at h h'
  cases hx : s.x with
  | index =>
    rw [hx] at h h'
    exact h.trans h'.symm
  | column name =>
    rw [hx] at h h'
    obtain ⟨cell, hcell, hnumber⟩ := h
    obtain ⟨cell', hcell', hnumber'⟩ := h'
    rw [hcell.unique hcell', hnumber'] at hnumber
    exact (Option.some.inj hnumber).symm

/-- A row has one point. -/
theorem PointAt.unique {row : Nat} {p q : Point} (hp : s.PointAt t row p) (hq : s.PointAt t row q) :
    p = q := by
  obtain ⟨cell, hcell, hnumber⟩ := hp.y
  obtain ⟨cell', hcell', hnumber'⟩ := hq.y
  rw [hcell.unique hcell', hnumber'] at hnumber
  have hx := hp.x.unique hq.x
  cases p
  cases q
  exact congrArg₂ Point.mk hx (Option.some.inj hnumber).symm

/-- The rows of a part ascend. -/
theorem Expands.ascending_rows {parts : List Part} (h : s.Expands t parts) :
    ∀ part ∈ parts, part.rows.Pairwise (· < ·) := by
  cases h with
  | whole _ _ =>
    rw [List.forall_mem_singleton]
    exact List.pairwise_lt_range
  | filtered _ _ hrows =>
    rw [List.forall_mem_singleton]
    exact hrows.1
  | grouped _ _ hparts =>
    intro part hpart
    obtain ⟨i, hi, rfl⟩ := List.mem_iff_getElem.1 hpart
    exact (hparts.get (hparts.length_eq ▸ hi) hi).rows.1

end SeriesDescription

/-- The runs of a drafted part are the ones over its rows. -/
theorem Part.Drafted.runsOver_iff {t : Table} {part : Part} {draft : Draft} {line : Series}
    (h : part.Drafted t draft) (hasc : part.rows.Pairwise (· < ·))
    (hline : line.runs = splitRuns draft.points) (runs : List (List Point)) :
    RunsOver part.rows (part.source.PointAt t) runs ↔ runs = line.runs := by
  rw [hline]
  exact LineChart.runsOver_iff (fun _ _ _ hp hq => hp.unique hq) hasc h.points

/-- The points of two lists of coordinates, by their place in the lists. -/
theorem forall₂_range_zipWith {xs ys : List Double} (hlen : xs.length = ys.length) :
    List.Forall₂ (fun i p => xs[i]? = some p.x ∧ ys[i]? = some p.y) (List.range xs.length)
      (List.zipWith Point.mk xs ys) := by
  refine List.forall₂_iff_get.2 ⟨by simp [hlen], ?_⟩
  intro i hi hi'
  rw [List.length_range] at hi
  simp [List.getElem?_eq_getElem hi, List.getElem?_eq_getElem (hlen ▸ hi)]

/-- **Runs are the maximal unbroken blocks.** The series of a figure draw the parts of its
description, and the runs of each are the runs over the rows of its part: rows of other parts do not
break them. Likewise, cutting two lists of coordinates of one length gives the runs over their
places, and no other runs are such. -/
theorem runs_are_unbroken_blocks :
    (∀ (d : FigureDescription) (t : Table) (f : Figure), (resolve d t).outcome = .ok f →
      ∃ parts : List (List Part),
        List.Forall₂ (fun s parts => s.Expands t parts) d.series parts ∧
          List.Forall₂ (fun part line => ∀ runs,
            RunsOver part.rows (part.source.PointAt t) runs ↔ runs = line.runs)
            parts.flatten f.series) ∧
      ∀ xs ys : List Double, xs.length = ys.length → ∀ runs,
        RunsOver (List.range xs.length) (fun i p => xs[i]? = some p.x ∧ ys[i]? = some p.y) runs ↔
          runs = splitRuns (List.zipWith Point.mk xs ys) := by
  constructor
  · intro d t f h
    obtain ⟨hcheck, drafts, hdrafts, rfl⟩ := outcome_eq_ok_iff.1 h
    have hseries := (FigureDescription.check_eq_ok_iff.1 hcheck).2.2
    obtain ⟨parts, hexpands, hdrafted⟩ := expands_of_allDrafts hdrafts
    refine ⟨parts, hexpands, ?_⟩
    have hpainted := forall₂_series_paintAll fun draft hmem =>
      readable_of_mem_allDrafts hseries hdrafts hmem
    have hasc : ∀ part ∈ parts.flatten, part.rows.Pairwise (· < ·) := by
      intro part hpart
      obtain ⟨share, hshare, hpart⟩ := List.mem_flatten.1 hpart
      obtain ⟨i, hi, rfl⟩ := List.mem_iff_getElem.1 hshare
      exact (hexpands.get (hexpands.length_eq ▸ hi) hi).ascending_rows part hpart
    have hdrawn := forall₂_comp_iff.2 ⟨drafts, hdrafted, hpainted⟩
    show List.Forall₂ _ parts.flatten (paintAll drafts)
    refine List.forall₂_iff_get.2 ⟨hdrawn.length_eq, ?_⟩
    intro i hi hi'
    obtain ⟨draft, hpart, spare, hline⟩ := hdrawn.get hi hi'
    exact hpart.runsOver_iff (hasc _ (List.getElem_mem hi)) (Draft.runs_of_series hline)
  · intro xs ys hlen runs
    refine runsOver_iff ?_ List.pairwise_lt_range (forall₂_range_zipWith hlen)
    rintro i ⟨x, y⟩ ⟨x', y'⟩ ⟨hx, hy⟩ ⟨hx', hy'⟩
    rw [hx] at hx'
    rw [hy] at hy'
    exact congrArg₂ Point.mk (Option.some.inj hx') (Option.some.inj hy')

/-- The two requests to queue 0 are one run, although a request without a queue and a request
without an elapsed time, the only one to queue 1, lie between them. -/
theorem requestOverview_unbroken :
    ∃ f, (resolve requestOverview
        (requestTable [.integer 0, .missing, .integer 1, .integer 0])).outcome = .ok f ∧
      f.series.map (fun line => line.runs.map List.length) = [[2], [], [2, 1]] ∧
      (∃ parts : List (List Part),
        List.Forall₂ (fun s parts => s.Expands
          (requestTable [.integer 0, .missing, .integer 1, .integer 0]) parts)
          requestOverview.series parts ∧
          List.Forall₂ (fun part line => ∀ runs,
            RunsOver part.rows (part.source.PointAt
              (requestTable [.integer 0, .missing, .integer 1, .integer 0])) runs ↔
              runs = line.runs) parts.flatten f.series) ∧
      ∀ runs, RunsOver (List.range 3)
        (fun i p => [Binary.nan, .ofNat 1, .ofNat 2][i]? = some p.x ∧
          [Binary.ofNat 4, .nan, .ofNat 6][i]? = some p.y) runs ↔
        runs = [[⟨.ofNat 2, .ofNat 6⟩]] := by
  have hruns : (resolve requestOverview
      (requestTable [.integer 0, .missing, .integer 1, .integer 0])).outcome.toOption.map
        (fun f => f.series.map fun line => line.runs.map List.length) = some [[2], [], [2, 1]] := by
    decide +kernel
  obtain ⟨f, hf, hseries⟩ := exists_ok_of_map hruns
  have hsplit : splitRuns (List.zipWith Point.mk [Binary.nan, .ofNat 1, .ofNat 2]
      [Binary.ofNat 4, .nan, .ofNat 6]) = [[⟨.ofNat 2, .ofNat 6⟩]] := by
    decide +kernel
  refine ⟨f, hf, hseries, runs_are_unbroken_blocks.1 _ _ f hf, ?_⟩
  rw [← hsplit]
  exact runs_are_unbroken_blocks.2 [.nan, .ofNat 1, .ofNat 2] [.ofNat 4, .nan, .ofNat 6] (by simp)

end LineChart
