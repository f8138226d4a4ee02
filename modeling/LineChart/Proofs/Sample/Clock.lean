import LineChart.Proofs.Number.WholeParts
import LineChart.Sample.Measurements
import Mathlib.Data.List.Chain

/-!
# The clock of the sample requests

The pause before a request has a part that is drawn, a fraction of fifty microseconds, and a part that is
fixed. So it lies between two bounds whatever is drawn, and the clock, which is only moved by pauses, stays
far below the largest word: it shows what a clock on integers of any size would show.

* `Sample.toInt_wholePart` : a whole part is the bounded one, and not cut a second time.
* `Sample.drawnPause`, `Sample.startsFrom` : the pauses and starts, as integers of any size.
* `Sample.le_toInt_serviceTime` : a request takes a microsecond at least, whatever time was drawn.
* `Sample.start_timingsFrom` : the starts in words are those of any size.
* `Sample.timings_regular` : the queues, the starts and the elapsed times of all requests.
-/

namespace LineChart

/-! ### Words -/

/-- **A sum that words can hold is not cut.** -/
theorem toInt_add_of_holds {a b : Int64} (hlow : -2 ^ 63 ≤ a.toInt + b.toInt)
    (hhigh : a.toInt + b.toInt < 2 ^ 63) : (a + b).toInt = a.toInt + b.toInt := by
  rw [Int64.toInt_add]
  exact Int.bmod_eq_of_le (by omega) (by omega)

/-- A number that is kept between two bounds around zero is between them. -/
theorem Binary.clampTo_holds {F : FloatFormat} {low high : Int} (hlow : low ≤ 0) (hhigh : 0 ≤ high)
    (whole : Binary F → Int) (x : Binary F) :
    low ≤ x.clampTo low high whole ∧ x.clampTo low high whole ≤ high := by
  rw [clampTo]
  split
  · exact ⟨hlow, hhigh⟩
  · split
    · split
      · exact ⟨Int.le_refl low, by omega⟩
      · exact ⟨by omega, Int.le_refl high⟩
    · omega

namespace Sample

theorem toInt_wholePart (x : Double) : (wholePart x).toInt =
    x.clampTo Int64.minValue.toInt Int64.maxValue.toInt Binary.truncate := by
  have hmin : Int64.minValue.toInt ≤ 0 := by decide
  have hmax : 0 ≤ Int64.maxValue.toInt := by decide
  have hsize : Int64.maxValue.toInt < 2 ^ 63 := Int64.toInt_lt _
  obtain ⟨hlow, hhigh⟩ := Binary.clampTo_holds hmin hmax Binary.truncate x
  exact Int64.toInt_ofInt_of_le hlow (Int.lt_of_le_of_lt hhigh hsize)

/-! ### Elapsed times -/

/-- **A request takes a microsecond at least**, whatever time was drawn, be it NaN or infinite. -/
theorem le_toInt_serviceTime (time : Double) : 1000 ≤ (serviceTime time).toInt := by
  have hbound : (Binary.ofNat 1000 : Double).isNaN = false :=
    Binary.isNaN_of_isFinite (Double.isFinite_ofNat (by decide))
  obtain ⟨hnan, hplace⟩ := Binary.place_larger time hbound
  rw [serviceTime, toInt_wholePart]
  exact Double.le_clampTo_truncate (n := 1000) (by decide) hnan hplace (by decide)

/-! ### Pauses -/

/-- What is drawn is a fraction of the numbers of fifty-three bits. -/
theorem isFraction_nextFraction (g : Generator) : g.nextFraction.1.IsFraction := by
  have hlt : (g.output >>> 11).toNat < 1 <<< 53 := by
    rw [UInt64.toNat_shiftRight, Nat.shiftRight_eq_div_pow]
    exact Nat.div_lt_of_lt_mul g.output.toNat_lt
  exact Double.isFraction_div hlt.le (by decide) (by decide)

/-- The part of a pause that is drawn. -/
def drawnPart (g : Generator) : Int64 := wholePart (g.nextFraction.1 * .ofNat 50000)

theorem drawnPart_bounds (g : Generator) :
    0 ≤ (drawnPart g).toInt ∧ (drawnPart g).toInt ≤ 50000 := by
  have hfraction := isFraction_nextFraction g
  obtain ⟨hnan, hnonneg⟩ := hfraction.place_mul_nonneg (n := 50000) (by decide) (by decide)
  have hzero : (Binary.ofNat 0 : Double).place = 0 := by decide +kernel
  rw [drawnPart, toInt_wholePart]
  constructor
  · exact Double.le_clampTo_truncate (n := 0) (by decide) hnan (hzero.trans_le hnonneg) (by decide)
  · exact Double.clampTo_truncate_le (n := 50000) (by decide)
      (hfraction.place_mul_le (by decide)) (by decide)

/-- A pause as an integer of any size. -/
def drawnPause (g : Generator) : Int := (drawnPart g).toInt + 1000

theorem drawnPause_bounds (g : Generator) : 1000 ≤ drawnPause g ∧ drawnPause g ≤ 51000 := by
  have hbounds := drawnPart_bounds g
  rw [drawnPause]
  omega

/-- The pause in words is not cut. -/
theorem toInt_pause (g : Generator) : (pause g.nextFraction.1).toInt = drawnPause g := by
  have hbounds := drawnPart_bounds g
  have hfixed : (1000 : Int64).toInt = 1000 := by decide
  show (drawnPart g + 1000).toInt = (drawnPart g).toInt + 1000
  rw [toInt_add_of_holds (by omega) (by omega), hfixed]

/-! ### One request -/

variable {clock : Int64} {queue : Nat} {g : Generator}

/-- The clock is moved by the pause, and not cut as long as there is room for the longest one. -/
theorem start_nextTiming (hlow : 0 ≤ clock.toInt) (hhigh : clock.toInt + 51000 < 2 ^ 63) :
    (nextTiming clock queue g).1.start.toInt = clock.toInt + drawnPause g := by
  have hbounds := drawnPause_bounds g
  have hpause := toInt_pause g
  show (clock + pause g.nextFraction.1).toInt = _
  rw [toInt_add_of_holds (by omega) (by omega), hpause]

theorem le_elapsed_nextTiming (clock : Int64) (queue : Nat) (g : Generator) :
    1000 ≤ (nextTiming clock queue g).1.elapsed.toInt :=
  le_toInt_serviceTime _

/-! ### All requests -/

/-- The starts of `count` requests after a point in time, as integers of any size. A request takes three
draws, one for its pause and two for its time. -/
def startsFrom (clock : Int) : Nat → Generator → List Int
  | 0, _ => []
  | count + 1, g =>
    (clock + drawnPause g) :: startsFrom (clock + drawnPause g) count g.advance.advance.advance

variable {i count : Nat}

theorem timingsFrom_succ (clock : Int64) (i count : Nat) (g : Generator) :
    (timingsFrom clock i (count + 1) g).1 =
      (nextTiming clock (i % weights.length) g).1 ::
        (timingsFrom (nextTiming clock (i % weights.length) g).1.start (i + 1) count
          g.advance.advance.advance).1 := rfl

theorem length_timingsFrom (clock : Int64) (i count : Nat) (g : Generator) :
    (timingsFrom clock i count g).1.length = count := by
  induction count generalizing clock i g with
  | zero => rfl
  | succ count ih => rw [timingsFrom_succ, List.length_cons, ih]

/-- The queues take turns, from that of request `i` on. -/
theorem queue_timingsFrom (clock : Int64) (i count : Nat) (g : Generator) :
    (timingsFrom clock i count g).1.map Timing.queue =
      (List.range' i count).map fun k => .ofNat (k % weights.length) := by
  induction count generalizing clock i g with
  | zero => rfl
  | succ count ih =>
    rw [timingsFrom_succ, List.map_cons, ih, List.range'_succ, List.map_cons]
    rfl

/-- The number of a queue is small enough for a word. -/
theorem toInt_queue (i : Nat) :
    (Int64.ofNat (i % weights.length)).toInt = ((i % weights.length : Nat) : Int) := by
  have hlt : i % weights.length < 4 := Nat.mod_lt i (by decide)
  exact Int64.toInt_ofNat_of_lt (by omega)

theorem le_elapsed_timingsFrom (clock : Int64) (i count : Nat) (g : Generator) :
    ∀ t ∈ (timingsFrom clock i count g).1, 1000 ≤ t.elapsed.toInt := by
  induction count generalizing clock i g with
  | zero => exact nofun
  | succ count ih =>
    rw [timingsFrom_succ, List.forall_mem_cons]
    exact ⟨le_elapsed_nextTiming clock _ g, ih _ _ _⟩

/-- **The starts in words are those of any size** if there is room for as many of the longest pauses. -/
theorem start_timingsFrom (hlow : 0 ≤ clock.toInt) (hhigh : clock.toInt + 51000 * count < 2 ^ 63) :
    (timingsFrom clock i count g).1.map (fun t => t.start.toInt) =
      startsFrom clock.toInt count g := by
  induction count generalizing clock i g with
  | zero => rfl
  | succ count ih =>
    have hbounds := drawnPause_bounds g
    have hstart : (nextTiming clock (i % weights.length) g).1.start.toInt =
        clock.toInt + drawnPause g := start_nextTiming hlow (by omega)
    rw [timingsFrom_succ, List.map_cons, ih (by omega) (by omega), hstart, startsFrom]

/-- Each start is a pause behind the one before. -/
theorem isChain_startsFrom (clock : Int) (count : Nat) (g : Generator) :
    (clock :: startsFrom clock count g).IsChain fun s s' => s + 1000 ≤ s' ∧ s' ≤ s + 51000 := by
  induction count generalizing clock g with
  | zero => exact .singleton clock
  | succ count ih =>
    have hbounds := drawnPause_bounds g
    rw [startsFrom, List.isChain_cons_cons]
    exact ⟨by omega, ih _ _⟩

/-- There is room for the longest pauses of all requests. -/
theorem start_timings (g : Generator) :
    (timings g).1.map (fun t => t.start.toInt) = startsFrom 1000000 requestCount g := by
  have hclock : (1000000 : Int64).toInt = 1000000 := by decide
  have hlow : (0 : Int) ≤ (1000000 : Int64).toInt := by decide
  have hhigh : (1000000 : Int64).toInt + 51000 * requestCount < 2 ^ 63 := by decide
  have hrun : (timings g).1.map (fun t => t.start.toInt) =
      startsFrom (1000000 : Int64).toInt requestCount g := start_timingsFrom hlow hhigh
  rwa [hclock] at hrun

/-- **The sample requests are regular**, whatever the state of the generator is. The queues take turns, each
start is between one and fifty-one microseconds behind the one before, the first of them behind the
millisecond at which the clock starts, and the clock is never cut. A request takes a microsecond at least,
whatever time is drawn for it. -/
theorem timings_regular (g : Generator) :
    (timings g).1.length = requestCount ∧
      (timings g).1.map (fun t => t.queue.toInt) =
        (List.range requestCount).map (fun i => ((i % weights.length : Nat) : Int)) ∧
      (1000000 :: (timings g).1.map fun t => t.start.toInt).IsChain
        (fun s s' => s + 1000 ≤ s' ∧ s' ≤ s + 51000) ∧
      ((timings g).1.map Timing.start).Pairwise (· < ·) ∧
      (timings g).1.map (fun t => t.start.toInt) = startsFrom 1000000 requestCount g ∧
      (∀ t ∈ (timings g).1, 1000 ≤ t.elapsed.toInt) ∧
      ∀ time : Double, 1000 ≤ (serviceTime time).toInt := by
  have hchain := isChain_startsFrom 1000000 requestCount g
  rw [← start_timings] at hchain
  refine ⟨length_timingsFrom _ _ _ _, ?_, hchain, ?_, start_timings g,
    le_elapsed_timingsFrom _ _ _ _, le_toInt_serviceTime⟩
  · have hqueues := congrArg (List.map Int64.toInt) (queue_timingsFrom 1000000 0 requestCount g)
    rw [List.map_map, List.map_map, ← List.range_eq_range'] at hqueues
    rw [← List.map_congr_left fun i _ => toInt_queue i]
    exact hqueues
  · -- bounded steps are steps forward, and these add up
    have hincreasing := hchain.imp fun s s' h => (by omega : s < s')
    rw [List.isChain_iff_pairwise] at hincreasing
    have hpairs := List.pairwise_map.1 (List.pairwise_cons.1 hincreasing).2
    exact List.pairwise_map.2 (hpairs.imp fun h => Int64.lt_iff_toInt_lt.2 h)

end Sample

end LineChart
