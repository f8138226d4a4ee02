import LineChart.Sample.Random
import LineChart.Table.Columnar

/-!
# Sample measurements

Measurements as a run of the scheduler with four weighted queues would give them.

* `Sample.shares` : the share of the bandwidth of each set, step by step.
* `Sample.timings` : the start and the elapsed time of each request.
-/

namespace LineChart.Sample

/-- The weights of the queues. -/
def weights : List Nat := [500, 1000, 1500, 2000]

def totalWeight : Nat := weights.foldl (fun total weight => total + weight) 0

/-- The number of samples of bandwidth, and the number of requests. -/
def shareCount : Nat := 200
def requestCount : Nat := 400

/-! ### Bandwidth -/

/-- The deviation of the shares at a step: the queues warm up at first. -/
def noise (step : Nat) : Double :=
  .ofDecimal false ⟨8, -2⟩ / (.ofNat 1 + .ofNat step / .ofNat 20)

/-- One share for each weight, before they are made to add up to one. -/
def rawShares (deviation : Double) : List Nat → Generator → List Double × Generator
  | [], g => ([], g)
  | weight :: rest, g =>
    let (offset, g) := g.nextGaussian .zero deviation
    let (shares, g) := rawShares deviation rest g
    ((.ofNat weight / .ofNat totalWeight + offset : Double).larger .zero :: shares, g)

/-- Shares divided by their sum, which is kept away from zero. -/
def normalize (shares : List Double) : List Double :=
  let sum := (shares.foldl (fun sum share => sum + share) Binary.zero).larger .epsilon
  shares.map fun share => share / sum

/-- The shares of `count` steps, the first of which is `step`. -/
def sharesFrom (step : Nat) : Nat → Generator → List (List Double) × Generator
  | 0, g => ([], g)
  | count + 1, g =>
    let (shares, g) := rawShares (noise step) weights g
    let (rest, g) := sharesFrom (step + 1) count g
    (normalize shares :: rest, g)

/-- The shares of all steps. -/
def shares (g : Generator) : List (List Double) × Generator := sharesFrom 0 shareCount g

/-! ### Request times -/

/-- The times of one request, in nanoseconds. -/
structure Timing where
  queue : Int64
  start : Int64
  elapsed : Int64
deriving DecidableEq

/-- The integer part of a number, as far as it has sixty-four bits. -/
def wholePart (x : Double) : Int64 :=
  .ofInt (x.clampTo Int64.minValue.toInt Int64.maxValue.toInt Binary.truncate)

/-- The time between two requests: at least a microsecond, and at most fifty more. -/
def pause (fraction : Double) : Int64 := wholePart (fraction * .ofNat 50000) + 1000

/-- The usual time that a request of a queue takes: heavier queues are served sooner. -/
def usualTime (queue : Nat) : Double := .ofNat 40000000000 / .ofNat (weights[queue]?.getD 0)

/-- The time that a request takes, at least a microsecond. -/
def serviceTime (time : Double) : Int64 := wholePart (time.larger (.ofNat 1000))

/-- The next request of a queue after a point in time. -/
def nextTiming (clock : Int64) (queue : Nat) (g : Generator) : Timing × Generator :=
  let (fraction, g) := g.nextFraction
  let usual := usualTime queue
  let (time, g) := g.nextGaussian usual (usual * .ofDecimal false ⟨1, -1⟩)
  (⟨.ofNat queue, clock + pause fraction, serviceTime time⟩, g)

/-- The times of `count` requests after a point in time, the first of which is request `i`. The
queues take turns. -/
def timingsFrom (clock : Int64) (i : Nat) : Nat → Generator → List Timing × Generator
  | 0, g => ([], g)
  | count + 1, g =>
    let (timing, g) := nextTiming clock (i % weights.length) g
    let (rest, g) := timingsFrom timing.start (i + 1) count g
    (timing :: rest, g)

/-- The times of all requests; the clock starts at a millisecond. -/
def timings (g : Generator) : List Timing × Generator := timingsFrom 1000000 0 requestCount g

end LineChart.Sample
