import LineChart.Description.Basic

/-!
# The stock figures of the scheduler experiments

* `bandwidth` : the share of the bandwidth that each set gets, over time.
* `requestTime` : the elapsed time of every request against its start, as one line.
* `requestTimeByQueue` : the same with one line for each queue.
-/

namespace LineChart.Presets

def bandwidthInput : Path := ⟨"wfq/output.csv"⟩
def bandwidthOutput : Path := ⟨"wfq_graph03.pdf"⟩
def requestTimeInput : Path := ⟨"../build/timestamp_output.csv"⟩
def requestTimeOutput : Path := ⟨"graph_request_time.pdf"⟩

/-- The sets that are drawn if none are asked for, in drawing order. -/
def defaultSets : List UInt32 := [2, 1]

/-- The line of a set. Its label has at least two digits. -/
def setSeries (set : UInt32) : SeriesDescription :=
  let number := toString set.toNat
  let wide := if set < 10 then "0" ++ number else number
  { y := s!"set_{number}", label := s!"Set {wide}" }

def bandwidth (sets : List UInt32) : FigureDescription :=
  { input := bandwidthInput, output := bandwidthOutput,
    xLabel := "Timestamp", yLabel := "Bandwidth Proportion",
    series := (if sets.isEmpty then defaultSets else sets).map setSeries }

/-- The axes of request times, with some lines. -/
def requestTimes (series : List SeriesDescription) : FigureDescription :=
  { input := requestTimeInput, output := requestTimeOutput,
    xLabel := "Start Time (ns)", yLabel := "Elapsed Time (ns)", series }

/-- A line of request times. -/
def requestSeries (label : String) : SeriesDescription :=
  { y := "elapsed", x := .column "start_time", label }

def requestTime (label : String) : FigureDescription := requestTimes [requestSeries label]

/-- The line of one queue, which its label gives with its weight. -/
def queueSeries (weight : UInt64) (queue : Nat) : SeriesDescription :=
  let shown := weight.toNat
  { requestSeries s!"Queue {queue} ({shown})" with
    filter := some ⟨"queue_id", .ofInt queue⟩ }

/-- One line for each weight, or for each queue in the data if no weights are given. -/
def requestTimeByQueue (weights : List UInt64) : FigureDescription :=
  if weights.isEmpty then
    requestTimes [{ requestSeries "Queue \x7bkey\x7d" with groupBy := some "queue_id" }]
  else requestTimes (weights.zipIdx.map fun (weight, queue) => queueSeries weight queue)

end LineChart.Presets
