import LineChart.Files.Content
import LineChart.Sample.Measurements

/-!
# Sample files

Sample measurements as delimited and as columnar files.

* `Sample.sharesText` : shares of bandwidth as a delimited file.
* `Sample.timingsText`, `Sample.timingsFile` : request times as a delimited and as a columnar file.
* `Sample.write` : all sample files, with what is reported about them.
-/

namespace LineChart.Sample

/-- One line of a delimited file whose fields need no quotes. -/
def writeLine (fields : List String) : String := ",".intercalate fields ++ "\n"

/-- A delimited file of such lines. -/
def writeLines (lines : List (List String)) : String := String.join (lines.map writeLine)

def shareNames : List String := ["set_1", "set_2", "set_3", "set_4"]

/-- Shares with six places. -/
def sharesText (shares : List (List Double)) : String :=
  writeLines (shareNames :: shares.map fun row => row.map (Double.fixed 6))

def timingNames : List String := ["queue_id", "start_time", "elapsed"]

def Timing.fields (t : Timing) : List String :=
  [t.queue, t.start, t.elapsed].map fun n => toString n.toInt

def timingsText (timings : List Timing) : String :=
  writeLines (timingNames :: timings.map Timing.fields)

/-- A column of integers, none of them null. -/
def integers (cells : List Int64) : TypedCells := .signed (cells.map some)

def timingsFile (timings : List Timing) : Columnar.File :=
  ⟨timingNames.zip [integers (timings.map Timing.queue), integers (timings.map Timing.start),
    integers (timings.map Timing.elapsed)], by
    simp [timingNames, integers, TypedCells.length, Columnar.lengthOf]⟩

def sharesPath : Path := ⟨"wfq/output.csv"⟩
def timingsTextPath : Path := ⟨"build/timestamp_output.csv"⟩
def timingsFilePath : Path := ⟨"build/timestamp_output.parquet"⟩

/-- The files to write, in order. -/
def contents (seed : UInt64) : List (Path × FileContent) :=
  let (shares, g) := shares (.ofSeed seed)
  let (timings, _) := timings g
  [(sharesPath, .ofText (sharesText shares)), (timingsTextPath, .ofText (timingsText timings)),
   (timingsFilePath, .columnar (timingsFile timings))]

/-- What is reported when all is written. -/
def report : List String :=
  let (shareCount, requestCount, queues) := (shareCount, requestCount, weights.length)
  let (shares, text, file) := (sharesPath.text, timingsTextPath.text, timingsFilePath.text)
  [s!"Wrote {shareCount} bandwidth samples to {shares}",
   s!"Wrote {requestCount} request timings over {queues} queues to {text} and {file}"]

/-- Saves some files one after the other, up to the first that fails. -/
def saveAll (files : Files) : List (Path × FileContent) → Files × Except FileError Unit
  | [] => (files, .ok ())
  | (path, content) :: rest =>
    match files.save path content with
    | (files, .error e) => (files, .error e)
    | (files, .ok ()) => saveAll files rest

/-- The seed of the sample files. -/
def seed : UInt64 := 42

/-- Writes the sample files. -/
def write (files : Files) : Files × Except FileError (List String) :=
  match saveAll files (contents seed) with
  | (files, .error e) => (files, .error e)
  | (files, .ok ()) => (files, .ok report)

end LineChart.Sample
