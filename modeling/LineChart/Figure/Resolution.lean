import LineChart.Figure.Basic
import LineChart.Table.Records

/-!
# Resolving a description against a table

`resolve` draws up the figure that a description asks for, with the data of a table. Every series of
the description becomes one series of the figure, or one for each key if it is grouped.

* `splitRuns` : points cut where a coordinate is missing.
* `Draft` : a series of the figure before colours are spread over all of them.
* `SeriesDescription.drafts` : what one series of the description becomes.
* `resolve` : the figure or the first error, and the log of what was passed over.
-/

namespace LineChart

/-! ### Runs -/

/-- A point that cannot be drawn, because one of its coordinates is missing. -/
def Point.isGap (p : Point) : Bool := p.x.isNaN || p.y.isNaN

/-- The run that ends, with its points in reverse; an empty one does not count. -/
def closeRun : List Point → List (List Point)
  | [] => []
  | run => [run.reverse]

/-- The runs of some points behind the points of an open run, which are in reverse. -/
def runsBehind : List Point → List Point → List (List Point)
  | openRun, [] => closeRun openRun
  | openRun, p :: rest =>
    if p.isGap then closeRun openRun ++ runsBehind [] rest else runsBehind (p :: openRun) rest

/-- The runs of some points: the unbroken blocks between gaps. -/
def splitRuns (points : List Point) : List (List Point) := runsBehind [] points

/-- The number of gaps. -/
def gapCount (points : List Point) : Nat := points.countP Point.isGap

/-! ### Drafts -/

/-- What can go wrong while a description is resolved. -/
inductive ResolveError where
  | description (e : DescriptionError)
  | table (e : TableError)
  | nothingToGroup (label column : String)
  | nothingFound (label column : String) (wanted : Cell)
  /-- A colour that passed the check is none after all. -/
  | lostColour (label colour : String)
deriving DecidableEq

namespace ResolveError

def message : ResolveError → String
  | description e => e.message
  | table e => e.message
  | nothingToGroup label column => s!"series '{label}': no rows to group by '{column}'"
  | nothingFound label column wanted =>
    let shown := wanted.display
    s!"series '{label}': no rows where {column} == {shown}"
  | lostColour label colour => s!"series '{label}': colour '{colour}'"

end ResolveError

/-- A series of the figure that has no colour yet, unless the description gives one. -/
structure Draft where
  label : String
  /-- One point for each row, gaps included. -/
  points : List Point
  style : LineStyle
  colour : Option String
deriving DecidableEq

/-- What a series of a description becomes. -/
structure Expansion where
  drafts : List Draft
  /-- The column and the number of rows that were passed over for want of a key. -/
  skipped : Option (String × Nat)

/-- Puts a text in the place of every `{key}`. -/
def fillKey (key : List Char) : List Char → List Char
  | '\x7b' :: 'k' :: 'e' :: 'y' :: '\x7d' :: rest => key ++ fillKey key rest
  | c :: rest => c :: fillKey key rest
  | [] => []

namespace SeriesDescription

/-- The x coordinates of all rows. -/
def abscissas (s : SeriesDescription) (t : Table) : Except TableError (List Double) :=
  match s.x with
  | .index => .ok t.index
  | .column name => t.numbers name

/-- The points of all rows. The x coordinates are looked up first. -/
def points (s : SeriesDescription) (t : Table) : Except TableError (List Point) :=
  match s.abscissas t with
  | .error e => .error e
  | .ok xs =>
    match t.numbers s.y with
    | .error e => .error e
    | .ok ys => .ok (List.zipWith Point.mk xs ys)

/-- The draft of some rows. -/
def draft (s : SeriesDescription) (label : String) (points : List Point) : Draft :=
  ⟨label, points, s.style, s.colour⟩

/-- The label of a group. -/
def labelOf (s : SeriesDescription) (key : Cell) : String :=
  .ofList (fillKey key.display.toList s.label.toList)

/-- The drafts of some groups, a missing key apart. -/
def groupDrafts (s : SeriesDescription) (points : Array Point) (groups : Groups) : List Draft :=
  (groups.filter fun group => group.1 ≠ .missing).map fun (key, rows) =>
    s.draft (s.labelOf key) (pick points rows)

/-- What a series becomes: one draft for each key of its group column, for the rows that pass its
filter, or for all rows. -/
def drafts (s : SeriesDescription) (t : Table) : Except ResolveError Expansion :=
  match s.points t with
  | .error e => .error (.table e)
  | .ok points =>
    match s.groupBy with
    | some column =>
      match t.groups column with
      | .error e => .error (.table e)
      | .ok groups =>
        if groups.isEmpty then .error (.nothingToGroup s.label column)
        else
          let without := groups.find? fun group => group.1 = .missing
          .ok ⟨s.groupDrafts points.toArray groups,
            without.map fun group => (column, group.2.length)⟩
    | none =>
      match s.filter with
      | some filter =>
        let wanted := Cell.ofJson filter.wanted
        match t.rowsWhere filter.column wanted with
        | .error e => .error (.table e)
        | .ok rows =>
          if rows.isEmpty then .error (.nothingFound s.label filter.column wanted)
          else .ok ⟨[s.draft s.label (pick points.toArray rows)], none⟩
      | none => .ok ⟨[s.draft s.label points], none⟩

end SeriesDescription

/-! ### The log -/

/-- What is noted while a description is resolved. -/
inductive LogEntry where
  | skipped (label : String) (count : Nat) (column : String)
  | gaps (label : String) (count : Nat)
  | drawn (label : String) (points runs : Nat)
deriving DecidableEq

namespace LogEntry

/-- Rows that are not drawn are warned of. -/
def isWarning : LogEntry → Bool
  | skipped .. | gaps .. => true
  | drawn .. => false

def message : LogEntry → String
  | skipped label count column => s!"series '{label}': skipped {count} rows with no '{column}'"
  | gaps label count => s!"series '{label}': {count} rows with missing values leave gaps"
  | drawn label points runs => s!"series '{label}': {points} points in {runs} runs"

/-- The line of an entry: its weight and its message. -/
def line (e : LogEntry) : String :=
  (if e.isWarning then "WARN " else "DEBUG ") ++ e.message

end LogEntry

/-- The warning about the gaps of a draft, if it has any. -/
def Draft.warnings (d : Draft) : List LogEntry :=
  if gapCount d.points = 0 then [] else [.gaps d.label (gapCount d.points)]

/-- The warnings about what a series becomes. -/
def Expansion.warnings (e : Expansion) (label : String) : List LogEntry :=
  let skipped := match e.skipped with
    | some (column, count) => [LogEntry.skipped label count column]
    | none => []
  skipped ++ e.drafts.flatMap Draft.warnings

/-! ### The figure -/

/-- The outcome of resolving a description, with the log up to there. -/
structure Resolution where
  log : List LogEntry
  outcome : Except ResolveError Figure

/-- The drafts of some series, behind a log. -/
def expandAll (t : Table) :
    List LogEntry → List SeriesDescription → List LogEntry × Except ResolveError (List Draft)
  | log, [] => (log, .ok [])
  | log, s :: rest =>
    match s.drafts t with
    | .error e => (log, .error e)
    | .ok expansion =>
      let (log, drafts) := expandAll t (log ++ expansion.warnings s.label) rest
      (log, drafts.map (expansion.drafts ++ ·))

/-- The series of a draft, with a colour to use if it has none. -/
def Draft.series (d : Draft) (spare : Colour) : Except ResolveError Series :=
  let series (colour : Colour) : Series := ⟨d.label, splitRuns d.points, d.style, colour⟩
  match d.colour with
  | none => .ok (series spare)
  | some text =>
    match Colour.read text with
    | .colour c => .ok (series c)
    | _ => .error (.lostColour d.label text)

/-- The entry about a series that is drawn. -/
def Series.entry (s : Series) : LogEntry := .drawn s.label s.pointCount s.runs.length

/-- The series of some drafts with their spare colours, behind a log. -/
def finishAll : List LogEntry → List (Draft × Colour) →
    List LogEntry × Except ResolveError (List Series)
  | log, [] => (log, .ok [])
  | log, (draft, spare) :: rest =>
    match draft.series spare with
    | .error e => (log, .error e)
    | .ok series =>
      let (log, all) := finishAll (log ++ [series.entry]) rest
      (log, all.map (series :: ·))

/-- The figure of a description with some series. -/
def FigureDescription.figure (d : FigureDescription) (series : List Series) : Figure :=
  { title := d.title, xLabel := d.xLabel, yLabel := d.yLabel, width := d.width,
    height := d.height, dpi := d.dpi, legend := d.legend, grid := d.grid, xRange := d.xRange,
    yRange := d.yRange, output := d.output, series }

/-- The figure that a description asks for. The description is checked first, then its series are
expanded one after the other, and colours are spread over all the drafts at last. -/
def resolve (d : FigureDescription) (t : Table) : Resolution :=
  match d.check with
  | .error e => ⟨[], .error (.description e)⟩
  | .ok () =>
    match expandAll t [] d.series with
    | (log, .error e) => ⟨log, .error e⟩
    | (log, .ok drafts) =>
      let (log, series) := finishAll log (drafts.zip (palette drafts.length))
      ⟨log, series.map d.figure⟩

end LineChart
