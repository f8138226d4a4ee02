import LineChart.Document

/-!
# Trees of TOML tables

While a TOML text is read, its tables are kept in a form that remembers how each one came about,
since that decides what may still be added to it.

* `Item` : a value, a table, or a list of tables.
* `Item.update` : a change to the table at the end of some keys.
* `Item.assign` : a key set to a value.
* `Item.openTable`, `Item.openEntry` : the effect of a header on the tree.
* `Item.document` : the tree as a document.
-/

namespace LineChart.Toml

/-- What a key stands for. -/
inductive Item where
  /-- A value, closed to additions. -/
  | value (value : Document)
  /-- A table. It is *implied* as long as only longer keys have named it, and *dotted* if those were
  keys of values rather than headers. -/
  | table (implied dotted : Bool) (entries : List (String × Item))
  /-- A list of tables by their entries, in the order of their headers. -/
  | tables (items : List (List (String × Item)))

/-- The entries of a table, in the order of their first appearance. -/
abbrev Entries := List (String × Item)

namespace Item

def lookup (entries : Entries) (key : String) : Option Item :=
  (entries.find? fun entry => entry.1 = key).map Prod.snd

/-- Sets the entry of a key, in its place or at the end. -/
def set (key : String) (item : Item) : Entries → Entries
  | [] => [(key, item)]
  | (k, i) :: rest => if k = key then (key, item) :: rest else (k, i) :: set key item rest

/-- Changes the table at the end of some keys by `change`, which is told whether that table is
dotted. Tables missing on the way are implied. A list of tables is entered at its last table. Keys
of a value (`dotted`) do not lead through a table that is more than implied. -/
def update (dotted : Bool) (change : Bool → Entries → Option Entries) :
    List String → Bool → Entries → Option Entries
  | [], isDotted, entries => change isDotted entries
  | key :: rest, _, entries =>
    match lookup entries key with
    | none =>
      (update dotted change rest dotted []).map fun inner =>
        set key (.table true dotted inner) entries
    | some (.value _) => none
    | some (.table implied wasDotted inner) =>
      if dotted ∧ ¬ implied then none
      else
        (update dotted change rest wasDotted inner).map fun inner =>
          set key (.table implied wasDotted inner) entries
    | some (.tables items) =>
      match items.getLast? with
      | none => none
      | some last =>
        (update dotted change rest false last).map fun inner =>
          set key (.tables (items.dropLast ++ [inner])) entries

/-- Adds an entry for a new key. A plain key belongs to a table that is not dotted, the last part of
a longer one to a table that is. -/
def addEntry (viaDots : Bool) (key : String) (value : Document) (isDotted : Bool)
    (entries : Entries) : Option Entries :=
  if isDotted ≠ viaDots then none
  else
    match lookup entries key with
    | none => some (entries ++ [(key, .value value)])
    | some _ => none

/-- Sets a key of a table. -/
def assign (key : List String) (value : Document) (entries : Entries) : Option Entries :=
  match key.getLast? with
  | none => none
  | some last =>
    update true (addEntry (1 < key.length) last value) key.dropLast false entries

/-- Opens the table of a header, which is new or only implied by other headers. -/
def openTable (key : List String) (entries : Entries) : Option Entries :=
  match key.getLast? with
  | none => none
  | some last =>
    update false (fun _ entries =>
      match lookup entries last with
      | none => some (set last (.table false false []) entries)
      | some (.table true false inner) => some (set last (.table false false inner) entries)
      | some _ => none) key.dropLast false entries

/-- Opens a new table in the list of tables of a header. -/
def openEntry (key : List String) (entries : Entries) : Option Entries :=
  match key.getLast? with
  | none => none
  | some last =>
    update false (fun _ entries =>
      match lookup entries last with
      | none => some (set last (.tables [[]]) entries)
      | some (.tables items) => some (set last (.tables (items ++ [[]])) entries)
      | some _ => none) key.dropLast false entries

/-- Sets a key in the table that the last header opened. -/
def assignUnder (header key : List String) (value : Document) (entries : Entries) :
    Option Entries :=
  update false (fun _ entries => assign key value entries) header false entries

mutual

/-- An item as a document. -/
def document : Item → Document
  | .value content => content
  | .table _ _ entries => .record (documents entries)
  | .tables items => .list (records items)

def documents : List (String × Item) → List (String × Document)
  | [] => []
  | (key, item) :: rest => (key, document item) :: documents rest

def records : List (List (String × Item)) → List Document
  | [] => []
  | entries :: rest => .record (documents entries) :: records rest

end

end Item

end LineChart.Toml
