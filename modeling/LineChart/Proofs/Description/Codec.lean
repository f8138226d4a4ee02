import LineChart.Description.Fields
import LineChart.Proofs.Json.RoundTrip

/-!
# Descriptions and their JSON texts

A description is read back from the JSON text that is written for it. Options that are absent are
left out of the text, and the reader takes what is not there as absent, so the records of a
description are lists of *slots*, each a name with a value or nothing.

* `present` : the fields of the slots that are filled.
* `fieldsOf?_present` : reading the fields of all slots gives the slots back.
* `FigureDescription.Portable` : what a description has to be like.
* `FigureDescription.ofJson?_render` : it is read back, and equal to itself.
-/

namespace LineChart

/-! ### Slots -/

/-- The fields of the slots that are filled. -/
def present {α : Type} (slots : List (String × Option α)) : List (String × α) :=
  slots.filterMap fun slot => slot.2.map fun value => (slot.1, value)

theorem fst_mem_of_mem_present {α : Type} {slots : List (String × Option α)} {field : String × α}
    (h : field ∈ present slots) : field.1 ∈ slots.map Prod.fst := by
  obtain ⟨slot, hslot, hfield⟩ := List.mem_filterMap.1 h
  obtain ⟨value, -, rfl⟩ := Option.map_eq_some_iff.1 hfield
  exact List.mem_map_of_mem hslot

/-- Values that are changed alike are those of slots that are. -/
theorem map_present {α β : Type} (f : α → β) (slots : List (String × Option α)) :
    (present slots).map (fun field => (field.1, f field.2)) =
      present (slots.map fun slot => (slot.1, slot.2.map f)) := by
  rw [present, present, List.map_filterMap, List.filterMap_map]
  congr 1
  funext slot
  cases hvalue : slot.2 <;> simp [hvalue]

/-- A field of another name is passed over. -/
theorem fieldsOf?_cons {fields : List (String × Document)} {names : List String} {name : String}
    (value : Document) (h : name ∉ names) :
    fieldsOf? ((name, value) :: fields) names = fieldsOf? fields names := by
  induction names with
  | nil => rfl
  | cons other names ih =>
    obtain ⟨hother, hnames⟩ := not_or.1 (mt List.mem_cons.2 h)
    have hfield : fieldOf? ((name, value) :: fields) other = fieldOf? fields other := by
      rw [fieldOf?, fieldOf?, List.filter_cons_of_neg (by simpa using hother)]
    rw [fieldsOf?, fieldsOf?, hfield, ih hnames]

theorem fieldsOf?_eq_some_cons {fields : List (String × Document)} {name : String}
    {names : List String} {value : Option Document} {values : List (Option Document)}
    (h : fieldOf? fields name = some value) (hrest : fieldsOf? fields names = some values) :
    fieldsOf? fields (name :: names) = some (value :: values) := by
  rw [fieldsOf?, h, hrest]

/-- **Reading the fields of all slots gives the slots back.** -/
theorem fieldsOf?_present {slots : List (String × Option Document)}
    (h : (slots.map Prod.fst).Nodup) :
    fieldsOf? (present slots) (slots.map Prod.fst) = some (slots.map Prod.snd) := by
  induction slots with
  | nil => rfl
  | cons slot slots ih =>
    obtain ⟨name, value⟩ := slot
    obtain ⟨hname, hnames⟩ := List.nodup_cons.1 h
    have hnone : (present slots).filter (fun field => field.1 = name) = [] := by
      refine List.filter_eq_nil_iff.2 ?_
      intro field hfield hsame
      obtain rfl := of_decide_eq_true hsame
      exact hname (fst_mem_of_mem_present hfield)
    cases value with
    | none =>
      have hfield : fieldOf? (present slots) name = some none := by rw [fieldOf?, hnone]
      exact fieldsOf?_eq_some_cons hfield (ih hnames)
    | some value =>
      have hfield : fieldOf? ((name, value) :: present slots) name = some (some value) := by
        rw [fieldOf?, List.filter_cons_of_pos (by simp), hnone]
      exact fieldsOf?_eq_some_cons hfield ((fieldsOf?_cons value hname).trans (ih hnames))

theorem Document.fields?_present {dialect : Dialect} {names : List String}
    (slots : List (String × Option Document)) (hnames : slots.map Prod.fst = names)
    (h : names.Nodup) :
    (Document.record (present slots)).fields? dialect names = some (slots.map Prod.snd) := by
  subst hnames
  exact fieldsOf?_present h

/-- The values of the fields of a record that is written from slots. -/
theorem Document.fields?_record {dialect : Dialect} {names : List String}
    (slots : List (String × Option Json)) (hnames : slots.map Prod.fst = names) (h : names.Nodup) :
    (Json.record (present slots)).document.fields? dialect names =
      some (slots.map fun slot => slot.2.map Json.document) := by
  have hdocument : (Json.record (present slots)).document =
      .record (present (slots.map fun slot => (slot.1, slot.2.map Json.document))) := by
    rw [Json.document_record, map_present]
  rw [hdocument, fields?_present _ ?_ h, List.map_map]
  · rfl
  · rw [List.map_map]
    exact hnames

/-- A record is read back if the values in its slots are. -/
theorem readable_record_present {levels : Nat} {slots : List (String × Option Json)}
    (h : ∀ slot ∈ slots, ∀ value ∈ slot.2, value.Readable levels) :
    (Json.record (present slots)).Readable (levels + 1) := by
  refine .record ?_
  intro field hfield
  obtain ⟨slot, hslot, hvalue⟩ := List.mem_filterMap.1 hfield
  obtain ⟨value, hsome, rfl⟩ := Option.map_eq_some_iff.1 hvalue
  exact h slot hslot value hsome

theorem Document.withDefault_some {α : Type} (default : α) (read : Document → Option α)
    (d : Document) : withDefault default read (some d) = read d := by
  rw [withDefault]

/-- An optional value is read back, if what is written for it is never null. -/
theorem Document.optional_map {α : Type} {read : Document → Option α} {write : α → Json}
    {value : Option α} (hread : ∀ a ∈ value, read (write a).document = some a)
    (hnull : ∀ a, (write a).document ≠ .null) :
    Document.optional read ((value.map write).map Json.document) = some value := by
  cases value with
  | none => rfl
  | some a =>
    rw [Option.map_some, Option.map_some, Document.optional, hread a rfl, Option.map_some]
    exact hnull a

/-- An optional text is read back. -/
theorem Document.optional_text (value : Option String) :
    Document.optional text? ((value.map Json.text).map Json.document) = some value :=
  optional_map (fun _ _ => rfl) (by simp [Json.document])

/-! ### What can be read back -/

/-- The value of a filter is read back from its text: its records ascend, its decimals are read back
from theirs, and its nesting leaves room for what is around it. -/
structure RowFilter.Portable (f : RowFilter) : Prop where
  ascending : f.wanted.Ascending
  readable : f.wanted.Readable 123

/-- The column of a series is not named as the row numbers are. -/
structure SeriesDescription.Portable (s : SeriesDescription) : Prop where
  x : s.x ≠ .column Abscissa.index.name
  filter : ∀ f ∈ s.filter, f.Portable

structure Interval.Portable (range : Interval) : Prop where
  low : range.low.Portable
  high : range.high.Portable

structure FigureDescription.Portable (d : FigureDescription) : Prop where
  size : Interval.Portable ⟨d.width, d.height⟩
  xRange : ∀ range ∈ d.xRange, range.Portable
  yRange : ∀ range ∈ d.yRange, range.Portable
  series : ∀ s ∈ d.series, s.Portable

/-! ### Parts of a description -/

theorem jsonNumber_of_portable {x : Double} (h : x.Portable) : jsonNumber x = .decimal x :=
  if_pos h.isFinite

theorem Interval.ofDocument_toJson {range : Interval} (h : range.Portable) :
    range.toJson.document.interval? .json = some range := by
  rw [toJson, jsonNumber_of_portable h.low, jsonNumber_of_portable h.high]
  rfl

theorem Interval.Portable.readable_toJson {range : Interval} (h : range.Portable) (levels : Nat) :
    range.toJson.Readable (levels + 1) := by
  rw [Interval.toJson, jsonNumber_of_portable h.low, jsonNumber_of_portable h.high]
  refine .list ?_
  intro item hitem
  simp only [List.mem_cons, List.not_mem_nil, or_false] at hitem
  rcases hitem with rfl | rfl
  · exact .decimal h.low
  · exact .decimal h.high

theorem Interval.Portable.same_self {range : Interval} (h : range.Portable) :
    range.same range = true := by
  rw [Interval.same, Json.equal_self h.low.isFinite, Json.equal_self h.high.isFinite]
  rfl

theorem Abscissa.ofName_name {x : Abscissa} (h : x ≠ .column Abscissa.index.name) :
    ofName x.name = x := by
  cases x with
  | index => rfl
  | column name =>
    refine if_neg ?_
    rintro rfl
    exact h rfl

theorem LineStyle.style?_name (style : LineStyle) :
    Document.style? .json (.text style.name) = some style := by
  cases style <;> rfl

/-! ### Row filters -/

open Document in
theorem RowFilter.ofDocument?_toJson {f : RowFilter} (h : f.Portable) :
    RowFilter.ofDocument? .json f.toJson.document = some f := by
  have hwanted : f.wanted.document.json? = some f.wanted :=
    Json.json?_document h.ascending (h.readable.decimals.imp fun x hx => hx.isFinite)
  have hfields : f.toJson.document.fields? .json ["column", "equals"] =
      some [some (.text f.column), some f.wanted.document] :=
    fields?_record [("column", some (.text f.column)), ("equals", some f.wanted)] rfl (by decide)
  rw [ofDocument?, hfields]
  simp [required, text?, hwanted]

theorem RowFilter.Portable.readable_toJson {f : RowFilter} (h : f.Portable) :
    f.toJson.Readable 124 := by
  refine .record ?_
  intro field hfield
  simp only [List.mem_cons, List.not_mem_nil, or_false] at hfield
  rcases hfield with rfl | rfl
  · exact .text f.column
  · exact h.readable

theorem RowFilter.Portable.same_self {f : RowFilter} (h : f.Portable) : f.same f = true := by
  have hsame : f.wanted.same f.wanted = true :=
    Json.same_self (h.readable.decimals.imp fun x hx => hx.isFinite)
  rw [RowFilter.same, hsame, decide_eq_true rfl]
  rfl

/-! ### Series -/

namespace SeriesDescription

variable {s : SeriesDescription}

/-- The slots of a series. -/
def slots (s : SeriesDescription) : List (String × Option Json) :=
  [("y", some (.text s.y)), ("x", some (.text s.x.name)), ("label", some (.text s.label)),
   ("style", some (.text s.style.name)), ("color", s.colour.map .text),
   ("where", s.filter.map RowFilter.toJson), ("group_by", s.groupBy.map .text)]

theorem toJson_eq (s : SeriesDescription) : s.toJson = .record (present s.slots) := by
  obtain ⟨y, x, label, style, colour, filter, groupBy⟩ := s
  cases colour <;> cases filter <;> cases groupBy <;> rfl

open Document in
theorem ofDocument?_toJson (h : s.Portable) :
    SeriesDescription.ofDocument? .json s.toJson.document = some s := by
  have hfields : s.toJson.document.fields? .json
      ["y", "x", "label", "style", "color", "where", "group_by"] =
        some (s.slots.map fun slot => slot.2.map Json.document) := by
    rw [s.toJson_eq]
    exact fields?_record s.slots rfl (by decide)
  have hfilter : optional (RowFilter.ofDocument? .json)
      ((s.filter.map RowFilter.toJson).map Json.document) = some s.filter :=
    optional_map (fun f hf => RowFilter.ofDocument?_toJson (h.filter f hf))
      (by simp [RowFilter.toJson, Json.document])
  rw [ofDocument?, hfields]
  simp only [slots, List.map_cons, List.map_nil, Option.map_some, required, withDefault_some,
    Json.document, text?, optional_text, hfilter, Abscissa.ofName_name h.x, LineStyle.style?_name]
  rfl

/-- What is written for a series is read back within three levels more than a filter's value. -/
theorem Portable.readable_toJson (h : s.Portable) : s.toJson.Readable 125 := by
  have hfilter : ∀ f, s.filter = some f → f.toJson.Readable 124 :=
    fun f hf => (h.filter f hf).readable_toJson
  rw [s.toJson_eq]
  refine readable_record_present ?_
  simpa [slots] using hfilter

theorem Portable.same_self (h : s.Portable) : s.same s = true := by
  have hfilter : sameOption RowFilter.same s.filter s.filter = true := by
    cases hvalue : s.filter with
    | none => rfl
    | some f => exact (h.filter f hvalue).same_self
  simp [same, hfilter]

end SeriesDescription

/-- A list is read if each of its items is. -/
theorem readAll_of_forall₂ {α : Type} {read : Document → Option α} {ds : List Document}
    {as : List α} (h : List.Forall₂ (fun d a => read d = some a) ds as) :
    readAll read ds = some as := by
  induction h with
  | nil => rfl
  | cons hfirst _ ih => rw [readAll, hfirst, ih]

/-- A list agrees with itself if each of its items does. -/
theorem isEqv_self {α : Type} {same : α → α → Bool} {as : List α}
    (h : ∀ a ∈ as, same a a = true) : as.isEqv as same = true := by
  induction as with
  | nil => rfl
  | cons a as ih =>
    obtain ⟨hfirst, hrest⟩ := List.forall_mem_cons.1 h
    rw [List.isEqv, hfirst, ih hrest]
    rfl

/-! ### Figures -/

namespace FigureDescription

variable {d : FigureDescription}

/-- The slots of a figure. -/
def slots (d : FigureDescription) : List (String × Option Json) :=
  [("input", some (.text d.input.text)), ("output", some (.text d.output.text)),
   ("title", d.title.map .text), ("x_label", some (.text d.xLabel)),
   ("y_label", some (.text d.yLabel)),
   ("size_inches", some (Interval.toJson ⟨d.width, d.height⟩)), ("dpi", some (.ofInt d.dpi.toNat)),
   ("legend", some (.flag d.legend)), ("grid", some (.flag d.grid)),
   ("x_range", d.xRange.map Interval.toJson), ("y_range", d.yRange.map Interval.toJson),
   ("series", some (.list (d.series.map SeriesDescription.toJson)))]

theorem toJson_eq (d : FigureDescription) : d.toJson = .record (present d.slots) := by
  obtain ⟨input, output, title, xLabel, yLabel, width, height, dpi, legend, grid, xRange, yRange,
    series⟩ := d
  cases title <;> cases xRange <;> cases yRange <;> rfl

/-- The resolution is an integer of thirty-two bits. -/
theorem ofInt_dpi (dpi : UInt32) : ∃ n : JsonInteger, Json.ofInt dpi.toNat = .integer n ∧
    n.value = dpi.toNat := by
  have hlt : dpi.toNat < 2 ^ 32 := dpi.toNat_lt
  have hfits : Int64.minValue.toInt ≤ (dpi.toNat : Int) ∧ (dpi.toNat : Int) < UInt64.size := by
    have hmin : Int64.minValue.toInt = -2 ^ 63 := by decide
    have hsize : UInt64.size = 2 ^ 64 := rfl
    omega
  exact ⟨⟨dpi.toNat, hfits⟩, dif_pos hfits, rfl⟩

theorem word?_dpi (dpi : UInt32) : (Json.ofInt dpi.toNat).document.word? = some dpi := by
  obtain ⟨n, hn, hvalue⟩ := ofInt_dpi dpi
  have hlt : dpi.toNat < 2 ^ 32 := dpi.toNat_lt
  have hsize : UInt32.size = 2 ^ 32 := rfl
  rw [hn, Json.document, hvalue, Document.word?, if_pos (by omega), Int.toNat_natCast,
    UInt32.ofNat_toNat]

/-- All series are read back if each of them is. -/
theorem readAll_map {series : List SeriesDescription} (h : ∀ s ∈ series, s.Portable) :
    readAll (SeriesDescription.ofDocument? .json)
      (series.map fun s => s.toJson.document) = some series := by
  refine readAll_of_forall₂ ?_
  rw [List.forall₂_map_left_iff, List.forall₂_same]
  exact fun s hs => SeriesDescription.ofDocument?_toJson (h s hs)

open Document in
theorem ofDocument?_toJson (h : d.Portable) : ofDocument? .json d.toJson.document = some d := by
  have hfields : d.toJson.document.fields? .json ["input", "output", "title", "x_label", "y_label",
      "size_inches", "dpi", "legend", "grid", "x_range", "y_range", "series"] =
        some (d.slots.map fun slot => slot.2.map Json.document) := by
    rw [d.toJson_eq]
    exact fields?_record d.slots rfl (by decide)
  have hrange : ∀ range : Option Interval, (∀ r ∈ range, r.Portable) →
      optional (interval? .json) ((range.map Interval.toJson).map Json.document) = some range :=
    fun range hrange => optional_map (fun r hr => Interval.ofDocument_toJson (hrange r hr))
      (by simp [Interval.toJson, Json.document])
  have hseries : seriesOfDocument? .json
      (Json.list (d.series.map SeriesDescription.toJson)).document = some d.series := by
    rw [Json.document_list, List.map_map]
    exact readAll_map h.series
  have hsize := Interval.ofDocument_toJson h.size
  rw [ofDocument?, hfields]
  simp only [slots, List.map_cons, List.map_nil, Option.map_some, required, withDefault_some,
    hseries, hsize, hrange _ h.xRange, hrange _ h.yRange, word?_dpi, optional_text]
  rfl

/-- What is written for a figure is read back within four levels more than a filter's value. -/
theorem Portable.readable_toJson (h : d.Portable) : d.toJson.Readable 127 := by
  have hrange : ∀ range : Interval, range.Portable → range.toJson.Readable 126 :=
    fun range hrange => hrange.readable_toJson 125
  have hdpi : (Json.ofInt d.dpi.toNat).Readable 126 := by
    obtain ⟨n, hn, -⟩ := ofInt_dpi d.dpi
    rw [hn]
    exact .integer n
  have hseries : (Json.list (d.series.map SeriesDescription.toJson)).Readable 126 := by
    refine .list ?_
    intro item hitem
    obtain ⟨s, hs, rfl⟩ := List.mem_map.1 hitem
    exact (h.series s hs).readable_toJson
  rw [d.toJson_eq]
  refine readable_record_present ?_
  have hx : ∀ range, d.xRange = some range → range.toJson.Readable 126 :=
    fun range hsome => hrange range (h.xRange range hsome)
  have hy : ∀ range, d.yRange = some range → range.toJson.Readable 126 :=
    fun range hsome => hrange range (h.yRange range hsome)
  simpa [slots, hdpi, hseries, hrange _ h.size] using And.intro hx hy

theorem Portable.same_self (h : d.Portable) : d.same d = true := by
  have hrange : ∀ range : Option Interval, (∀ r ∈ range, r.Portable) →
      sameOption Interval.same range range = true := by
    intro range hrange
    cases range with
    | none => rfl
    | some r => exact (hrange r rfl).same_self
  have hseries : d.series.isEqv d.series SeriesDescription.same = true :=
    isEqv_self fun s hs => (h.series s hs).same_self
  simp [same, hrange _ h.xRange, hrange _ h.yRange, hseries, Json.equal_self h.size.low.isFinite,
    Json.equal_self h.size.high.isFinite]

/-- **A description is read back from its JSON text**, and it is equal to itself. -/
theorem ofJson?_render (h : d.Portable) :
    ofJson? d.toJson.render = some d ∧ d.same d = true := by
  refine ⟨?_, h.same_self⟩
  rw [ofJson?, Json.readDocument?_render h.readable_toJson (by decide)]
  exact ofDocument?_toJson h

/-- A nested value to filter by. -/
def nested : Json :=
  .record [("", .list [.null, .flag true, .integer ⟨-5, by decide⟩]),
    ("\x7f", .record [("\x00", .decimal (.ofDecimal true ⟨1, -1⟩))])]

/-- A description whose texts need every kind of escape. -/
def escapedFigure : FigureDescription where
  input := ⟨"runs\\first \"best\".csv"⟩
  output := ⟨"bandwidth/é.svg"⟩
  title := some "Bandwidth\tof\x01\nall"
  yRange := some ⟨.ofDecimal true ⟨1, -1⟩, .ofNat 11⟩
  series := [
    { y := "elapsed", x := .column "t", label := "K {key}", style := .solid, groupBy := some "k" },
    { y := "elapsed", label := "first", filter := some ⟨"k", nested⟩ }]

theorem nested_ascending : nested.Ascending := by
  have hlist : (Json.list [.null, .flag true, .integer ⟨-5, by decide⟩]).Ascending :=
    .list (by simp [Json.Ascending.null, Json.Ascending.flag, Json.Ascending.integer])
  have hrecord : (Json.record [("\x00", .decimal (.ofDecimal true ⟨1, -1⟩))]).Ascending :=
    .record (List.pairwise_singleton ..) (by simp [Json.Ascending.decimal])
  exact .record (by decide) (by simp [hlist, hrecord])

theorem nested_readable (h : Double.Portable (.ofDecimal true ⟨1, -1⟩)) : nested.Readable 123 := by
  have hlist : (Json.list [.null, .flag true, .integer ⟨-5, by decide⟩]).Readable 122 :=
    .list (by simp)
  have hrecord : (Json.record [("\x00", .decimal (.ofDecimal true ⟨1, -1⟩))]).Readable 122 :=
    .record (by simp [Json.Readable.decimal h])
  exact .record (by simp [hlist, hrecord])

theorem escapedFigure_portable : escapedFigure.Portable := by
  have heleven : Double.Portable (.ofNat 11) :=
    Json.portable_of_numeral (n := ⟨false, ['1', '1'], ['0'], none⟩) (by decide +kernel)
      (by decide +kernel) (by decide) (by decide +kernel)
  have hheight : Double.Portable (.ofDecimal false ⟨85, -1⟩) :=
    Json.portable_of_numeral (n := ⟨false, ['8'], ['5'], none⟩) (by decide +kernel)
      (by decide +kernel) (by decide) (by decide +kernel)
  have htenth : Double.Portable (.ofDecimal true ⟨1, -1⟩) :=
    Json.portable_of_numeral (n := ⟨true, ['0'], ['1'], none⟩) (by decide +kernel)
      (by decide +kernel) (by decide) (by decide +kernel)
  refine ⟨⟨heleven, hheight⟩, by simp [escapedFigure], ?_, ?_⟩
  · intro range hrange
    obtain rfl := Option.some.inj hrange
    exact ⟨htenth, heleven⟩
  · intro s hs
    simp only [escapedFigure, List.mem_cons, List.not_mem_nil, or_false] at hs
    rcases hs with rfl | rfl
    · exact ⟨by decide, by simp⟩
    · refine ⟨by decide, ?_⟩
      intro f hf
      obtain rfl := Option.some.inj hf
      exact ⟨nested_ascending, nested_readable htenth⟩

theorem ofJson?_render_escapedFigure :
    ofJson? escapedFigure.toJson.render = some escapedFigure ∧
      escapedFigure.same escapedFigure = true :=
  ofJson?_render escapedFigure_portable

end FigureDescription

end LineChart
