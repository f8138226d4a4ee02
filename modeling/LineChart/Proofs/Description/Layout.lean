import LineChart.Proofs.Description.Arrangement

/-!
# Layouts of a description

A description has many JSON values: the fields of a record may stand in any order, a field may be left out
if its value is the one that is taken by default, an option that is absent may be null, and fields of other
names may be added, with any values, however deeply nested. All of them are read as the description. A field
that has no default may not be left out, whatever else the value holds.

* `RowFilter.LaidOut`, `SeriesDescription.LaidOut`, `FigureDescription.LaidOut` : the values of a filter, of a
  series and of a figure.
* `FigureDescription.Lacks` : the values in which a field without a default is left out.
* `FigureDescription.ofDocument?_laidOut`, `FigureDescription.ofDocument?_lacks` : what is read from both.
* `FigureDescription.read_of_layout` : the same for their texts.
-/

namespace LineChart

/-! ### Row filters -/

namespace RowFilter

variable {f : RowFilter} {j : Json}

/-- The values of a row filter. -/
inductive LaidOut (f : RowFilter) : Json → Prop
  | record {fields : List (String × Json)}
    (h : Arranged [("column", some (.text f.column)), ("equals", some f.wanted)] fields) :
    LaidOut f (.record fields)

/-- A value in which a field of a row filter is left out. -/
inductive Lacks : Json → Prop
  | field {fields : List (String × Json)} {name : String} (hname : name ∈ ["column", "equals"])
    (h : name ∉ fields.map Prod.fst) : Lacks (.record fields)

theorem laidOut_toJson (f : RowFilter) : f.LaidOut f.toJson := .record (arranged_present _)

open Document in
/-- Of the levels of nesting, 125 are left for a filter in a figure, and 124 for its value. -/
theorem ofDocument?_laidOut (h : f.Portable) (hj : f.LaidOut j) :
    ofDocument? .json (j.documentWithin 125) = some f := by
  obtain @⟨fields, hfields⟩ := hj
  have hwanted : (f.wanted.documentWithin 124).json? = some f.wanted := by
    rw [Json.documentWithin_eq (Nat.lt_succ_of_le h.readable.depth)]
    exact Json.json?_document h.ascending (h.readable.decimals.imp fun x hx => hx.isFinite)
  have hvalues : ((Json.record fields).documentWithin 125).fields? .json ["column", "equals"] = _ :=
    fields?_arranged hfields rfl (by decide)
  rw [ofDocument?, hvalues]
  simp only [List.map_cons, List.map_nil, required_text]
  simp [required, hwanted]

open Document in
theorem ofDocument?_lacks (h : Lacks j) (levels : Nat) :
    ofDocument? .json (j.documentWithin (levels + 2)) = none := by
  obtain @⟨fields, name, hname, hlacks⟩ := h
  rw [ofDocument?, fields?_documentWithin]
  split
  · next column wanted hvalues =>
    have hread := forall₂_of_fieldsOf? hvalues
    simp only [List.forall₂_cons] at hread
    obtain ⟨hcolumn, hwanted, -⟩ := hread
    simp only [List.mem_cons, List.not_mem_nil, or_false] at hname
    rcases hname with rfl | rfl
    · obtain rfl := eq_none_of_fieldOf? hcolumn hlacks
      rfl
    · obtain rfl := eq_none_of_fieldOf? hwanted hlacks
      simp [required]
  -- there are no values to read where a field is given twice
  · rfl

theorem Lacks.ne_null (h : Lacks j) {levels : Nat} : j.documentWithin (levels + 2) ≠ .null := by
  obtain ⟨-, -⟩ := h
  simp [Json.documentWithin]

end RowFilter

/-! ### Series -/

namespace SeriesDescription

variable {s : SeriesDescription} {j : Json}

/-- The values of a series. -/
inductive LaidOut (s : SeriesDescription) : Json → Prop
  | record {fields : List (String × Json)} {x style colour filter groupBy : Option Json}
    (h : Arranged [("y", some (.text s.y)), ("x", x), ("label", some (.text s.label)),
      ("style", style), ("color", colour), ("where", filter), ("group_by", groupBy)] fields)
    (hx : Defaulted .index (fun x => .text x.name) s.x x)
    (hstyle : Defaulted .dashed (fun style => .text style.name) s.style style)
    (hcolour : Optional (fun colour j => j = .text colour) s.colour colour)
    (hfilter : Optional RowFilter.LaidOut s.filter filter)
    (hgroupBy : Optional (fun name j => j = .text name) s.groupBy groupBy) :
    LaidOut s (.record fields)

/-- A value in which a field of a series or of its filter is left out that has no default. -/
inductive Lacks : Json → Prop
  | field {fields : List (String × Json)} {name : String} (hname : name ∈ ["y", "label"])
    (h : name ∉ fields.map Prod.fst) : Lacks (.record fields)
  | filter {fields : List (String × Json)} {filter : Json} (hmem : ("where", filter) ∈ fields)
    (h : RowFilter.Lacks filter) : Lacks (.record fields)

theorem laidOut_toJson (s : SeriesDescription) : s.LaidOut s.toJson := by
  rw [s.toJson_eq]
  exact .record (arranged_present s.slots) (.given s.x) (.given s.style) (optional_write _ _)
    (optional_map RowFilter.laidOut_toJson _) (optional_write _ _)

open Document in
/-- A series stands in a list within a record, so 126 levels of nesting are left for it. -/
theorem ofDocument?_laidOut (h : s.Portable) (hj : s.LaidOut j) :
    ofDocument? .json (j.documentWithin 126) = some s := by
  obtain @⟨fields, x, style, colour, filter, groupBy, hfields, hx, hstyle, hcolour, hfilter,
    hgroupBy⟩ := hj
  have hx' : withDefault .index (fun d => d.text?.map Abscissa.ofName)
      (x.map (Json.documentWithin 125)) = some s.x := by
    refine hx.withDefault ?_
    rw [Json.documentWithin, text?, Option.map_some, Abscissa.ofName_name h.x]
  have hstyle' : withDefault .dashed (style? .json) (style.map (Json.documentWithin 125)) =
      some s.style := by
    refine hstyle.withDefault ?_
    rw [Json.documentWithin, LineStyle.style?_name]
  have hfilter' : optional (RowFilter.ofDocument? .json) (filter.map (Json.documentWithin 125)) =
      some s.filter := by
    refine hfilter.optional (fun f hf j hj => RowFilter.ofDocument?_laidOut (h.filter f hf) hj) ?_
    rintro f j ⟨-⟩
    simp [Json.documentWithin]
  have hvalues : ((Json.record fields).documentWithin 126).fields? .json
      ["y", "x", "label", "style", "color", "where", "group_by"] = _ :=
    fields?_arranged hfields rfl (by decide)
  rw [ofDocument?, hvalues]
  simp only [List.map_cons, List.map_nil, required_text, hx', hstyle', hcolour.text, hfilter',
    hgroupBy.text]
  rfl

open Document in
theorem ofDocument?_lacks (h : Lacks j) (levels : Nat) :
    ofDocument? .json (j.documentWithin (levels + 3)) = none := by
  obtain ⟨fields, rfl⟩ : ∃ fields, j = .record fields := by
    cases h <;> exact ⟨_, rfl⟩
  rw [ofDocument?, fields?_documentWithin]
  split
  · next y x label style colour filter groupBy hvalues =>
    have hread := forall₂_of_fieldsOf? hvalues
    simp only [List.forall₂_cons] at hread
    obtain ⟨hy, -, hlabel, -, -, hfilter, -⟩ := hread
    cases h with
    | @field _ name hname hlacks =>
      simp only [List.mem_cons, List.not_mem_nil, or_false] at hname
      rcases hname with rfl | rfl
      · obtain rfl := eq_none_of_fieldOf? hy hlacks
        rfl
      · obtain rfl := eq_none_of_fieldOf? hlabel hlacks
        simp [required]
    | filter hmem hlacks =>
      obtain rfl := eq_of_fieldOf?_fieldsWithin hfilter hmem
      have hnone : optional (RowFilter.ofDocument? .json)
          (some (Json.documentWithin (levels + 1 + 1) _)) = none :=
        optional_eq_none (RowFilter.ofDocument?_lacks hlacks levels) hlacks.ne_null
      simp [hnone]
  · rfl

end SeriesDescription

/-- A list is not read if one of its items is not. -/
theorem readAll_eq_none {α : Type} {read : Document → Option α} {ds : List Document} {d : Document}
    (h : d ∈ ds) (hread : read d = none) : readAll read ds = none := by
  induction ds with
  | nil => cases h
  | cons first rest ih =>
    rw [readAll]
    rcases List.mem_cons.1 h with rfl | hmem
    · rw [hread]
    · rw [ih hmem]
      cases read first <;> rfl

/-! ### Figures -/

namespace FigureDescription

variable {d : FigureDescription} {j : Json}

/-- The values of a figure. -/
inductive LaidOut (d : FigureDescription) : Json → Prop
  | record {fields : List (String × Json)}
    {title xLabel yLabel size dpi legend grid xRange yRange : Option Json} {series : List Json}
    (h : Arranged [("input", some (.text d.input.text)), ("output", some (.text d.output.text)),
      ("title", title), ("x_label", xLabel), ("y_label", yLabel), ("size_inches", size),
      ("dpi", dpi), ("legend", legend), ("grid", grid), ("x_range", xRange), ("y_range", yRange),
      ("series", some (.list series))] fields)
    (htitle : Optional (fun title j => j = .text title) d.title title)
    (hxLabel : Defaulted "" .text d.xLabel xLabel)
    (hyLabel : Defaulted "" .text d.yLabel yLabel)
    (hsize : Defaulted ⟨.ofNat 11, .ofDecimal false ⟨85, -1⟩⟩ Interval.toJson
      ⟨d.width, d.height⟩ size)
    (hdpi : Defaulted 1200 (fun dpi => .ofInt dpi.toNat) d.dpi dpi)
    (hlegend : Defaulted true .flag d.legend legend)
    (hgrid : Defaulted true .flag d.grid grid)
    (hxRange : Optional (fun range j => j = range.toJson) d.xRange xRange)
    (hyRange : Optional (fun range j => j = range.toJson) d.yRange yRange)
    (hseries : List.Forall₂ SeriesDescription.LaidOut d.series series) :
    LaidOut d (.record fields)

/-- A value in which a field of a figure, of a series or of a filter is left out that has no default. -/
inductive Lacks : Json → Prop
  | field {fields : List (String × Json)} {name : String}
    (hname : name ∈ ["input", "output", "series"]) (h : name ∉ fields.map Prod.fst) :
    Lacks (.record fields)
  | series {fields : List (String × Json)} {series : List Json} {item : Json}
    (hmem : ("series", .list series) ∈ fields) (hitem : item ∈ series)
    (h : SeriesDescription.Lacks item) : Lacks (.record fields)

theorem laidOut_toJson (d : FigureDescription) : d.LaidOut d.toJson := by
  rw [d.toJson_eq]
  refine .record (arranged_present d.slots) (optional_write _ _) (.given _) (.given _) (.given _)
    (.given d.dpi) (.given _) (.given _) (optional_write _ _) (optional_write _ _) ?_
  rw [List.forall₂_map_right_iff, List.forall₂_same]
  exact fun s _ => s.laidOut_toJson

theorem interval?_documentWithin {range : Interval} (h : range.Portable) :
    (range.toJson.documentWithin 127).interval? .json = some range := by
  have hdepth : range.toJson.depth ≤ 1 := (h.readable_toJson 0).depth
  rw [Json.documentWithin_eq (by omega), Interval.ofDocument_toJson h]

theorem optional_range {range : Option Interval} {content : Option Json}
    (h : Optional (fun range j => j = range.toJson) range content)
    (hportable : ∀ r ∈ range, r.Portable) :
    Document.optional (Document.interval? .json) (content.map (Json.documentWithin 127)) =
      some range := by
  refine h.optional ?_ ?_
  · rintro r hr j rfl
    exact interval?_documentWithin (hportable r hr)
  · rintro r j rfl
    simp [Interval.toJson, Json.documentWithin]

theorem word?_documentWithin (dpi : UInt32) (levels : Nat) :
    ((Json.ofInt dpi.toNat).documentWithin levels).word? = some dpi := by
  have hdocument : (Json.ofInt dpi.toNat).documentWithin levels = (Json.ofInt dpi.toNat).document := by
    obtain ⟨n, hn, -⟩ := ofInt_dpi dpi
    rw [hn, Json.documentWithin, Json.document]
  rw [hdocument, word?_dpi]

open Document in
/-- **The document of a layout is read as the figure.** -/
theorem ofDocument?_laidOut (h : d.Portable) (hj : d.LaidOut j) :
    ofDocument? .json (j.documentWithin 128) = some d := by
  obtain @⟨fields, title, xLabel, yLabel, size, dpi, legend, grid, xRange, yRange, series, hfields,
    htitle, hxLabel, hyLabel, hsize, hdpi, hlegend, hgrid, hxRange, hyRange, hseries⟩ := hj
  have htext : ∀ s : String, ((Json.text s).documentWithin 127).text? = some s := by
    intro s
    rw [Json.documentWithin, text?]
  have hflag : ∀ b : Bool, ((Json.flag b).documentWithin 127).flag? = some b := by
    intro b
    rw [Json.documentWithin, flag?]
  have hsize' : withDefault defaultSize (interval? .json) (size.map (Json.documentWithin 127)) =
      some ⟨d.width, d.height⟩ := hsize.withDefault (interval?_documentWithin h.size)
  have hseries' : required (seriesOfDocument? .json)
      ((some (Json.list series)).map (Json.documentWithin 127)) = some d.series := by
    rw [Option.map_some, Json.documentWithin]
    refine readAll_of_forall₂ ?_
    have hboth := (List.forall₂_and_left ..).2 ⟨h.series, hseries⟩
    rw [List.forall₂_map_left_iff]
    exact hboth.flip.imp fun j s h => SeriesDescription.ofDocument?_laidOut h.1 h.2
  have hvalues : ((Json.record fields).documentWithin 128).fields? .json ["input", "output", "title",
      "x_label", "y_label", "size_inches", "dpi", "legend", "grid", "x_range", "y_range",
      "series"] = _ := fields?_arranged hfields rfl (by decide)
  rw [ofDocument?, hvalues]
  simp only [List.map_cons, List.map_nil, required_text, htitle.text,
    hxLabel.withDefault (htext d.xLabel), hyLabel.withDefault (htext d.yLabel), hsize',
    hdpi.withDefault (word?_documentWithin d.dpi 127), hlegend.withDefault (hflag d.legend),
    hgrid.withDefault (hflag d.grid), optional_range hxRange h.xRange,
    optional_range hyRange h.yRange, hseries']
  rfl

open Document in
/-- **A figure is not read if a field without a default is left out.** -/
theorem ofDocument?_lacks (h : Lacks j) (levels : Nat) :
    ofDocument? .json (j.documentWithin (levels + 5)) = none := by
  obtain ⟨fields, rfl⟩ : ∃ fields, j = .record fields := by
    cases h <;> exact ⟨_, rfl⟩
  rw [ofDocument?, fields?_documentWithin]
  split
  · next hvalues =>
    have hread := forall₂_of_fieldsOf? hvalues
    simp only [List.forall₂_cons] at hread
    obtain ⟨hinput, houtput, -, -, -, -, -, -, -, -, -, hseries, -⟩ := hread
    cases h with
    | @field _ name hname hlacks =>
      simp only [List.mem_cons, List.not_mem_nil, or_false] at hname
      rcases hname with rfl | rfl | rfl
      · obtain rfl := eq_none_of_fieldOf? hinput hlacks
        rfl
      · obtain rfl := eq_none_of_fieldOf? houtput hlacks
        simp [required]
      · obtain rfl := eq_none_of_fieldOf? hseries hlacks
        simp [required]
    | @series _ series item hmem hitem hlacks =>
      obtain rfl := eq_of_fieldOf?_fieldsWithin hseries hmem
      have hnone : required (seriesOfDocument? .json)
          (some ((Json.list series).documentWithin (levels + 3 + 1))) = none := by
        rw [Json.documentWithin]
        exact readAll_eq_none (List.mem_map_of_mem hitem)
          (SeriesDescription.ofDocument?_lacks hlacks levels)
      simp [hnone]
  · rfl

/-- **A description is read from all its layouts**, that of `toJson` among them. The order of the fields does
not matter, nor which of the fields with a default value are left out, nor what is added under other names, as
long as the numbers are read back. A value in which a field without a default is left out is never read. -/
theorem read_of_layout (h : d.Portable) (hj : j.DecimalsAre Double.Portable) :
    d.LaidOut d.toJson ∧ (d.LaidOut j → ofJson? j.render = some d) ∧
      (Lacks j → ofJson? j.render = none) := by
  have hread : ofJson? j.render = ofDocument? .json (j.documentWithin 128) := by
    rw [ofJson?, hj.readDocument?_render]
    rfl
  rw [hread]
  exact ⟨d.laidOut_toJson, ofDocument?_laidOut h, fun hlacks => ofDocument?_lacks hlacks 123⟩

/-- A value that is nested more deeply than values are read. -/
def deep : Nat → Json
  | 0 => .null
  | n + 1 => .list [deep n]

/-- A layout of `escapedFigure` with its fields the other way round, some of them left out, some null, and
some added. -/
def scatteredFigure : Json :=
  .record [
    ("notes", deep 200),
    ("series", .list [
      .record [("group_by", .text "k"), ("where", .null), ("style", .text "solid"),
        ("label", .text "K {key}"), ("x", .text "t"), ("y", .text "elapsed")],
      .record [("note", .text ""), ("where", .record [("equals", nested), ("column", .text "k")]),
        ("color", .null), ("label", .text "first"), ("y", .text "elapsed")]]),
    ("y_range", Interval.toJson ⟨.ofDecimal true ⟨1, -1⟩, .ofNat 11⟩), ("x_range", .null),
    ("legend", .flag true), ("title", .text "Bandwidth\tof\x01\nall"),
    ("output", .text "bandwidth/é.svg"), ("input", .text "runs\\first \"best\".csv")]

/-- A figure with a series that has no label. -/
def unlabelledFigure : Json :=
  .record [("input", .text "a.csv"), ("output", .text "a.svg"),
    ("series", .list [.record [("y", .text "elapsed")]])]

theorem decimalsAre_deep (n : Nat) : (deep n).DecimalsAre Double.Portable := by
  induction n with
  | zero => exact .null
  | succ n ih => exact .list (by simpa using ih)

theorem decimalsAre_scatteredFigure : scatteredFigure.DecimalsAre Double.Portable := by
  have hrange : Interval.Portable ⟨.ofDecimal true ⟨1, -1⟩, .ofNat 11⟩ :=
    escapedFigure_portable.yRange _ rfl
  have hfilter : (Json.record [("equals", nested), ("column", .text "k")]).DecimalsAre
      Double.Portable := .record (by simp [(nested_readable hrange.low).decimals, Json.DecimalsAre.text])
  have hfirst : (Json.record [("group_by", .text "k"), ("where", .null), ("style", .text "solid"),
      ("label", .text "K {key}"), ("x", .text "t"), ("y", .text "elapsed")]).DecimalsAre
      Double.Portable := .record (by simp [Json.DecimalsAre.text, Json.DecimalsAre.null])
  have hsecond : (Json.record [("note", .text ""),
      ("where", .record [("equals", nested), ("column", .text "k")]), ("color", .null),
      ("label", .text "first"), ("y", .text "elapsed")]).DecimalsAre Double.Portable :=
    .record (by simp [hfilter, Json.DecimalsAre.text, Json.DecimalsAre.null])
  have hseries := Json.DecimalsAre.list
    (List.forall_mem_cons.2 ⟨hfirst, List.forall_mem_singleton.2 hsecond⟩)
  have hyRange := (hrange.readable_toJson 0).decimals
  exact .record (by simp [decimalsAre_deep, hseries, hyRange, Json.DecimalsAre.text,
    Json.DecimalsAre.null, Json.DecimalsAre.flag])

theorem laidOut_scatteredFigure : escapedFigure.LaidOut scatteredFigure := by
  have hfilter : RowFilter.LaidOut ⟨"k", nested⟩
      (.record [("equals", nested), ("column", .text "k")]) :=
    .record (arranged_reverse [] rfl (by simp))
  refine .record (arranged_reverse [("notes", deep 200)] rfl (by simp)) (.given rfl) .leftOut .leftOut
    .leftOut .leftOut (.given true) .leftOut .null (.given rfl) (.cons ?_ (.cons ?_ .nil))
  · exact .record (arranged_reverse [] rfl (by simp)) (.given (Abscissa.column "t"))
      (.given LineStyle.solid) .leftOut .null (.given rfl)
  · exact .record (arranged_reverse [("note", .text "")] rfl (by simp)) .leftOut .leftOut .null
      (.given hfilter) .leftOut

theorem read_of_layout_scattered :
    escapedFigure.Portable ∧ scatteredFigure.DecimalsAre Double.Portable ∧
      escapedFigure.LaidOut scatteredFigure ∧ ofJson? scatteredFigure.render = some escapedFigure ∧
      unlabelledFigure.DecimalsAre Double.Portable ∧ Lacks unlabelledFigure ∧
      ofJson? unlabelledFigure.render = none := by
  have hunlabelled : unlabelledFigure.DecimalsAre Double.Portable := by
    have hseries : (Json.record [("y", .text "elapsed")]).DecimalsAre Double.Portable :=
      .record (by simp [Json.DecimalsAre.text])
    have hlist := Json.DecimalsAre.list (List.forall_mem_singleton.2 hseries)
    exact .record (by simp [hlist, Json.DecimalsAre.text])
  have hlacks : Lacks unlabelledFigure := by
    have hlabel : SeriesDescription.Lacks (.record [("y", .text "elapsed")]) := by
      refine .field (List.mem_cons_of_mem _ List.mem_cons_self) ?_
      decide
    exact .series (List.mem_cons_of_mem _ (List.mem_cons_of_mem _ List.mem_cons_self))
      List.mem_cons_self hlabel
  obtain ⟨-, hread, -⟩ := read_of_layout escapedFigure_portable decimalsAre_scatteredFigure
  obtain ⟨-, -, hnone⟩ := read_of_layout escapedFigure_portable hunlabelled
  exact ⟨escapedFigure_portable, decimalsAre_scatteredFigure, laidOut_scatteredFigure,
    hread laidOut_scatteredFigure, hunlabelled, hlacks, hnone hlacks⟩

end FigureDescription

end LineChart
