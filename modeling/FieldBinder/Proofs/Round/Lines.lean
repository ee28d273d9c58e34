import FieldBinder.Proofs.Directive.Names
import FieldBinder.Proofs.Round.Outcome
import FieldBinder.Proofs.Source.TypeText

/-!
# The lines of units

A unit is laid out in lines: seven in front, a stub line for each field with a complete directive,
and the closing brace.  `run_lines` says that each of them is one line of the text if the literals
are that the types of these fields show, and the names in the root of the crate, and only then.
-/

namespace FieldBinder

open Text (IsLine isLine_append isLine_joinTexts isLine_intercalate)

/-! ### Marked fields -/

namespace MarkedField

/-- A marked field is a field of a struct in one of the modules. -/
theorem mem_scan {marker : String} {c : Crate} {f : MarkedField} :
    f ∈ scan marker c ↔ ∃ m ∈ c.moduleList, ∃ name fields,
      Item.struct name (.named fields) ∈ m.items ∧
      ∃ field ∈ fields, ofField? marker m (.qualify m.home name) field = some f := by
  simp only [scan, List.mem_flatMap]
  refine exists_congr fun m => and_congr_right fun _ => ?_
  constructor
  · rintro ⟨i, hi, hf⟩
    unfold ofItem at hf
    split at hf
    · next name fields => exact ⟨name, fields, hi, List.mem_filterMap.1 hf⟩
    · cases hf
  · rintro ⟨name, fields, hi, hf⟩
    exact ⟨_, hi, List.mem_filterMap.2 hf⟩

/-- What is known of a marked field comes from the field and one of its attributes. -/
theorem ofField?_eq_some {marker : String} {m : Module} {t : TypeName} {field : NamedField}
    {f : MarkedField} (h : ofField? marker m t field = some f) :
    f.enclosing = t ∧ f.name = field.name ∧ f.type = field.type.render ∧
      ∃ a ∈ field.attributes, f.directive = .load m.scope a := by
  obtain ⟨a, ha, rfl⟩ := Option.map_eq_some_iff.1 h
  exact ⟨rfl, rfl, rfl, a, List.mem_of_find?_eq_some ha, rfl⟩

/-- What a field means is what is extracted from its directive. -/
theorem extract_eq_ok_of_meaning? {f : MarkedField} {meaning : Directive.Meaning}
    (h : f.meaning? = some meaning) : f.directive.extract = .ok meaning := by
  unfold meaning? at h
  split at h
  · next heq =>
    cases h
    exact heq
  · cases h

end MarkedField

/-! ### Names in lines -/

/-- The written form of a name is on one line if its words are. -/
theorem TypeName.isLine_display {t : TypeName} (h : t.Spelled IsLine) : IsLine t.display := by
  have hsegments := List.forall_mem_append.1 h
  have hname : IsLine t.name := hsegments.2 _ List.mem_cons_self
  unfold TypeName.display
  split
  · exact hname
  · have hhome : IsLine t.home.display := (isLine_intercalate "::" (by decide)).2 hsegments.1
    have hcolons : IsLine "::" := by decide
    rw [isLine_append, isLine_append]
    exact ⟨⟨hhome, hcolons⟩, hname⟩

namespace BinderUnit

/-- A stub line is on one line just when the type of its field is. -/
theorem isLine_stubLine_iff {f : MarkedField} {d : Directive.Meaning} (hname : IsLine f.name)
    (hparameters : ∀ t ∈ d.parameters, t.Spelled IsLine) (hbase : d.base.Spelled IsLine) :
    IsLine (stubLine f d) ↔ IsLine f.type := by
  have hdisplays : IsLine (joinTexts ", " (d.parameters.map TypeName.display)) := by
    rw [isLine_joinTexts ", " (by decide)]
    intro s hs
    obtain ⟨t, ht, rfl⟩ := List.mem_map.1 hs
    exact TypeName.isLine_display (hparameters t ht)
  have hfixed : IsLine "    // pub const " ∧ IsLine "_binder: BinderFn<[" ∧ IsLine "], " ∧
      IsLine ", " ∧ IsLine "> = |u, b| None;" := by decide
  obtain ⟨h₁, h₂, h₃, h₄, h₅⟩ := hfixed
  unfold stubLine
  simp only [isLine_append, h₁, h₂, h₃, h₄, h₅, hname, hdisplays,
    TypeName.isLine_display hbase, true_and, and_true]

/-- A stub line is a comment. -/
theorem prefix_stubLine (f : MarkedField) (d : Directive.Meaning) :
    "    // ".toList <+: (stubLine f d).toList := by
  unfold stubLine
  simp only [String.toList_append, List.append_assoc]
  exact List.IsPrefix.trans (by decide) (List.prefix_append _ _)

/-- The opening lines are on one line each if the words of the type are. -/
theorem isLine_of_mem_opening {suffix : String} {t : TypeName} (hsuffix : IsLine suffix)
    (ht : t.Spelled IsLine) : ∀ line ∈ opening suffix t, IsLine line := by
  have hsegments := List.forall_mem_append.1 ht
  have hname : IsLine (nameOf suffix t) :=
    isLine_append.2 ⟨hsegments.2 _ List.mem_cons_self, hsuffix⟩
  have hhome : IsLine t.home.display := (isLine_intercalate "::" (by decide)).2 hsegments.1
  have hfixed : IsLine "// @generated by country-binder-build. Do not edit." ∧
      IsLine "// namespace: " ∧ IsLine "// source: " ∧ IsLine "" ∧ IsLine "pub struct " ∧
      IsLine ";" ∧ IsLine "impl " ∧ IsLine " \x7b" := by decide
  obtain ⟨h₁, h₂, h₃, h₄, h₅, h₆, h₇, h₈⟩ := hfixed
  simp only [opening, List.forall_mem_cons, isLine_append, h₁, h₂, h₃, h₄, h₅, h₆, h₇, h₈, hname,
    hhome, TypeName.isLine_display ht, true_and, and_true]
  simp

/-- The names of the module of a type are part of a line in front of its stubs. -/
theorem isLine_home_of_opening {suffix : String} {t : TypeName}
    (h : ∀ line ∈ opening suffix t, IsLine line) : ∀ w ∈ t.home.segments, IsLine w := by
  have hnamespace : IsLine ("// namespace: " ++ t.home.display) := h _ (by simp [opening])
  exact (isLine_intercalate "::" (by decide)).1 (isLine_append.1 hnamespace).2

/-- The lines of a unit are its opening, its stubs and a brace. -/
theorem forall_isLine_lines_iff {root : Namespace} {suffix : String} {t : TypeName}
    {stubs : List String} : (∀ line ∈ (ofStubs root suffix t stubs).lines, IsLine line) ↔
      (∀ line ∈ opening suffix t, IsLine line) ∧ ∀ line ∈ stubs, IsLine line := by
  have hclosing : ∀ line ∈ ["\x7d"], IsLine line := by decide
  rw [ofStubs, List.forall_mem_append, List.forall_mem_append]
  exact and_iff_left hclosing

end BinderUnit

/-! ### The fields of sources -/

namespace Crate.Spelled

open MarkedField

variable {c : Crate} {m : Module} {name : String} {fields : List NamedField} {field : NamedField}

/-- The name of a struct has words of the crate. -/
theorem spelled_qualify (hc : c.Spelled IsLine) (hm : m ∈ c.moduleList)
    (hcoherent : c.Coherent) (hitem : Item.struct name (.named fields) ∈ m.items) :
    (TypeName.qualify m.home name).Spelled IsLine :=
  hc.spelled_struct (fun _ hw => hw.newline_not_mem) hcoherent hm hitem

/-- The stub line of a field is one line of the text if the literals in its type are. -/
theorem isLine_stub_iff (hc : c.Spelled IsLine) (hm : m ∈ c.moduleList)
    (hitem : Item.struct name (.named fields) ∈ m.items) (hfield : field ∈ fields)
    {marker : String} {t : TypeName} {f : MarkedField} (hf : ofField? marker m t field = some f)
    {line : String} (hline : stub? f = some line) :
    IsLine line ↔ ∀ l ∈ field.type.literals, IsLine l := by
  obtain ⟨home, hm⟩ := mem_moduleList.1 hm
  have hmodule := hc.modules home m hm
  have hsound := hmodule.items _ hitem
  rw [Item.Sound, Fields.Sound] at hsound
  have hfieldSound := hsound.2 field hfield
  obtain ⟨-, hname, htype, a, ha, hdirective⟩ := ofField?_eq_some hf
  obtain ⟨meaning, hmeaning, rfl⟩ := Option.map_eq_some_iff.1 hline
  have hextract : f.directive.extract = .ok meaning := extract_eq_ok_of_meaning? hmeaning
  rw [hdirective] at hextract
  obtain ⟨hparameters, hbase⟩ := Directive.spelled_of_extract
    (fun _ hw => hw.newline_not_mem) hmodule.scope (hfieldSound.attributes a ha) hextract
  -- All that the line shows besides the type is made of names, and names have no line feed.
  have hfname : IsLine f.name := hname ▸ hfieldSound.name.newline_not_mem
  rw [BinderUnit.isLine_stubLine_iff hfname hparameters hbase, htype,
    Ty.isLine_render_iff hfieldSound.type]

end Crate.Spelled

namespace Round

open MarkedField BinderUnit

/-- Whether a round writes a stub line for a field of a struct: the field is marked, and its
directive is complete. -/
def Emits (r : Round) (c : Crate) (t : TypeName) (field : NamedField) : Prop :=
  ∃ m ∈ c.moduleList, ∃ name fields f, Item.struct name (.named fields) ∈ m.items ∧
    field ∈ fields ∧ t = .qualify m.home name ∧ ofField? r.marker m t field = some f ∧
    f.meaning?.isSome

/-- How a unit is laid out. -/
structure Layout (r : Round) (c : Crate) (u : BinderUnit) : Prop where
  lines_eq : u.lines = opening r.unitSuffix u.enclosing ++ u.stubs ++ ["\x7d"]
  length_lines : u.lines.length =
    (ofType u.enclosing (MarkedField.scan r.marker c)).countP (·.meaning?.isSome) + 8
  /-- Every stub line is a comment. -/
  comment : ∀ line ∈ u.stubs, "    // ".toList <+: line.toList
  /-- If every line is one line of the text, the text has no others. -/
  splitOn_contents : (∀ line ∈ u.lines, IsLine line) →
    u.contents.toList.splitOn '\n' = (u.lines ++ [""]).map String.toList

/-- Each unit of a round has the layout. -/
theorem layout_ofStubs (r : Round) (c : Crate) (t : TypeName) :
    Layout r c (.ofStubs r.root r.unitSuffix t
      ((ofType t (MarkedField.scan r.marker c)).filterMap stub?)) := by
  have hstub (f : MarkedField) : (stub? f).isSome = f.meaning?.isSome := Option.isSome_map
  constructor
  · rw [stubs_ofStubs]
    rfl
  · simp only [ofStubs, opening, List.length_append, List.length_cons, List.length_nil,
      List.length_filterMap_eq_countP, hstub]
    omega
  · rw [stubs_ofStubs]
    intro line hline
    obtain ⟨f, -, hf⟩ := List.mem_filterMap.1 hline
    obtain ⟨d, -, rfl⟩ := Option.map_eq_some_iff.1 hf
    exact prefix_stubLine f d
  · intro hlines
    exact Text.splitOn_lines hlines (by simp [ofStubs])

variable {r : Round} {c : Crate} {t : TypeName}

/-- The stub lines of a type are lines of the text if the literals are that its fields show. -/
theorem forall_isLine_stubs_iff (hc : c.Spelled IsLine) :
    (∀ line ∈ (ofType t (MarkedField.scan r.marker c)).filterMap stub?, IsLine line) ↔
      ∀ field, r.Emits c t field → ∀ l ∈ field.type.literals, IsLine l := by
  constructor
  · rintro h field ⟨m, hm, name, fields, f, hitem, hfield, rfl, hf, hsome⟩
    obtain ⟨meaning, hmeaning⟩ := Option.isSome_iff_exists.1 hsome
    have hline : stub? f = some (stubLine f meaning) := by rw [stub?, hmeaning, Option.map_some]
    have hscan : f ∈ MarkedField.scan r.marker c :=
      mem_scan.2 ⟨m, hm, name, fields, hitem, field, hfield, hf⟩
    have hofType := mem_ofType.2 ⟨hscan, (ofField?_eq_some hf).1⟩
    exact (hc.isLine_stub_iff hm hitem hfield hf hline).1
      (h _ (List.mem_filterMap.2 ⟨f, hofType, hline⟩))
  · intro h line hmem
    obtain ⟨f, hofType, hline⟩ := List.mem_filterMap.1 hmem
    obtain ⟨hscan, rfl⟩ := mem_ofType.1 hofType
    obtain ⟨m, hm, name, fields, hitem, field, hfield, hf⟩ := mem_scan.1 hscan
    have hsome : f.meaning?.isSome := by
      obtain ⟨meaning, hmeaning, -⟩ := Option.map_eq_some_iff.1 hline
      rw [hmeaning, Option.isSome_some]
    have htype := (ofField?_eq_some hf).1
    refine (hc.isLine_stub_iff hm hitem hfield hf hline).2 (h field ?_)
    exact ⟨m, hm, name, fields, f, hitem, hfield, htype, htype ▸ hf, hsome⟩

/-- The lines of the units of a finished round are lines of the text if the literals are that the
types of the fields with complete directives show, and the names in the root of the crate. -/
theorem run_lines {root : Namespace} {sources : List (FilePath × String)}
    (hsources : Crate.ofSources root sources = .ok c) (hpaths : ∀ s ∈ sources, IsLine s.1.text)
    (hsuffix : IsLine r.unitSuffix) {σ : Type u}
    {commit : List BinderUnit → σ → Except EmissionFault Unit × σ} {s s' : σ}
    {log log' : List Diagnostic} {report : Report}
    (hrun : r.run c commit s log = (log', .ok report, s')) :
    ∀ u ∈ report.units, Layout r c u ∧
      ((∀ line ∈ u.lines, IsLine line) ↔ (∀ w ∈ root.segments, IsLine w) ∧
        ∀ field, r.Emits c u.enclosing field → ∀ l ∈ field.type.literals, IsLine l) := by
  have hunits : report.units = r.units c := by
    have hends := run_ends r c commit s log
    rw [hrun] at hends
    cases hends with
    | report => exact units_completed log
  rw [hunits]
  intro u hu
  obtain ⟨t, ht, rfl⟩ := List.mem_map.1 hu
  refine ⟨layout_ofStubs r c t, ?_⟩
  obtain ⟨f, hscan, rfl⟩ := mem_enclosingTypes.1 ht
  obtain ⟨m, hm, name, fields, hitem, field, hfield, hf⟩ := mem_scan.1 hscan
  obtain ⟨htype, -⟩ := ofField?_eq_some hf
  obtain ⟨home, hhome⟩ := Crate.mem_moduleList.1 hm
  -- the module of the struct lies below the root, whatever the words of its name are
  have hbelow : root.segments <+: m.home.segments := by
    have hspelled : c.Spelled fun _ => True := Crate.spelled_ofSources (by simp) (by simp)
      (by simp) hsources
    rw [← Crate.root_ofSources hsources]
    exact (hspelled.modules home m hhome).below
  rw [forall_isLine_lines_iff]
  by_cases hroot : ∀ w ∈ root.segments, IsLine w
  · -- all words of the crate are on one line if those of the root are
    have hspelled : c.Spelled IsLine := Crate.spelled_ofSources
      (fun _ hw => hw.newline_not_mem) hroot
      (fun s hs => Crate.isLine_of_mem_moduleSegments (hpaths s hs)) hsources
    have hopening := isLine_of_mem_opening hsuffix
      (hspelled.spelled_qualify hm (Crate.coherent_ofSources hsources) hitem)
    rw [htype, and_iff_right hopening, and_iff_right hroot]
    exact forall_isLine_stubs_iff hspelled
  · -- a word of the root that is not on one line shows in the opening lines
    refine iff_of_false (fun h => hroot fun w hw => ?_) (fun h => hroot h.1)
    rw [htype] at h
    exact isLine_home_of_opening h.1 w (hbelow.subset hw)

/-- A run that is read off a computation. -/
theorem exists_run_of_map_eq_some {α : Type} {made : Except SourceFault Crate} {f : Report → α}
    {a : α} (h : made.toOption.bind (fun c =>
      (r.run c MemorySink.commit .empty).2.1.toOption.map f) = some a) :
    ∃ c log report sink, made = .ok c ∧
      r.run c MemorySink.commit .empty = (log, .ok report, sink) ∧ f report = a := by
  cases made with
  | error fault => cases h
  | ok c =>
    rcases hrun : r.run c MemorySink.commit .empty with ⟨log, _ | report, sink⟩
    · simp only [hrun, Except.toOption, Option.bind_some, Option.map_none] at h
      cases h
    · simp only [hrun, Except.toOption, Option.bind_some, Option.map_some] at h
      exact ⟨c, log, report, sink, rfl, hrun, Option.some.inj h⟩

/-- A trait, and a struct with a field whose type shows a literal that goes on over two lines. -/
def brokenSources : List (FilePath × String) :=
  [(⟨"lib.rs"⟩, "trait C \x7b\x7d struct S \x7b #[country_field_binder(constructor_parameters = [], "
    ++ "country_parameterized_class = C)] f: [u8; \"\n\".len()] \x7d")]

theorem exists_report_brokenSources : ∃ c log report sink u line,
    Crate.ofSources ⟨["crate"]⟩ brokenSources = .ok c ∧
    run { root := ⟨["crate"]⟩ } c MemorySink.commit .empty = (log, .ok report, sink) ∧
    report.units = [u] ∧ u.stubs = [line] ∧ ¬ IsLine line := by
  have hunits : (Crate.ofSources ⟨["crate"]⟩ brokenSources).toOption.bind (fun c =>
      (run { root := ⟨["crate"]⟩ } c MemorySink.commit .empty).2.1.toOption.map fun report =>
        report.units.map fun u => u.stubs.map fun line => line.toList.elem '\n') =
      some [[true]] := by
    decide +kernel
  obtain ⟨c, log, report, sink, hc, hrun, hreport⟩ := exists_run_of_map_eq_some hunits
  obtain ⟨u, hu, hstubs⟩ := List.map_eq_singleton_iff.1 hreport
  obtain ⟨line, hline, helem⟩ := List.map_eq_singleton_iff.1 hstubs
  exact ⟨c, log, report, sink, u, line, hc, hrun, hu, hline, not_not_intro (List.elem_iff.1 helem)⟩

theorem run_lines_brokenSources : ∃ c log report sink u,
    Crate.ofSources ⟨["crate"]⟩ brokenSources = .ok c ∧ (∀ s ∈ brokenSources, IsLine s.1.text) ∧
    IsLine "Binder" ∧
    run { root := ⟨["crate"]⟩ } c MemorySink.commit .empty = (log, .ok report, sink) ∧
    report.units = [u] ∧ Layout { root := ⟨["crate"]⟩ } c u ∧
    ∃ field, Emits { root := ⟨["crate"]⟩ } c u.enclosing field ∧
      ∃ l ∈ field.type.literals, ¬ IsLine l := by
  obtain ⟨c, log, report, sink, u, line, hc, hrun, hu, hstubs, hbroken⟩ :=
    exists_report_brokenSources
  have hpaths : ∀ s ∈ brokenSources, IsLine s.1.text := by decide
  have hsuffix : IsLine "Binder" := by decide
  obtain ⟨hlayout, hlines⟩ := run_lines hc hpaths hsuffix hrun u (by simp [hu])
  have hroot : ∀ w ∈ ["crate"], IsLine w := by decide
  have hline : line ∈ u.lines := by
    rw [hlayout.lines_eq, hstubs]
    simp
  have hfield : ¬ ∀ field, Emits { root := ⟨["crate"]⟩ } c u.enclosing field →
      ∀ l ∈ field.type.literals, IsLine l :=
    fun h => hbroken (hlines.2 ⟨hroot, h⟩ line hline)
  simp only [not_forall] at hfield
  obtain ⟨field, hemits, l, hl, hnot⟩ := hfield
  exact ⟨c, log, report, sink, u, hc, hpaths, hsuffix, hrun, hu, hlayout, field, hemits, l, hl,
    hnot⟩

/-- A stub line goes on outside of its comment. -/
theorem not_isLine_brokenSources : ∃ c log report sink u,
    Crate.ofSources ⟨["crate"]⟩ brokenSources = .ok c ∧ (∀ s ∈ brokenSources, IsLine s.1.text) ∧
    run { root := ⟨["crate"]⟩ } c MemorySink.commit .empty = (log, .ok report, sink) ∧
    u ∈ report.units ∧ ∃ line ∈ u.lines, ¬ IsLine line := by
  obtain ⟨c, log, report, sink, u, line, hc, hrun, hu, hstubs, hbroken⟩ :=
    exists_report_brokenSources
  have hmem : u ∈ report.units := by simp [hu]
  have hline : line ∈ u.stubs := by simp [hstubs]
  exact ⟨c, log, report, sink, u, hc, by decide, hrun, hmem, line,
    List.drop_subset _ _ (List.dropLast_subset _ hline), hbroken⟩

end Round

end FieldBinder
