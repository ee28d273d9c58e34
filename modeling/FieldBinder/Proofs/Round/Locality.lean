import FieldBinder.Proofs.Crate.Scopes
import FieldBinder.Proofs.Round.Outcome

/-!
# What a round makes of one module

The marked fields of a module are read off its own items (`filter_scan`), and a module is given by
its namespace, its file, its items and its imports (`module_eq_of_build`).  So the units for the
structs of a module and the diagnostics about their fields are the same in all rounds over crates
that have the module (`run_local_of_ok`).
-/

namespace FieldBinder

namespace Crate

/-- A module is given by its namespace, its file, its items and its imports. -/
theorem module_eq_of_build {root : Namespace} {steps steps' : List BuildStep} {home : Namespace}
    {m m' : Module} (hm : (build root steps).module? home = some m)
    (hm' : (build root steps').module? home = some m') (hfile : m.file = m'.file)
    (hitems : m.items = m'.items) (himports : m.scope.imports = m'.scope.imports) : m = m' := by
  have hhome : m.home = m'.home :=
    (coherent_build root steps home m hm).1.trans (coherent_build root steps' home m' hm').1.symm
  have hscope : m.scope = m'.scope := by
    rw [scope_build hm, scope_build hm', hitems, himports]
  cases m
  cases m'
  simp only [Module.mk.injEq]
  exact ⟨hhome, hfile, hitems, hscope⟩

end Crate

namespace MarkedField

theorem home_enclosing_of_mem_ofItem {marker : String} {m : Module} {i : Item} {f : MarkedField}
    (h : f ∈ ofItem marker m i) : f.enclosing.home = m.home := by
  unfold ofItem at h
  split at h
  · obtain ⟨field, -, hfield⟩ := List.mem_filterMap.1 h
    obtain ⟨a, -, rfl⟩ := Option.map_eq_some_iff.1 hfield
    rfl
  · cases h

/-- The marked fields of a module are those of its items. -/
theorem filter_scan {c : Crate} (hc : c.Coherent) {home : Namespace} {m : Module}
    (hm : c.module? home = some m) (marker : String) :
    (scan marker c).filter (fun f => f.enclosing.home = home) =
      m.items.flatMap (ofItem marker m) := by
  have hhome : m.home = home := (hc home m hm).1
  have hmem : m ∈ c.moduleList := Crate.mem_moduleList.2 ⟨home, hm⟩
  obtain ⟨before, after, hsplit⟩ := List.append_of_mem hmem
  have hapart := hc.pairwise_home
  rw [hsplit, List.pairwise_append, List.pairwise_cons] at hapart
  obtain ⟨-, ⟨hafter, -⟩, hbefore⟩ := hapart
  -- fields of other modules are in other namespaces
  have hother : ∀ m' : Module, m'.home ≠ home →
      (m'.items.flatMap (ofItem marker m')).filter (fun f => f.enclosing.home = home) = [] := by
    intro m' hne
    apply List.filter_eq_nil_iff.2
    intro f hf
    obtain ⟨i, -, hf⟩ := List.mem_flatMap.1 hf
    rw [home_enclosing_of_mem_ofItem hf, decide_eq_true_eq]
    exact hne
  have hne {m₁ m₂ : Module} (hlt : compare m₁.home m₂.home = .lt) : m₁.home ≠ m₂.home := by
    intro heq
    rw [heq, Std.ReflOrd.compare_self] at hlt
    cases hlt
  rw [scan, List.filter_flatMap, hsplit, List.flatMap_append, List.flatMap_cons,
    List.flatMap_eq_nil_iff.2 fun m' hm' => hother m' ?_,
    List.flatMap_eq_nil_iff.2 fun m' hm' => hother m' ?_, List.nil_append, List.append_nil]
  · apply List.filter_eq_self.2
    intro f hf
    obtain ⟨i, -, hf⟩ := List.mem_flatMap.1 hf
    rw [home_enclosing_of_mem_ofItem hf, hhome, decide_eq_true_eq]
  · exact hhome ▸ (hne (hafter m' hm')).symm
  · exact hhome ▸ hne (hbefore m' hm' m List.mem_cons_self)

end MarkedField

namespace Round

open Crate MarkedField BinderUnit

variable (r : Round) (c : Crate) (home : Namespace)

/-- The units for the structs of a module. -/
def unitsIn : List BinderUnit := (r.units c).filter fun u => u.enclosing.home = home

/-- The diagnostics about the fields of a module, in the order of the groups. -/
def noticesIn : List Diagnostic :=
  ((inGroups (MarkedField.scan r.marker c)).filter fun f => f.enclosing.home = home).filterMap
    r.notice?

theorem unitsIn_eq : r.unitsIn c home =
    let own := (MarkedField.scan r.marker c).filter fun f => f.enclosing.home = home
    (enclosingTypes own).map fun t =>
      .ofStubs r.root r.unitSuffix t ((ofType t own).filterMap stub?) := by
  have htypes := filter_enclosingTypes (fun t => t.home = home) (MarkedField.scan r.marker c)
  have hfields (t : TypeName) (ht : t.home = home) :=
    ofType_filter (fun t => t.home = home) (MarkedField.scan r.marker c) (t := t)
      (by simpa using ht)
  simp only at htypes hfields ⊢
  rw [unitsIn, units, List.filter_map, ← htypes]
  apply List.map_congr_left
  intro t ht
  have hhome : t.home = home := of_decide_eq_true (List.mem_filter.1 ht).2
  rw [hfields t hhome]

theorem noticesIn_eq : r.noticesIn c home =
    (inGroups ((MarkedField.scan r.marker c).filter fun f => f.enclosing.home = home)).filterMap
      r.notice? := by
  rw [noticesIn, filter_inGroups (fun t => t.home = home)]

theorem run_eq_ok {σ : Type u} {r : Round} {c : Crate}
    {commit : List BinderUnit → σ → Except EmissionFault Unit × σ} {s s' : σ}
    {log log' : List Diagnostic} {report : Report}
    (h : r.run c commit s log = (log', .ok report, s')) :
    log' = log ++ r.notices c ∧ report.units = r.units c := by
  have hends := run_ends r c commit s log
  rw [h] at hends
  cases hends
  exact ⟨rfl, units_completed log⟩

/-- The diagnostics about the fields of a module stand together, between those about fields of
other modules. -/
theorem exists_notices_eq : ∃ before after,
    r.notices c = before ++ r.noticesIn c home ++ after ∧
    ∀ d ∈ before ++ after, ∃ f ∈ MarkedField.scan r.marker c,
      f.enclosing.home ≠ home ∧ r.notice? f = some d := by
  let side (o : Ordering) : List Diagnostic :=
    ((inGroups (MarkedField.scan r.marker c)).filter fun f =>
      compare f.enclosing.home home = o).filterMap r.notice?
  have hside {o : Ordering} (ho : o ≠ .eq) : ∀ d ∈ side o, ∃ f ∈ MarkedField.scan r.marker c,
      f.enclosing.home ≠ home ∧ r.notice? f = some d := by
    intro d hd
    obtain ⟨f, hf, hd⟩ := List.mem_filterMap.1 hd
    obtain ⟨hf, hcompare⟩ := List.mem_filter.1 hf
    refine ⟨f, mem_inGroups.1 hf, ?_, hd⟩
    rintro rfl
    rw [decide_eq_true_eq, Std.ReflOrd.compare_self] at hcompare
    exact ho hcompare.symm
  refine ⟨side .lt, side .gt, ?_, ?_⟩
  · rw [notices, inGroups_eq_append _ home, List.filterMap_append, List.filterMap_append]
    rfl
  · exact List.forall_mem_append.2 ⟨hside (by decide), hside (by decide)⟩

/-- Whatever other modules there are, rounds that end with a report have the same units for the
structs of a module that has the same file, items and imports in both crates, and they report the
same diagnostics about its fields. -/
theorem run_local_of_ok {σ : Type u} {σ' : Type v} {r : Round} {root : Namespace}
    {steps steps' : List BuildStep} {home : Namespace} {m m' : Module}
    (hm : (build root steps).module? home = some m)
    (hm' : (build root steps').module? home = some m') (hfile : m.file = m'.file)
    (hitems : m.items = m'.items) (himports : m.scope.imports = m'.scope.imports)
    {commit : List BinderUnit → σ → Except EmissionFault Unit × σ}
    {commit' : List BinderUnit → σ' → Except EmissionFault Unit × σ'} {s s₁ : σ} {s' s₁' : σ'}
    {log log₁ log' log₁' : List Diagnostic} {report report' : Report}
    (hrun : r.run (build root steps) commit s log = (log₁, .ok report, s₁))
    (hrun' : r.run (build root steps') commit' s' log' = (log₁', .ok report', s₁')) :
    (report.units.filter fun u => u.enclosing.home = home) =
      (report'.units.filter fun u => u.enclosing.home = home) ∧
    r.noticesIn (build root steps) home = r.noticesIn (build root steps') home ∧
    (∃ before after, log₁ = log ++ before ++ r.noticesIn (build root steps) home ++ after ∧
      ∀ d ∈ before ++ after, ∃ f ∈ MarkedField.scan r.marker (build root steps),
        f.enclosing.home ≠ home ∧ r.notice? f = some d) ∧
    ∃ before after, log₁' = log' ++ before ++ r.noticesIn (build root steps') home ++ after ∧
      ∀ d ∈ before ++ after, ∃ f ∈ MarkedField.scan r.marker (build root steps'),
        f.enclosing.home ≠ home ∧ r.notice? f = some d := by
  obtain rfl : m = m' := module_eq_of_build hm hm' hfile hitems himports
  -- The module is the same in both crates, so it gives the same marked fields.
  have hscan : (MarkedField.scan r.marker (build root steps)).filter
        (fun f => f.enclosing.home = home) =
      (MarkedField.scan r.marker (build root steps')).filter
        (fun f => f.enclosing.home = home) := by
    rw [filter_scan (coherent_build root steps) hm, filter_scan (coherent_build root steps') hm']
  -- Without a fault a round reports every unit and every notice, of this module and of the others.
  obtain ⟨rfl, hunits⟩ := run_eq_ok hrun
  obtain ⟨rfl, hunits'⟩ := run_eq_ok hrun'
  have hown := r.unitsIn_eq (build root steps) home
  have hown' := r.unitsIn_eq (build root steps') home
  rw [hscan] at hown
  refine ⟨?_, ?_, ?_, ?_⟩
  · rw [hunits, hunits']
    exact hown.trans hown'.symm
  · rw [noticesIn_eq, noticesIn_eq, hscan]
  · obtain ⟨before, after, heq, hother⟩ := r.exists_notices_eq (build root steps) home
    exact ⟨before, after, by rw [heq]; simp only [List.append_assoc], hother⟩
  · obtain ⟨before, after, heq, hother⟩ := r.exists_notices_eq (build root steps') home
    exact ⟨before, after, by rw [heq]; simp only [List.append_assoc], hother⟩

/-- A struct with two marked fields, of which one has an incomplete directive, and an import of the
base of the other. -/
def salesItems : List Item :=
  let marker := Path.ofIdent "country_field_binder"
  let complete : AttrArgs := .list [.ident "constructor_parameters" 5, .group .paren [],
    .punct ',' false, .ident "country_parameterized_class" 5, .group .paren [.ident "Country" 5]]
  [.use false (.path "crate" (.path "geo" (.name "Country"))),
    .struct "Order" (.named [
      ⟨[⟨marker, .none⟩], "origin", 4, .path (.ofIdent "u8")⟩,
      ⟨[⟨marker, complete⟩], "target", 5, .path (.ofIdent "u16")⟩])]

/-- The struct, and the trait that it needs. -/
def smallSteps : List BuildStep :=
  [.insert ⟨["crate", "geo"]⟩ ⟨"geo.rs"⟩ [.trait "Country" []],
    .insert ⟨["crate", "sales"]⟩ ⟨"sales.rs"⟩ salesItems]

/-- The struct, the trait with a type that implements it, and a module with a glob and a struct
whose marked field has an incomplete directive. -/
def largeSteps : List BuildStep :=
  [.insert ⟨["crate", "sales"]⟩ ⟨"sales.rs"⟩ salesItems,
    .insert ⟨["crate", "geo"]⟩ ⟨"geo.rs"⟩ [.trait "Country" [], .struct "France" .unit,
      .impl false false (some (.ofIdent "Country")) (.path (.ofIdent "France"))],
    .insert ⟨["crate", "tax"]⟩ ⟨"tax.rs"⟩ [.use false (.path "crate" (.path "geo" .glob)),
      .struct "Rate" (.named
        [⟨[⟨.ofIdent "country_field_binder", .none⟩], "bound", 2, .path (.ofIdent "u8")⟩])],
    .linkGlobs]

theorem run_local_of_ok_salesItems : ∃ m m' log report sink log' report' sink',
    (build ⟨["crate"]⟩ smallSteps).module? ⟨["crate", "sales"]⟩ = some m ∧
    (build ⟨["crate"]⟩ largeSteps).module? ⟨["crate", "sales"]⟩ = some m' ∧
    m.file = m'.file ∧ m.items = m'.items ∧ m.scope.imports = m'.scope.imports ∧
    run { root := ⟨["crate"]⟩ } (build ⟨["crate"]⟩ smallSteps) MemorySink.commit .empty =
      (log, .ok report, sink) ∧
    run { root := ⟨["crate"]⟩ } (build ⟨["crate"]⟩ largeSteps) MemorySink.commit .empty =
      (log', .ok report', sink') ∧
    (report.units.filter fun u => u.enclosing.home = ⟨["crate", "sales"]⟩) =
      report'.units.filter fun u => u.enclosing.home = ⟨["crate", "sales"]⟩ := by
  have hsmall : ((build ⟨["crate"]⟩ smallSteps).module? ⟨["crate", "sales"]⟩).map
      (fun m => (m.file, m.items)) = some (⟨"sales.rs"⟩, salesItems) := rfl
  have hlarge : ((build ⟨["crate"]⟩ largeSteps).module? ⟨["crate", "sales"]⟩).map
      (fun m => (m.file, m.items)) = some (⟨"sales.rs"⟩, salesItems) := rfl
  have himports : ((build ⟨["crate"]⟩ smallSteps).module? ⟨["crate", "sales"]⟩).map
      (fun m => m.scope.imports) = ((build ⟨["crate"]⟩ largeSteps).module? ⟨["crate", "sales"]⟩).map
        fun m => m.scope.imports := rfl
  have hends : (run { root := ⟨["crate"]⟩ } (build ⟨["crate"]⟩ smallSteps) MemorySink.commit
      .empty).2.1.toOption.isSome = true := by
    decide +kernel
  have hends' : (run { root := ⟨["crate"]⟩ } (build ⟨["crate"]⟩ largeSteps) MemorySink.commit
      .empty).2.1.toOption.isSome = true := by
    decide +kernel
  obtain ⟨m, hm, hread⟩ := Option.map_eq_some_iff.1 hsmall
  obtain ⟨m', hm', hread'⟩ := Option.map_eq_some_iff.1 hlarge
  obtain ⟨hfile, hitems⟩ := Prod.mk.inj (hread.trans hread'.symm)
  rw [hm, hm'] at himports
  rcases hrun : run { root := ⟨["crate"]⟩ } (build ⟨["crate"]⟩ smallSteps) MemorySink.commit
    .empty with ⟨log, _ | report, sink⟩
  · rw [hrun] at hends
    cases hends
  rcases hrun' : run { root := ⟨["crate"]⟩ } (build ⟨["crate"]⟩ largeSteps) MemorySink.commit
    .empty with ⟨log', _ | report', sink'⟩
  · rw [hrun'] at hends'
    cases hends'
  exact ⟨m, m', log, report, sink, log', report', sink', hm, hm', hfile, hitems,
    Option.some.inj himports, rfl, rfl,
    (run_local_of_ok hm hm' hfile hitems (Option.some.inj himports) hrun hrun').1⟩

end Round
end FieldBinder
