import FieldBinder.Proofs.Round.Binding
import FieldBinder.Proofs.Round.Collision
import FieldBinder.Proofs.Sink.Memory

/-!
# How a round ends

A round ends in one of four ways, in this order of precedence: at the first field whose base is no
trait, at the first unit whose file is claimed, in a commit that fails, or with a report (`Ends`,
`run_ends`).  What a round has done that ends with a report is said field by field and unit by unit
in `Completion` (`completion_completed`).
-/

namespace FieldBinder

open MarkedField BinderUnit

/-- The stub lines of a unit: all but the lines of `opening` and the brace at the end. -/
def BinderUnit.stubs (u : BinderUnit) : List String := (u.lines.drop 7).dropLast

/-- The stubs of a unit can be read off its lines. -/
theorem BinderUnit.stubs_ofStubs (root : Namespace) (suffix : String) (t : TypeName)
    (stubs : List String) : (ofStubs root suffix t stubs).stubs = stubs := by
  simp [BinderUnit.stubs, ofStubs, opening]

namespace Round

variable {σ : Type u} (r : Round) (c : Crate)

/-- The units of a crate: one for every type with marked fields. -/
def units : List BinderUnit :=
  let fields := MarkedField.scan r.marker c
  (enclosingTypes fields).map fun t =>
    .ofStubs r.root r.unitSuffix t ((ofType t fields).filterMap stub?)

/-- The diagnostics about the fields that a round leaves out, in the order of the groups. -/
def notices : List Diagnostic := (inGroups (MarkedField.scan r.marker c)).filterMap r.notice?

/-- The diagnostic at the end of a round that fails. -/
def closing (fault : RoundFault) : Diagnostic := ⟨fault.message, none, none⟩

variable {r c}

/-- A completed round has one unit for each type. -/
theorem units_completed (log : List Diagnostic) :
    (r.completed c log).report.units = r.units c := by
  simp [completed, Progress.pastGroups, units, Function.comp_def]

/-- Its log goes on with the notices. -/
theorem log_completed (log : List Diagnostic) :
    (r.completed c log).log = log ++ r.notices c := by
  simp [completed, Progress.pastGroups, notices, inGroups, List.flatMap_map]

/-- It counts the stubs. -/
theorem emitted_completed (log : List Diagnostic) : (r.completed c log).report.emitted =
    ((inGroups (MarkedField.scan r.marker c)).filterMap stub?).length := by
  simp [completed, Progress.pastGroups, inGroups, List.flatMap_map]

/-- It counts the notices. -/
theorem skipped_completed (log : List Diagnostic) :
    (r.completed c log).report.skipped = (r.notices c).length := by
  simp [completed, Progress.pastGroups, notices, inGroups, List.flatMap_map]

/-- Fields of which one is fatal, cut at the first such one. -/
theorem exists_first_isFatal {fields : List MarkedField} (h : ∃ f ∈ fields, f.IsFatal c) :
    ∃ before f after, fields = before ++ f :: after ∧ (∀ g ∈ before, ¬ g.IsFatal c) ∧
      f.IsFatal c := by
  classical
  cases hf : fields.find? fun f => decide (f.IsFatal c) with
  | none =>
    obtain ⟨f, hm, hfatal⟩ := h
    exact absurd (decide_eq_true hfatal) (List.find?_eq_none.1 hf f hm)
  | some f =>
    obtain ⟨hfatal, before, after, hs, hb⟩ := List.find?_eq_some_iff_append.1 hf
    exact ⟨before, f, after, hs, fun g hg => by simpa using hb g hg, of_decide_eq_true hfatal⟩

/-! ### The four ends -/

variable (r c) in
/-- How a round can end: what is reported, the outcome, and what the commit leaves. -/
inductive Ends (commit : List BinderUnit → σ → Except EmissionFault Unit × σ) (s : σ)
    (log : List Diagnostic) : List Diagnostic × Except RoundFault Report × σ → Prop
  /-- At the first field whose base is no trait. -/
  | resolution {before after : List MarkedField} {f : MarkedField} {meaning : Directive.Meaning}
      {e : Implementors.BaseFault}
      (split : inGroups (MarkedField.scan r.marker c) = before ++ f :: after)
      (first : ∀ g ∈ before, ¬ g.IsFatal c) (complete : f.meaning? = some meaning)
      (fault : e.IsFor c meaning.base) :
      Ends commit s log
        (log ++ before.filterMap r.notice? ++
            [.onField f (RoundFault.resolution f.enclosing e).message],
          .error (.resolution f.enclosing e), s)
  /-- At the first unit whose file is claimed. -/
  | collision {before after : List BinderUnit} {u v : BinderUnit}
      (resolved : ∀ f ∈ MarkedField.scan r.marker c, ¬ f.IsFatal c)
      (split : r.units c = before ++ v :: after) (first : before.Pairwise Apart)
      (claimed : u ∈ before) (same : u.path.same v.path = true) :
      Ends commit s log
        (log ++ r.notices c ++
            [closing (.emission .emit (.collision v.path u.enclosing v.enclosing))],
          .error (.emission .emit (.collision v.path u.enclosing v.enclosing)), s)
  /-- In a commit that fails. -/
  | commit {fault : EmissionFault} {s' : σ}
      (resolved : ∀ f ∈ MarkedField.scan r.marker c, ¬ f.IsFatal c)
      (apart : (r.units c).Pairwise Apart) (failed : commit (r.units c) s = (.error fault, s')) :
      Ends commit s log
        (log ++ r.notices c ++ [closing (.emission .commit fault)],
          .error (.emission .commit fault), s')
  /-- With a report. -/
  | report {s' : σ} (resolved : ∀ f ∈ MarkedField.scan r.marker c, ¬ f.IsFatal c)
      (apart : (r.units c).Pairwise Apart) (committed : commit (r.units c) s = (.ok (), s')) :
      Ends commit s log (log ++ r.notices c, .ok (r.completed c log).report, s')

variable (r c) in
/-- Every run ends in one of the ways. -/
theorem run_ends (commit : List BinderUnit → σ → Except EmissionFault Unit × σ) (s : σ)
    (log : List Diagnostic) : Ends r c commit s log (r.run c commit s log) := by
  by_cases hfatal : ∃ f ∈ inGroups (MarkedField.scan r.marker c), f.IsFatal c
  · obtain ⟨before, f, after, hs, hb, meaning, hm, hl⟩ := exists_first_isFatal hfatal
    obtain ⟨e, he⟩ := Implementors.exists_isFor_of_not_leadsToTrait hl
    rw [run, bindAll_of_isFatal hs hb hm he]
    exact .resolution hs hb hm he
  have hok : ∀ f ∈ MarkedField.scan r.marker c, ¬ f.IsFatal c := by
    intro f hf hfat
    exact hfatal ⟨f, mem_inGroups.2 hf, hfat⟩
  rw [run, bindAll_of_forall_not_isFatal hok]
  simp only [units_completed, log_completed, abort]
  by_cases ha : (r.units c).Pairwise Apart
  · rw [(collision?_eq_none_iff _).2 ha]
    rcases hc : commit (r.units c) s with ⟨_ | _, s'⟩
    · exact .commit hok ha hc
    · exact .report hok ha hc
  · obtain ⟨before, u, v, after, hs, hb, hu, hsame, hcol⟩ := exists_collision ha
    rw [hcol]
    exact .collision hok hs hb hu hsame

/-- A round whose fields and units are all right ends with what the commit of its units leaves. -/
theorem run_of_commit_eq_ok {commit : List BinderUnit → σ → Except EmissionFault Unit × σ}
    {s s' : σ} (hok : ∀ f ∈ MarkedField.scan r.marker c, ¬ f.IsFatal c)
    (hapart : (r.units c).Pairwise Apart) (hcommit : commit (r.units c) s = (.ok (), s'))
    (log : List Diagnostic) :
    r.run c commit s log = (log ++ r.notices c, .ok (r.completed c log).report, s') := by
  rw [run, bindAll_of_forall_not_isFatal hok]
  simp only [units_completed, log_completed, (collision?_eq_none_iff _).2 hapart, hcommit]

/-! ### What a finished round has done -/

/-- What a round has done that ends with a report; `log` is what was reported before it and `log'`
what is reported after it. -/
structure Completion (r : Round) (c : Crate) (log log' : List Diagnostic) (report : Report) :
    Prop where
  /-- The units are in ascending order of their types, one for each. -/
  ascending : (report.units.map BinderUnit.enclosing).Pairwise fun a b => compare a b = .lt
  /-- The types of the units are the ones with marked fields. -/
  mem_units_iff : ∀ t, t ∈ report.units.map BinderUnit.enclosing ↔
    ∃ f ∈ MarkedField.scan r.marker c, f.enclosing = t
  /-- A unit is made of its type and its stub lines. -/
  unit_eq : ∀ u ∈ report.units, u = .ofStubs r.root r.unitSuffix u.enclosing u.stubs
  /-- The stub lines are those of the fields of the type with complete directives, in order. -/
  stubs_eq : ∀ u ∈ report.units,
    u.stubs = (ofType u.enclosing (MarkedField.scan r.marker c)).filterMap stub?
  emitted_eq : report.emitted = (report.units.flatMap BinderUnit.stubs).length
  /-- Every field is counted once. -/
  emitted_add_skipped : report.emitted + report.skipped = (MarkedField.scan r.marker c).length
  /-- The new diagnostics are about the fields that are left out, in the order of the groups. -/
  log_eq : log' = log ++ (inGroups (MarkedField.scan r.marker c)).filterMap r.notice?
  length_notices : (r.notices c).length = report.skipped
  /-- A diagnostic is about a field with an incomplete directive, and names it. -/
  notice?_cases : ∀ f ∈ MarkedField.scan r.marker c,
    (f.meaning?.isSome ∧ r.notice? f = none) ∨
    (f.meaning? = none ∧ ∃ d, r.notice? f = some d ∧ d.element = some f.qualifiedName)
  /-- A base is counted exactly when a field with a stub line has it, and with the size of the set
  that it resolves to. -/
  get?_implementors_iff : ∀ base n, report.implementors.get? base = some n ↔
    (∃ f ∈ MarkedField.scan r.marker c, ∃ meaning, f.meaning? = some meaning ∧
      meaning.base = base) ∧
    ∃ set, (Implementors.ofCrate c r.includeNested).resolve c base = .ok set ∧ set.size = n

/-- A field has a diagnostic, which names it, exactly when its directive is incomplete. -/
theorem notice?_of_meaning? (r : Round) (f : MarkedField) :
    (f.meaning?.isSome ∧ r.notice? f = none) ∨
    (f.meaning? = none ∧ ∃ d, r.notice? f = some d ∧ d.element = some f.qualifiedName) := by
  cases he : f.directive.extract with
  | ok meaning => exact .inl ⟨by simp [meaning?, he], by simp [notice?, gap?, he]⟩
  | error gap =>
    exact .inr ⟨by simp [meaning?, he], _, by simp [notice?, gap?, he]; rfl, rfl⟩

/-- Each field has a stub or a notice, and not both. -/
theorem length_stubs_add_length_notices (fields : List MarkedField) :
    (fields.filterMap stub?).length + (fields.filterMap r.notice?).length = fields.length := by
  induction fields with
  | nil => rfl
  | cons f rest ih =>
    rcases notice?_of_meaning? r f with ⟨hm, hn⟩ | ⟨hm, d, hn, -⟩
    · obtain ⟨meaning, hm⟩ := Option.isSome_iff_exists.1 hm
      have hs : stub? f = some (stubLine f meaning) := by rw [stub?, hm, Option.map_some]
      rw [List.filterMap_cons_some hs, List.filterMap_cons_none hn, List.length_cons,
        List.length_cons]
      omega
    · have hs : stub? f = none := by rw [stub?, hm, Option.map_none]
      rw [List.filterMap_cons_none hs, List.filterMap_cons_some hn, List.length_cons,
        List.length_cons]
      omega

/-- The stubs of the units are those of the fields, in the order of the types. -/
theorem flatMap_stubs_units : (r.units c).flatMap BinderUnit.stubs =
    (inGroups (MarkedField.scan r.marker c)).filterMap stub? := by
  rw [units, List.flatMap_map, inGroups, List.filterMap_flatMap]
  simp only [stubs_ofStubs]

/-- The counts that fields account for are those of their bases. -/
theorem count?_eq_some_iff {registry : Implementors} {f : MarkedField} {base : TypeName} {n : Nat} :
    count? c registry f = some (base, n) ↔
      ∃ meaning, f.meaning? = some meaning ∧ meaning.base = base ∧
        ∃ set, registry.resolve c base = .ok set ∧ set.size = n := by
  rw [count?, Option.bind_eq_some_iff]
  refine exists_congr fun meaning => and_congr_right fun _ => ?_
  constructor
  · intro h
    split at h
    · next set hset =>
      obtain ⟨rfl, rfl⟩ := Prod.mk.inj (Option.some.inj h)
      exact ⟨rfl, set, hset, rfl⟩
    · cases h
  · rintro ⟨rfl, set, hset, rfl⟩
    rw [hset]

/-- The counts are those of the bases that some field names. -/
theorem get?_counts_iff {registry : Implementors} {fields : List MarkedField}
    (hok : ∀ f ∈ fields, ¬ f.IsFatal c) (base : TypeName) (n : Nat) :
    ((fields.filterMap (count? c registry)).foldl
        (fun m e => m.insert e.1 e.2) SortedMap.empty).get? base = some n ↔
      (∃ f ∈ fields, ∃ meaning, f.meaning? = some meaning ∧ meaning.base = base) ∧
      ∃ set, registry.resolve c base = .ok set ∧ set.size = n := by
  let size (base : TypeName) : Nat :=
    ((registry.resolve c base).toOption.map SortedMap.size).getD 0
  have hresolve {base : TypeName} {set : TypeSet} (h : registry.resolve c base = .ok set) :
      size base = set.size := by
    simp only [size, h, Except.toOption, Option.map_some, Option.getD_some]
  -- each field counts its base with the same number, so it does not matter which comes last
  have hsize : ∀ e ∈ fields.filterMap (count? c registry), e.2 = size e.1 := by
    rintro ⟨b, k⟩ he
    obtain ⟨f, -, hf⟩ := List.mem_filterMap.1 he
    obtain ⟨-, -, -, set, hset, rfl⟩ := count?_eq_some_iff.1 hf
    exact (hresolve hset).symm
  have hmem : base ∈ (fields.filterMap (count? c registry)).map (·.1) ↔
      ∃ f ∈ fields, ∃ meaning, f.meaning? = some meaning ∧ meaning.base = base := by
    simp only [List.mem_map, List.mem_filterMap]
    constructor
    · rintro ⟨⟨b, k⟩, ⟨f, hf, hcount⟩, rfl⟩
      obtain ⟨meaning, hm, hb, -⟩ := count?_eq_some_iff.1 hcount
      exact ⟨f, hf, meaning, hm, hb⟩
    · rintro ⟨f, hf, meaning, hm, rfl⟩
      have hb : c.LeadsToTrait meaning.base :=
        Classical.not_not.1 fun hb => hok f hf ⟨meaning, hm, hb⟩
      obtain ⟨set, hset⟩ := Implementors.exists_resolve_of_leadsToTrait hb registry
      exact ⟨(meaning.base, set.size), ⟨f, hf, count?_eq_some_iff.2
        ⟨meaning, hm, rfl, set, hset, rfl⟩⟩, rfl⟩
  rw [SortedMap.get?_foldl_insert _ hsize, SortedMap.get?_empty]
  constructor
  · intro h
    split at h
    · next hb =>
      obtain ⟨f, hf, meaning, hm, hbase⟩ := hmem.1 hb
      refine ⟨⟨f, hf, meaning, hm, hbase⟩, ?_⟩
      have hl : c.LeadsToTrait base :=
        Classical.not_not.1 fun hl => hok f hf ⟨meaning, hm, hbase ▸ hl⟩
      obtain ⟨set, hset⟩ := Implementors.exists_resolve_of_leadsToTrait hl registry
      exact ⟨set, hset, (hresolve hset).symm.trans (Option.some.inj h)⟩
    · cases h
  · rintro ⟨hex, set, hset, rfl⟩
    rw [if_pos (hmem.2 hex), hresolve hset]

/-- A round that no field ends completes as it should. -/
theorem completion_completed (hok : ∀ f ∈ MarkedField.scan r.marker c, ¬ f.IsFatal c)
    (log : List Diagnostic) :
    Completion r c log (log ++ r.notices c) (r.completed c log).report := by
  have hunits : (r.completed c log).report.units = r.units c := units_completed log
  have henclosing : (r.units c).map BinderUnit.enclosing =
      enclosingTypes (MarkedField.scan r.marker c) := by
    simp [units, ofStubs, Function.comp_def]
  constructor
  · rw [hunits, henclosing]
    exact enclosingTypes_pairwise _
  · intro t
    rw [hunits, henclosing]
    exact mem_enclosingTypes
  · intro u hu
    rw [hunits, units, List.mem_map] at hu
    obtain ⟨t, -, rfl⟩ := hu
    rw [stubs_ofStubs]
    rfl
  · intro u hu
    rw [hunits, units, List.mem_map] at hu
    obtain ⟨t, -, rfl⟩ := hu
    exact stubs_ofStubs _ _ _ _
  · rw [hunits, emitted_completed, flatMap_stubs_units]
  · rw [emitted_completed, skipped_completed, notices, length_stubs_add_length_notices,
      (inGroups_perm _).length_eq]
  · rfl
  · exact (skipped_completed log).symm
  · intro f _
    exact notice?_of_meaning? r f
  · intro base n
    -- The groups are counted one after another; without the groups it is one fold over the fields.
    have himplementors : (r.completed c log).report.implementors =
        ((inGroups (MarkedField.scan r.marker c)).filterMap
          (count? c (.ofCrate c r.includeNested))).foldl
            (fun m e => m.insert e.1 e.2) .empty := by
      simp [completed, Progress.pastGroups, inGroups, List.flatMap_map]
    rw [himplementors, get?_counts_iff fun f hf => hok f (mem_inGroups.1 hf)]
    simp only [mem_inGroups]

end Round

end FieldBinder
