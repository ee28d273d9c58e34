import FieldBinder.Proofs.Crate.Implementors
import FieldBinder.Proofs.Round.Outcome
import Mathlib.Data.List.Basic

/-!
# Rounds with and without the modules below

Whether implementors in the modules below a trait are counted is looked at in one place, when the
registry of a crate is made.  The types that it holds for a trait without these modules are those
that it holds with them but for the ones that live strictly below the trait (`size_setFor_true`),
and which bases resolve is the same.  So rounds that differ in this setting alone report, write and
fail in the same way, and their counts differ by these types (`run_includeNested`).
-/

namespace FieldBinder

open MarkedField BinderUnit

/-! ### The registry -/

namespace Implementors

variable {c : Crate} {base t : TypeName}

variable (c) in
/-- The types that implement a trait, or a trait below it, and live strictly below it. -/
def setBelow (base : TypeName) : TypeSet :=
  (setFor c true base).filterKeys fun t => !decide (t.home = base.home)

theorem mem_setBelow : t ∈ (setBelow c base).members ↔
    (∃ b, Relation.ReflTransGen c.Subtrait base b ∧ c.Implements b t) ∧
    base.home.segments <+: t.home.segments ∧ t.home ≠ base.home := by
  have hmem : t ∈ (setBelow c base).members ↔
      t ∈ (setFor c true base).members ∧ t.home ≠ base.home := by
    rw [TypeSet.members, SortedMap.mem_keys_iff, setBelow, SortedMap.get?_filterKeys,
      TypeSet.members, SortedMap.mem_keys_iff]
    by_cases hhome : t.home = base.home <;> simp [hhome]
  rw [hmem, mem_setFor, and_assoc]
  refine and_congr_right fun _ => and_congr_left fun hhome => ?_
  rw [or_iff_right hhome, and_iff_right rfl]

/-- Without the modules below, a registry holds the types that live where the trait does. -/
theorem setFor_false :
    setFor c false base = (setFor c true base).filterKeys fun t => decide (t.home = base.home) := by
  refine SortedMap.ext_get? fun t => ?_
  rw [SortedMap.get?_filterKeys, setFor, setFor, TypeSet.get?_ofList, TypeSet.get?_ofList]
  by_cases hhome : t.home = base.home
  · have hcounts (nested : Bool) : counts nested base t = true := counts_iff.2 (.inl hhome)
    simp [hhome, hcounts]
  · have hcounts : counts false base t = false := by simp [counts, hhome]
    simp [hhome, hcounts]

theorem size_setFor_true :
    (setFor c true base).size = (setFor c false base).size + (setBelow c base).size := by
  rw [setFor_false]
  exact List.length_eq_length_filter_add _

end Implementors

/-! ### Rounds -/

namespace Round

variable {c : Crate}

/-- Whether reports, of which the second one counts implementors in the modules below as well,
differ in the counts alone, and there by the types that live strictly below the trait. -/
structure CountsMore (c : Crate) (report nested : Report) : Prop where
  units_eq : report.units = nested.units
  emitted_eq : report.emitted = nested.emitted
  skipped_eq : report.skipped = nested.skipped
  keys_eq : report.implementors.keys = nested.implementors.keys
  count_eq : ∀ base n n', report.implementors.get? base = some n →
    nested.implementors.get? base = some n' →
    ∃ t, c.canonical? base = some (t, .trait) ∧ ∃ below : TypeSet,
      (∀ u, u ∈ below.members ↔
        (∃ b, Relation.ReflTransGen c.Subtrait t b ∧ c.Implements b u) ∧
        t.home.segments <+: u.home.segments ∧ u.home ≠ t.home) ∧
      n' = n + below.size

/-- Whether outcomes are one fault, or reports that differ in the counts alone. -/
inductive OutcomesAgree (c : Crate) : Except RoundFault Report → Except RoundFault Report → Prop
  | error (fault : RoundFault) : OutcomesAgree c (.error fault) (.error fault)
  | ok {report nested : Report} (counts : CountsMore c report nested) :
    OutcomesAgree c (.ok report) (.ok nested)

variable {r : Round}

/-- A round counts the implementors of the bases of fields with complete directives. -/
theorem mem_keys_completed (hok : ∀ f ∈ MarkedField.scan r.marker c, ¬ f.IsFatal c)
    (log : List Diagnostic) (base : TypeName) :
    base ∈ (r.completed c log).report.implementors.keys ↔
      ∃ f ∈ MarkedField.scan r.marker c, ∃ meaning, f.meaning? = some meaning ∧
        meaning.base = base := by
  rw [SortedMap.mem_keys_iff, Option.isSome_iff_exists]
  simp only [(completion_completed hok log).get?_implementors_iff]
  constructor
  · rintro ⟨n, hfield, -⟩
    exact hfield
  · rintro ⟨f, hf, meaning, hm, rfl⟩
    have hbase : c.LeadsToTrait meaning.base :=
      Classical.not_not.1 fun hbase => hok f hf ⟨meaning, hm, hbase⟩
    obtain ⟨set, hset⟩ :=
      Implementors.exists_resolve_of_leadsToTrait hbase (.ofCrate c r.includeNested)
    exact ⟨set.size, ⟨f, hf, meaning, hm, rfl⟩, set, hset, rfl⟩

theorem countsMore_completed (hc : c.Coherent)
    (hok : ∀ f ∈ MarkedField.scan r.marker c, ¬ f.IsFatal c) (log : List Diagnostic) :
    CountsMore c ({ r with includeNested := false }.completed c log).report
      ({ r with includeNested := true }.completed c log).report := by
  refine ⟨?_, ?_, ?_, ?_, ?_⟩
  · rw [units_completed, units_completed]
    rfl
  · rw [emitted_completed, emitted_completed]
  · rw [skipped_completed, skipped_completed]
    rfl
  · -- Nested types add to the counts of a trait, not to the traits that are counted.
    refine SortedMap.eq_of_pairwise_lt (SortedMap.keys_pairwise _) (SortedMap.keys_pairwise _)
      fun base => ?_
    rw [mem_keys_completed (r := { r with includeNested := false }) hok,
      mem_keys_completed (r := { r with includeNested := true }) hok]
  · intro base n n' hn hn'
    obtain ⟨-, set, hset, rfl⟩ := ((completion_completed (r := { r with includeNested := false })
      hok log).get?_implementors_iff base n).1 hn
    obtain ⟨-, set', hset', rfl⟩ := ((completion_completed (r := { r with includeNested := true })
      hok log).get?_implementors_iff base n').1 hn'
    obtain ⟨t, ht⟩ := Implementors.leadsToTrait_of_resolve_eq_ok hset
    rw [Implementors.resolve_ofCrate hc ht] at hset hset'
    cases hset
    cases hset'
    exact ⟨t, ht, Implementors.setBelow c t, fun u => Implementors.mem_setBelow,
      Implementors.size_setFor_true⟩

/-- However a crate was built, rounds over it that differ only in whether modules below a trait
count report the same, leave the same behind, and either end with the same fault or both end with
reports that differ in the counts alone: with the modules below, the count of a base is larger by
the types that implement the trait it leads to and live strictly below it. -/
theorem run_includeNested {σ : Type u} (r : Round) (root : Namespace) (steps : List BuildStep)
    (commit : List BinderUnit → σ → Except EmissionFault Unit × σ) (s : σ)
    (log : List Diagnostic) :
    let c := Crate.build root steps
    let ran := { r with includeNested := false }.run c commit s log
    let nested := { r with includeNested := true }.run c commit s log
    ran.1 = nested.1 ∧ OutcomesAgree c ran.2.1 nested.2.1 ∧ ran.2.2 = nested.2.2 := by
  intro c ran nested
  have hc : c.Coherent := Crate.coherent_build root steps
  clear_value c
  by_cases hfatal : ∃ f ∈ inGroups (MarkedField.scan r.marker c), f.IsFatal c
  · -- which bases are traits is the same in both
    obtain ⟨before, f, after, hsplit, hbefore, meaning, hm, hbase⟩ := exists_first_isFatal hfatal
    obtain ⟨e, he⟩ := Implementors.exists_isFor_of_not_leadsToTrait hbase
    let ended := endAt (log ++ before.filterMap r.notice?) f e
    have hrun (b : Bool) : { r with includeNested := b }.run c commit s log =
        (ended.1, .error ended.2, s) := by
      rw [run, bindAll_of_isFatal (r := { r with includeNested := b }) hsplit hbefore hm he log]
      rfl
    rw [show ran = _ from hrun false, show nested = _ from hrun true]
    exact ⟨rfl, .error _, rfl⟩
  · have hok : ∀ f ∈ MarkedField.scan r.marker c, ¬ f.IsFatal c := fun f hf hfat =>
      hfatal ⟨f, mem_inGroups.2 hf, hfat⟩
    have hbound (b : Bool) : { r with includeNested := b }.bindAll c log =
        .ok ({ r with includeNested := b }.completed c log) :=
      bindAll_of_forall_not_isFatal (r := { r with includeNested := b }) hok log
    have hunits (b : Bool) :
        ({ r with includeNested := b }.completed c log).report.units = r.units c :=
      units_completed (r := { r with includeNested := b }) log
    have hlog (b : Bool) : ({ r with includeNested := b }.completed c log).log =
        log ++ r.notices c :=
      log_completed (r := { r with includeNested := b }) log
    simp only [ran, nested, run, hbound, hunits, hlog]
    cases collision? .empty (r.units c) with
    | some fault => exact ⟨rfl, .error _, rfl⟩
    | none =>
      rcases commit (r.units c) s with ⟨fault | ⟨⟩, s'⟩
      · exact ⟨rfl, .error _, rfl⟩
      · exact ⟨rfl, .ok (countsMore_completed hc hok log), rfl⟩

end Round

end FieldBinder
