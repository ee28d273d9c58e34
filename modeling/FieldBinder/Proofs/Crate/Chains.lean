import FieldBinder.Proofs.Crate.Linking
import FieldBinder.Proofs.Crate.Scopes

/-!
# Chains of imports

A name is followed along its chain of imports (`ImportChain`), of which there is only one that ends
at a declaration (`ImportChain.eq_of_lookup?`).  The declaration at its end is found exactly when
the chain has fewer than `hopLimit` imports (`canonical?_eq_some_iff`).

Linking globs makes chains of at most `hopLimit` imports.  So where globs are the only imports, each
name that linking binds leads to the declaration at the end of its chain, unless the chain is one of
exactly `hopLimit` imports: then it is linked and leads nowhere (`canonical?_linkGlobs_of_binds`).
-/

namespace FieldBinder

/-- Whether all imports of an item are globs. -/
def Item.ImportsOnlyGlobs : Item → Prop
  | .use _ tree => ∀ l ∈ tree.leaves [], l.binding? = none
  | _ => True

instance : DecidablePred Item.ImportsOnlyGlobs := fun i =>
  match i with
  | .use _ tree => inferInstanceAs (Decidable (∀ l ∈ tree.leaves [], l.binding? = none))
  | .mod _ _ | .struct _ _ | .enum _ | .union _ | .trait _ _ | .typeAlias _ | .impl _ _ _ _
  | .verbatim | .other => isTrue trivial

namespace Crate

variable {c : Crate} {t u v : TypeName}

/-! ### Chains -/

/-- Whether a number of imports lead from one name to another. -/
inductive ImportChain (c : Crate) : Nat → TypeName → TypeName → Prop
  | nil {t : TypeName} : ImportChain c 0 t t
  | cons {t u v : TypeName} {k : Nat} (step : c.importStep? t = some u)
      (h : ImportChain c k u v) : ImportChain c (k + 1) t v

/-- What is imported is not declared. -/
theorem lookup?_of_importStep? (h : c.importStep? t = some u) : c.lookup? t = none := by
  obtain ⟨m, hm, hstep⟩ := Option.bind_eq_some_iff.1 h
  rw [lookup?, hm, Option.bind_some]
  split at hstep
  · cases hstep
  · next hfree => simpa [SortedMap.contains] using hfree

/-- Two chains from one name to declarations are the same. -/
theorem ImportChain.eq_of_lookup? {j k : Nat} (hu : c.ImportChain j t u) (hv : c.ImportChain k t v)
    (hlu : c.lookup? u ≠ none) (hlv : c.lookup? v ≠ none) : j = k ∧ u = v := by
  induction hu generalizing k with
  | nil =>
    cases hv with
    | nil => exact ⟨rfl, rfl⟩
    | cons step _ => exact absurd (lookup?_of_importStep? step) hlu
  | cons step _ ih =>
    cases hv with
    | nil => exact absurd (lookup?_of_importStep? step) hlv
    | cons step' h =>
      obtain rfl := Option.some.inj (step.symm.trans step')
      obtain ⟨rfl, rfl⟩ := ih h hlu
      exact ⟨rfl, rfl⟩

theorem follow_eq_some_iff {n : Nat} {kind : DeclKind} :
    c.follow n t = some (u, kind) ↔ ∃ k < n, c.ImportChain k t u ∧ c.lookup? u = some kind := by
  induction n generalizing t with
  | zero => simp [follow]
  | succ n ih =>
    rw [follow]
    -- where something is declared no import leads on, so a chain ends at the first declaration
    cases hlookup : c.lookup? t with
    | some kind' =>
      constructor
      · rintro ⟨⟩
        exact ⟨0, Nat.succ_pos n, .nil, hlookup⟩
      · rintro ⟨k, -, hchain, hu⟩
        cases hchain with
        | nil => rw [Option.some.inj (hlookup.symm.trans hu)]
        | cons step _ =>
          rw [lookup?_of_importStep? step] at hlookup
          cases hlookup
    | none =>
      rw [Option.bind_eq_some_iff]
      constructor
      · rintro ⟨t', hstep, h⟩
        obtain ⟨k, hk, hchain, hu⟩ := ih.1 h
        exact ⟨k + 1, Nat.succ_lt_succ hk, .cons hstep hchain, hu⟩
      · rintro ⟨k, hk, hchain, hu⟩
        cases hchain with
        | nil =>
          rw [hu] at hlookup
          cases hlookup
        | cons step h => exact ⟨_, step, ih.2 ⟨_, Nat.lt_of_succ_lt_succ hk, h, hu⟩⟩

/-- A name leads to the declaration at the end of its chain of imports, if these are fewer than
`hopLimit`. -/
theorem canonical?_eq_some_iff {kind : DeclKind} : c.canonical? t = some (u, kind) ↔
    ∃ k < hopLimit, c.ImportChain k t u ∧ c.lookup? u = some kind :=
  follow_eq_some_iff

theorem ImportChain.canonical?_eq {k : Nat} {kind : DeclKind} (h : c.ImportChain k t u)
    (hu : c.lookup? u = some kind) :
    c.canonical? t = if k < hopLimit then some (u, kind) else none := by
  split
  · next hk => exact canonical?_eq_some_iff.2 ⟨k, hk, h, hu⟩
  · next hk =>
    -- a declaration that was found would be at the end of a shorter chain
    rw [Option.eq_none_iff_forall_ne_some]
    rintro ⟨v, kind'⟩ hv
    obtain ⟨j, hj, hchain, hv⟩ := canonical?_eq_some_iff.1 hv
    obtain ⟨rfl, -⟩ := hchain.eq_of_lookup? h (by simp [hv]) (by simp [hu])
    exact hk hj

/-! ### Chains of linked globs -/

/-- An added import is one that is followed, and keeps the name. -/
theorem AddedStep.importStep? {n : Nat} (h : AddedStep c (linkTimes n c) t u) :
    (linkTimes n c).importStep? t = some u ∧ u.name = t.name := by
  obtain ⟨hnone, hadded⟩ := h
  obtain ⟨target, htarget, hu⟩ := Option.bind_eq_some_iff.1 hadded
  obtain ⟨hfree, g, rfl, -, -⟩ := exists_glob_of_import?_linkTimes n hnone htarget
  have hlookup : (linkTimes n c).lookup? t = none := by
    rw [(widened_linkTimes n c).lookup?]
    by_contra hne
    exact hfree (binds_iff.2 (.inl hne))
  constructor
  · obtain ⟨m, hm, hget⟩ := Option.bind_eq_some_iff.1 htarget
    rw [Crate.lookup?, hm, Option.bind_some] at hlookup
    rw [Crate.importStep?, hm, Option.bind_some, hget, Option.bind_some, SortedMap.contains,
      hlookup]
    exact hu
  · rw [TypeName.ofSegments?_append] at hu
    cases hu
    rfl

theorem AddedChain.importChain {n k : Nat} (h : AddedChain c (linkTimes n c) k t u) :
    (linkTimes n c).ImportChain k t u ∧ u.name = t.name := by
  induction h with
  | nil => exact ⟨.nil, rfl⟩
  | cons step _ ih =>
    obtain ⟨hstep, hname⟩ := step.importStep?
    exact ⟨.cons hstep ih.1, ih.2.trans hname⟩

/-! ### Modules with globs only -/

theorem Scope.imports_ofItems {home root : Namespace} {items : List Item}
    (h : ∀ i ∈ items, i.ImportsOnlyGlobs) : (Scope.ofItems home root items).imports = .empty := by
  refine List.foldlRecOn (motive := fun s : Scope => s.imports = .empty) _ _ rfl ?_
  intro s hs i hi
  have hi := h i hi
  cases i with
  | use leading tree =>
    have hnames : (tree.leaves []).filterMap UseLeaf.binding? = [] :=
      List.filterMap_eq_nil_iff.2 hi
    rw [Scope.importItem]
    simp only [hnames, List.foldl_nil]
    rw [Scope.foldl_kept (g := Scope.imports)]
    · exact hs
    · intro s target
      unfold Scope.importGlob
      split <;> rfl
  | _ => exact hs

theorem import?_eq_none_of_importsOnlyGlobs {root : Namespace} {steps : List BuildStep}
    (hsteps : BuildStep.linkGlobs ∉ steps)
    (hglobs : ∀ m ∈ (build root steps).moduleList, ∀ i ∈ m.items, i.ImportsOnlyGlobs)
    (t : TypeName) : (build root steps).import? t = none := by
  rw [Option.eq_none_iff_forall_ne_some]
  intro target htarget
  obtain ⟨m, hm, hget⟩ := Option.bind_eq_some_iff.1 htarget
  rw [scope_build_of_inserts hsteps hm,
    Scope.imports_ofItems (hglobs m (mem_moduleList.2 ⟨_, hm⟩))] at hget
  cases hget

/-- Where globs are the only imports, every name that linking binds has a chain of at most
`hopLimit` linked imports to a declaration of the same name.  It leads there if they are fewer, and
nowhere if they are not. -/
theorem canonical?_linkGlobs_of_binds {root : Namespace} {steps : List BuildStep}
    (hsteps : BuildStep.linkGlobs ∉ steps)
    (hglobs : ∀ m ∈ (build root steps).moduleList, ∀ i ∈ m.items, i.ImportsOnlyGlobs)
    {t : TypeName} (hlinked : (build root steps).linkGlobs.Binds t) :
    let c := build root steps
    ∃ k ≤ hopLimit, ∃ u kind, AddedChain c c.linkGlobs k t u ∧ u.name = t.name ∧
      c.lookup? u = some kind ∧
      c.linkGlobs.canonical? t = if k < hopLimit then some (u, kind) else none := by
  intro c
  have hfree := import?_eq_none_of_importsOnlyGlobs hsteps hglobs
  have hstart (t : TypeName) (ht : c.Binds t) : IsGrounded c c 0 t :=
    ⟨0, Nat.le_refl 0, t, .nil, ht⟩
  obtain ⟨k, hk, u, hchain, hu⟩ := isGrounded_linkTimes (widened_refl c) hstart hopLimit hlinked
  rw [Nat.zero_add] at hk
  -- the end of the chain is bound, and not by an import
  obtain ⟨kind, hkind⟩ : ∃ kind, c.lookup? u = some kind := by
    rcases binds_iff.1 hu with hu | hu
    · exact Option.ne_none_iff_exists'.1 hu
    · exact absurd (hfree u) hu
  have hkind' : c.linkGlobs.lookup? u = some kind :=
    ((widened_linkTimes hopLimit c).lookup? u).trans hkind
  obtain ⟨hchain', hname⟩ := hchain.importChain
  exact ⟨k, hk, u, kind, hchain, hname, hkind, hchain'.canonical?_eq hkind'⟩

/-- Files that make a chain of as many globs with a struct at its end. -/
def globChain (n : Nat) : List BuildStep :=
  [.insert ⟨["crate"]⟩ ⟨"src/lib.rs"⟩ (chainItems n)]

/-- A name that is fifteen globs away leads to its declaration. -/
theorem canonical?_linkGlobs_of_binds_globChain :
    let c := build ⟨["crate"]⟩ (globChain 15)
    BuildStep.linkGlobs ∉ globChain 15 ∧
    (∀ m ∈ c.moduleList, ∀ i ∈ m.items, i.ImportsOnlyGlobs) ∧
    c.linkGlobs.Binds ⟨⟨["crate"]⟩, "Country"⟩ ∧
    ∃ k ≤ hopLimit, ∃ u kind, AddedChain c c.linkGlobs k ⟨⟨["crate"]⟩, "Country"⟩ u ∧
      u.name = "Country" ∧ c.lookup? u = some kind ∧
      c.linkGlobs.canonical? ⟨⟨["crate"]⟩, "Country"⟩ =
        if k < hopLimit then some (u, kind) else none := by
  intro c
  have hsteps : BuildStep.linkGlobs ∉ globChain 15 := by simp [globChain]
  have hglobs : ∀ m ∈ c.moduleList, ∀ i ∈ m.items, i.ImportsOnlyGlobs := by decide +kernel
  have himport : (c.linkGlobs.import? ⟨⟨["crate"]⟩, "Country"⟩).isSome = true := by decide +kernel
  have hlinked : c.linkGlobs.Binds ⟨⟨["crate"]⟩, "Country"⟩ :=
    binds_iff.2 (.inr (Option.isSome_iff_ne_none.1 himport))
  exact ⟨hsteps, hglobs, hlinked, canonical?_linkGlobs_of_binds hsteps hglobs hlinked⟩

/-- A name that is sixteen globs away is linked, and leads nowhere. -/
theorem canonical?_eq_none_globChain :
    let c := build ⟨["crate"]⟩ (globChain hopLimit)
    BuildStep.linkGlobs ∉ globChain hopLimit ∧
    (∀ m ∈ c.moduleList, ∀ i ∈ m.items, i.ImportsOnlyGlobs) ∧
    c.import? ⟨⟨["crate"]⟩, "Country"⟩ = none ∧
    c.linkGlobs.import? ⟨⟨["crate"]⟩, "Country"⟩ ≠ none ∧
    c.linkGlobs.canonical? ⟨⟨["crate"]⟩, "Country"⟩ = none := by
  refine ⟨by simp [globChain], ?_, ?_, ?_, ?_⟩
  all_goals decide +kernel

end Crate
end FieldBinder
