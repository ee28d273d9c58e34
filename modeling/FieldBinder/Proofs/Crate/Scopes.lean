import FieldBinder.Proofs.Crate.Globs

/-!
# The scopes of built crates

What registering a module establishes, and further imports keep, holds of every module of a built
crate (`forall_module_build`).  So the scope of a module is that of its items but for the imports
that were linked (`scope_build`), and where no globs were linked it is that of its items
(`scope_build_of_inserts`).
-/

namespace FieldBinder.Crate

variable {P : Namespace → Module → Prop}

theorem forall_module_putAll {c : Crate} {file : FilePath}
    (hput : ∀ home items, P home ⟨home, file, items, Scope.ofItems home c.root items⟩)
    (hc : ∀ home m, c.module? home = some m → P home m) (modules : List (Namespace × List Item)) :
    ∀ home m, (c.putAll file modules).1.module? home = some m → P home m := by
  induction modules generalizing c with
  | nil => exact hc
  | cons x r ih =>
    unfold putAll
    split
    · exact hc
    · apply ih (c := c.put file x.1 x.2) hput
      intro home m hm
      rw [module?, put, SortedMap.get?_insert] at hm
      split at hm
      · -- The module that was put last; every other one was there before.
        next heq =>
        cases hm
        rw [heq]
        exact hput x.1 x.2
      · exact hc home m hm

/-- What holds of every module when it is registered holds of the modules of a built crate, if
further imports keep it or no globs were linked. -/
theorem forall_module_build {root : Namespace} {steps : List BuildStep}
    (hput : ∀ home file items, P home ⟨home, file, items, Scope.ofItems home root items⟩)
    (hlink : BuildStep.linkGlobs ∈ steps → ∀ home m imports, P home m →
      P home { m with scope := { m.scope with imports } })
    {home : Namespace} {m : Module} (hm : (build root steps).module? home = some m) :
    P home m := by
  -- The root is carried along, since an inserted module is made with the root of its crate.
  have hbuild : (build root steps).root = root ∧
      ∀ home m, (build root steps).module? home = some m → P home m := by
    refine List.foldlRecOn (motive := fun c : Crate => c.root = root ∧
      ∀ home m, c.module? home = some m → P home m) _ _ ⟨rfl, fun home m h => by cases h⟩ ?_
    rintro c ⟨hroot, hc⟩ step hstep
    cases step with
    | insert home file items =>
      refine ⟨(root_putAll file _).trans hroot, ?_⟩
      apply forall_module_putAll ?_ hc
      intro home items
      rw [hroot]
      exact hput home file items
    | linkGlobs =>
      refine ⟨(root_linkTimes hopLimit c).trans hroot, ?_⟩
      intro home m hm
      obtain ⟨m₀, hm₀, hwidened⟩ := (widened_linkTimes hopLimit c).exists_of_module hm
      rw [hwidened.same]
      exact hlink hstep home m₀ m.scope.imports (hc home m₀ hm₀)
  exact hbuild.2 home m hm

/-- The scope of a module is that of its items but for its imports. -/
theorem scope_build {root : Namespace} {steps : List BuildStep} {home : Namespace} {m : Module}
    (hm : (build root steps).module? home = some m) :
    m.scope = { Scope.ofItems home root m.items with imports := m.scope.imports } := by
  refine forall_module_build (P := fun home m =>
    m.scope = { Scope.ofItems home root m.items with imports := m.scope.imports }) ?_ ?_ hm
  · intro home file items
    rfl
  · intro _ home m imports h
    dsimp only
    rw [h]

/-- Before globs are linked, the scope of a module is that of its items. -/
theorem scope_build_of_inserts {root : Namespace} {steps : List BuildStep}
    (hsteps : BuildStep.linkGlobs ∉ steps) {home : Namespace} {m : Module}
    (hm : (build root steps).module? home = some m) :
    m.scope = Scope.ofItems home root m.items :=
  forall_module_build (P := fun home m => m.scope = Scope.ofItems home root m.items)
    (fun _ _ _ => rfl) (fun hlink => absurd hlink hsteps) hm

end FieldBinder.Crate
