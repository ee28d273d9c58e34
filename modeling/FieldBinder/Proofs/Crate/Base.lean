import FieldBinder.Crate.Implementors

/-!
# Bases of directives

A base is a trait of a crate when imports lead from it to the declaration of a trait.  Resolving a
base fails for no other reason than that it is not one, and names what is wrong with it
(`BaseFault.IsFor`, `resolve_eq_error_iff`).
-/

namespace FieldBinder

namespace Crate

/-- Whether a name leads to a trait. -/
def LeadsToTrait (c : Crate) (base : TypeName) : Prop :=
  ∃ t, c.canonical? base = some (t, .trait)

end Crate

namespace Implementors

/-- What is wrong with a base: nothing is declared where it leads, or something that is no
trait. -/
inductive BaseFault.IsFor (c : Crate) (base : TypeName) : BaseFault → Prop
  | unknown (h : c.canonical? base = none) : IsFor c base (.unknown base)
  | notATrait {t : TypeName} {kind : DeclKind} (h : c.canonical? base = some (t, kind))
      (hk : kind ≠ .trait) : IsFor c base (.notATrait base kind)

/-- A base is not resolved just when nothing is declared where it leads, or no trait. -/
theorem resolve_eq_error_iff {registry : Implementors} {c : Crate} {base : TypeName}
    {e : BaseFault} : registry.resolve c base = .error e ↔ e.IsFor c base := by
  rw [resolve]
  constructor
  · intro h
    split at h
    · next hnone => cases h; exact .unknown hnone
    · next t kind hsome =>
      split at h
      · cases h
      · next hk => cases h; exact .notATrait hsome hk
  · intro h
    cases h with
    | unknown hnone => rw [hnone]
    | notATrait hsome hk => simp only [hsome, if_neg hk]

/-- What is wrong with a base excludes that it leads to a trait. -/
theorem not_leadsToTrait_of_isFor {c : Crate} {base : TypeName} {e : BaseFault}
    (h : e.IsFor c base) : ¬ c.LeadsToTrait base := by
  rintro ⟨t, ht⟩
  cases h with
  | unknown hnone => rw [hnone] at ht; cases ht
  | notATrait hsome hk => rw [hsome] at ht; cases ht; exact hk rfl

/-- A base that leads to a trait is resolved, whatever the registry holds. -/
theorem exists_resolve_of_leadsToTrait {c : Crate} {base : TypeName} (h : c.LeadsToTrait base)
    (registry : Implementors) : ∃ set, registry.resolve c base = .ok set := by
  cases hr : registry.resolve c base with
  | ok set => exact ⟨set, rfl⟩
  | error e => exact absurd h (not_leadsToTrait_of_isFor (resolve_eq_error_iff.1 hr))

/-- Something is wrong with each base that leads to no trait. -/
theorem exists_isFor_of_not_leadsToTrait {c : Crate} {base : TypeName}
    (h : ¬ c.LeadsToTrait base) : ∃ e : BaseFault, e.IsFor c base := by
  rcases hb : c.canonical? base with _ | ⟨t, kind⟩
  · exact ⟨_, .unknown hb⟩
  · refine ⟨_, .notATrait hb fun hk => h ⟨t, ?_⟩⟩
    rw [hb, hk]

/-- What is resolved leads to a trait. -/
theorem leadsToTrait_of_resolve_eq_ok {registry : Implementors} {c : Crate} {base : TypeName}
    {set : TypeSet} (h : registry.resolve c base = .ok set) : c.LeadsToTrait base := by
  refine Classical.not_not.1 fun hb => ?_
  obtain ⟨e, he⟩ := exists_isFor_of_not_leadsToTrait hb
  rw [resolve_eq_error_iff.2 he] at h
  cases h

end Implementors

end FieldBinder
