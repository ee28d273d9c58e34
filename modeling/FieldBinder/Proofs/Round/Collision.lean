import FieldBinder.Round
import FieldBinder.Proofs.SortedMap

/-!
# Units for one file

Looking for a collision goes through the units and keeps which type has claimed which place
(`Claims`).  It finds none exactly when all units are for different files
(`collision?_eq_none_iff`); else it finds the first unit whose file is claimed, and the unit that
claimed it (`exists_collision`).
-/

namespace FieldBinder

/-- Whether two units are for different files. -/
def BinderUnit.Apart (u v : BinderUnit) : Prop := u.path.same v.path = false

/-- Units are apart if the components of their paths differ. -/
theorem BinderUnit.apart_iff {u v : BinderUnit} :
    u.Apart v ↔ u.path.components ≠ v.path.components := by
  simp [Apart, FilePath.same]

namespace Round

open BinderUnit

/-- A map that holds the places of units that are all for different files, each with the type of
the unit that claims it. -/
structure Claims (claimed : SortedMap (List Component) TypeName) (seen : List BinderUnit) :
    Prop where
  apart : seen.Pairwise Apart
  get?_eq_some_iff : ∀ place t,
    claimed.get? place = some t ↔ ∃ u ∈ seen, u.path.components = place ∧ u.enclosing = t

/-- At first nothing is claimed. -/
theorem Claims.empty : Claims .empty [] := ⟨.nil, by simp⟩

/-- A unit at a free place claims it. -/
theorem Claims.insert {claimed : SortedMap (List Component) TypeName} {seen : List BinderUnit}
    (h : Claims claimed seen) {u : BinderUnit} (hu : claimed.get? u.path.components = none) :
    Claims (claimed.insert u.path.components u.enclosing) (seen ++ [u]) := by
  -- the path is claimed by no unit that was seen
  have hfree : ∀ v ∈ seen, v.path.components ≠ u.path.components := by
    intro v hv heq
    have := (h.get?_eq_some_iff u.path.components v.enclosing).2 ⟨v, hv, heq, rfl⟩
    rw [hu] at this
    cases this
  constructor
  · rw [List.pairwise_append]
    refine ⟨h.apart, List.pairwise_singleton _ _, fun v hv w hw => ?_⟩
    rw [List.mem_singleton.1 hw, apart_iff]
    exact hfree v hv
  · intro place t
    rw [SortedMap.get?_insert]
    by_cases hp : place = u.path.components
    · rw [if_pos hp, Option.some.injEq]
      constructor
      · intro ht
        exact ⟨u, by simp, hp.symm, ht⟩
      · rintro ⟨v, hv, hvp, ht⟩
        rcases List.mem_append.1 hv with hv | hv
        · exact absurd (hvp.trans hp) (hfree v hv)
        · rw [← ht, List.mem_singleton.1 hv]
    · rw [if_neg hp, h.get?_eq_some_iff]
      constructor
      · rintro ⟨v, hv, hvp, ht⟩
        exact ⟨v, List.mem_append_left _ hv, hvp, ht⟩
      · rintro ⟨v, hv, hvp, ht⟩
        rcases List.mem_append.1 hv with hv | hv
        · exact ⟨v, hv, hvp, ht⟩
        · exact absurd (by rw [← hvp, List.mem_singleton.1 hv]) hp

/-- With the units `seen` in front, there is no collision if all units are for different files,
and else the first unit whose file is claimed collides with the unit that claimed it. -/
theorem collision?_of_claims {claimed : SortedMap (List Component) TypeName}
    {seen : List BinderUnit} (h : Claims claimed seen) (units : List BinderUnit) :
    (collision? claimed units = none ∧ (seen ++ units).Pairwise Apart) ∨
    ∃ before u v after, units = before ++ v :: after ∧ (seen ++ before).Pairwise Apart ∧
      u ∈ seen ++ before ∧ u.path.same v.path = true ∧
      collision? claimed units = some (.collision v.path u.enclosing v.enclosing) := by
  induction units generalizing claimed seen with
  | nil => exact .inl ⟨rfl, by simpa using h.apart⟩
  | cons v rest ih =>
    rw [collision?]
    -- The place of `v` is claimed by a unit in front of it, or `v` claims it.
    cases hv : claimed.get? v.path.components with
    | some t =>
      obtain ⟨u, hu, hplace, rfl⟩ := (h.get?_eq_some_iff _ _).1 hv
      exact .inr ⟨[], u, v, rest, rfl, by simpa using h.apart, by simpa using hu,
        by simp [FilePath.same, hplace], rfl⟩
    | none =>
      rcases ih (h.insert hv) with ⟨hnone, hapart⟩ | ⟨before, u, w, after, rfl, hapart, hu, hw⟩
      · exact .inl ⟨hnone, by simpa using hapart⟩
      · exact .inr ⟨v :: before, u, w, after, rfl, by simpa using hapart, by simpa using hu, hw⟩

/-- No collision is found just when the units are apart. -/
theorem collision?_eq_none_iff (units : List BinderUnit) :
    collision? .empty units = none ↔ units.Pairwise Apart := by
  rcases collision?_of_claims .empty units with ⟨hnone, hapart⟩ |
    ⟨before, u, v, after, rfl, -, hu, hsame, hsome⟩
  · exact iff_of_true hnone hapart
  · refine iff_of_false (by rw [hsome]; simp) fun hp => ?_
    have := (List.pairwise_append.1 hp).2.2 u hu v List.mem_cons_self
    rw [Apart, hsame] at this
    cases this

/-- The first collision: the first unit that is for the file of a unit in front of it. -/
theorem exists_collision {units : List BinderUnit} (h : ¬ units.Pairwise Apart) :
    ∃ before u v after, units = before ++ v :: after ∧ before.Pairwise Apart ∧ u ∈ before ∧
      u.path.same v.path = true ∧
      collision? .empty units = some (.collision v.path u.enclosing v.enclosing) := by
  rcases collision?_of_claims .empty units with ⟨-, hapart⟩ | hfirst
  · exact absurd hapart h
  · exact hfirst

end Round

end FieldBinder
