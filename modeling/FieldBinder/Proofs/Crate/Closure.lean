import FieldBinder.Crate.Implementors
import FieldBinder.Proofs.SortedMap
import Mathlib.Logic.Relation

/-!
# Sets and closures of type names

The names that `reachable` finds are those to which pairs lead in any number of steps, whether or
not the pairs have cycles (`mem_reachable`).  The invariant is `Explored`: a pair that starts from
a name that was seen ends at a name that was seen or is pending.
-/

namespace FieldBinder

namespace TypeSet

theorem get?_ofList (l : List TypeName) (t : TypeName) :
    (ofList l).get? t = if t ∈ l then some () else none := by
  rw [ofList, SortedMap.get?_ofList (g := fun _ => ()) _ (fun _ _ => rfl), List.map_map]
  simp [Function.comp_def]

theorem mem_members_ofList (l : List TypeName) (t : TypeName) :
    t ∈ (ofList l).members ↔ t ∈ l := by
  rw [members, SortedMap.mem_keys_iff, get?_ofList]
  split <;> simp_all

/-- A set of which all members pass a test is the set of those that pass. -/
theorem filterKeys_eq_self {s : TypeSet} {f : TypeName → Bool} (h : ∀ t ∈ s.members, f t = true) :
    s.filterKeys f = s := by
  refine SortedMap.ext_get? fun t => ?_
  rw [SortedMap.get?_filterKeys]
  split
  · rfl
  · next hf =>
    have ht : ¬ (s.get? t).isSome := fun ht => hf (h t ((SortedMap.mem_keys_iff s t).2 ht))
    exact (Option.not_isSome_iff_eq_none.1 ht).symm

end TypeSet

variable {pairs : List (TypeName × TypeName)} {seen pending : List TypeName} {t u : TypeName}

theorem mem_targets {l : List TypeName} : u ∈ targets pairs l ↔ ∃ t ∈ l, (t, u) ∈ pairs := by
  simp only [targets, List.mem_map, List.mem_filter, List.contains_iff_mem]
  constructor
  · rintro ⟨⟨t, _⟩, ⟨hp, ht⟩, rfl⟩
    exact ⟨t, ht, hp⟩
  · rintro ⟨t, ht, hp⟩
    exact ⟨(t, u), ⟨hp, ht⟩, rfl⟩

/-! ### The search -/

/-- Whether what pairs lead to from a name that was seen was seen itself or is pending. -/
def Explored (pairs : List (TypeName × TypeName)) (seen pending : List TypeName) : Prop :=
  ∀ t ∈ seen, ∀ u, (t, u) ∈ pairs → u ∈ seen ∨ u ∈ pending

/-- A name that was seen before need not be pending. -/
theorem Explored.skip (h : Explored pairs seen (t :: pending)) (ht : t ∈ seen) :
    Explored pairs seen pending := by
  intro s hs u hu
  rcases h s hs u hu with hseen | hpending
  · exact .inl hseen
  · rcases List.mem_cons.1 hpending with rfl | hpending
    · exact .inl ht
    · exact .inr hpending

/-- A name can be seen when what pairs lead to from it becomes pending. -/
theorem Explored.see (h : Explored pairs seen (t :: pending)) :
    Explored pairs (t :: seen) (targets pairs [t] ++ pending) := by
  intro s hs u hu
  rcases List.mem_cons.1 hs with rfl | hs
  · exact .inr (List.mem_append_left _ (mem_targets.2 ⟨s, List.mem_singleton_self s, hu⟩))
  · rcases h s hs u hu with hseen | hpending
    · exact .inl (List.mem_cons_of_mem _ hseen)
    · rcases List.mem_cons.1 hpending with rfl | hpending
      · exact .inl List.mem_cons_self
      · exact .inr (List.mem_append_right _ hpending)

/-- What was seen or is pending is found, and so is what pairs lead to from what is found. -/
theorem collect_closed (h : Explored pairs seen pending) :
    (∀ t, t ∈ seen ∨ t ∈ pending → t ∈ collect pairs seen pending) ∧
    ∀ t ∈ collect pairs seen pending, ∀ u, (t, u) ∈ pairs → u ∈ collect pairs seen pending := by
  induction seen, pending using collect.induct pairs with
  | case1 seen =>
    rw [collect]
    refine ⟨fun t ht => ht.resolve_right List.not_mem_nil, fun t ht u hu => ?_⟩
    exact (h t ht u hu).resolve_right List.not_mem_nil
  | case2 seen t pending ht ih =>
    rw [collect, if_pos ht]
    obtain ⟨hfound, hclosed⟩ := ih (h.skip ht)
    refine ⟨fun u hu => hfound u ?_, hclosed⟩
    rcases hu with hu | hu
    · exact .inl hu
    · rcases List.mem_cons.1 hu with rfl | hu
      · exact .inl ht
      · exact .inr hu
  -- A new type is noted, and what it leads to is put behind the pending ones.
  | case3 seen t pending ht ih =>
    rw [collect, if_neg ht]
    obtain ⟨hfound, hclosed⟩ := ih h.see
    refine ⟨fun u hu => hfound u ?_, hclosed⟩
    rcases hu with hu | hu
    · exact .inl (List.mem_cons_of_mem _ hu)
    · rcases List.mem_cons.1 hu with rfl | hu
      · exact .inl List.mem_cons_self
      · exact .inr (List.mem_append_right _ hu)

/-- What is found was seen, or pairs lead to it from what is pending. -/
theorem exists_of_mem_collect (h : u ∈ collect pairs seen pending) :
    u ∈ seen ∨ ∃ t ∈ pending, Relation.ReflTransGen (fun a b => (a, b) ∈ pairs) t u := by
  induction seen, pending using collect.induct pairs with
  | case1 seen =>
    rw [collect] at h
    exact .inl h
  | case2 seen t pending ht ih =>
    rw [collect, if_pos ht] at h
    rcases ih h with hseen | ⟨s, hs, hsteps⟩
    · exact .inl hseen
    · exact .inr ⟨s, List.mem_cons_of_mem _ hs, hsteps⟩
  | case3 seen t pending ht ih =>
    rw [collect, if_neg ht] at h
    rcases ih h with hseen | ⟨s, hs, hsteps⟩
    · rcases List.mem_cons.1 hseen with rfl | hseen
      · exact .inr ⟨u, List.mem_cons_self, .refl⟩
      · exact .inl hseen
    · rcases List.mem_append.1 hs with hs | hs
      · -- Found from one of the targets of `t`, and so from `t` by one more step.
        obtain ⟨t', ht', hp⟩ := mem_targets.1 hs
        rw [List.mem_singleton] at ht'
        exact .inr ⟨t, List.mem_cons_self, .head (ht' ▸ hp) hsteps⟩
      · exact .inr ⟨s, List.mem_cons_of_mem _ hs, hsteps⟩

/-- The names that are reachable are those to which pairs lead in any number of steps. -/
theorem mem_reachable {start : TypeName} : u ∈ reachable pairs start ↔
    Relation.ReflTransGen (fun a b => (a, b) ∈ pairs) start u := by
  have hexplored : Explored pairs [] [start] := fun t ht => absurd ht List.not_mem_nil
  obtain ⟨hfound, hclosed⟩ := collect_closed hexplored
  constructor
  · intro hu
    rcases exists_of_mem_collect hu with hseen | ⟨t, ht, hsteps⟩
    · cases hseen
    · rw [List.mem_singleton] at ht
      exact ht ▸ hsteps
  · intro hsteps
    induction hsteps with
    | refl => exact hfound start (.inr List.mem_cons_self)
    | tail _ hp ih => exact hclosed _ ih _ hp

end FieldBinder
