import FieldBinder.Proofs.Crate.Globs
import FieldBinder.Proofs.Crate.Names
import Mathlib.Logic.Relation

/-!
# What linking globs binds

* `linkGlobs_conservative`: linking adds imports of names that were not bound, each through a glob
  of its module, and the chains of added imports end, after at most `hopLimit` of them, where the
  name was bound before.  What led to a declaration before still does.
* `linkGlobs_saturated_iff`: a name is bound that was bound at most `hopLimit` globs away, and
  nothing is left to link unless a name is offered only from farther away.
-/

namespace FieldBinder.Crate

variable {c c' : Crate} {t u v : TypeName} {n : Nat}

/-! ### Chains of added imports -/

/-- Whether a name has an import in a crate that it has not in another one. -/
def AddedStep (c c' : Crate) (t u : TypeName) : Prop :=
  c.import? t = none ∧ (c'.import? t).bind TypeName.ofSegments? = some u

/-- Whether a number of added imports lead from one name to another. -/
inductive AddedChain (c c' : Crate) : Nat → TypeName → TypeName → Prop
  | nil {t : TypeName} : AddedChain c c' 0 t t
  | cons {t u v : TypeName} {k : Nat} (step : AddedStep c c' t u) (h : AddedChain c c' k u v) :
      AddedChain c c' (k + 1) t v

/-- Whether the added imports of a name lead, in at most `n` steps, to where it was bound. -/
def IsGrounded (c c' : Crate) (n : Nat) (t : TypeName) : Prop :=
  ∃ k ≤ n, ∃ u, AddedChain c c' k t u ∧ c.Binds u

theorem AddedStep.mono {c'' : Crate} (h : c'.Widened c'') (step : AddedStep c c' t u) :
    AddedStep c c'' t u := by
  obtain ⟨target, htarget, hu⟩ := Option.bind_eq_some_iff.1 step.2
  exact ⟨step.1, Option.bind_eq_some_iff.2 ⟨target, h.import? htarget, hu⟩⟩

theorem AddedChain.mono {c'' : Crate} (h : c'.Widened c'') {k : Nat}
    (chain : AddedChain c c' k t u) : AddedChain c c'' k t u := by
  induction chain with
  | nil => exact .nil
  | cons step _ ih => exact .cons (step.mono h) ih

/-- One more round: what it adds leads to what the rounds before it have bound. -/
theorem IsGrounded.linkOnce (hwidened : c.Widened c')
    (h : ∀ t, c'.Binds t → IsGrounded c c' n t) (ht : c'.linkOnce.Binds t) :
    IsGrounded c c'.linkOnce (n + 1) t := by
  have hmono := widened_linkOnce c'
  by_cases hb : c'.Binds t
  · obtain ⟨k, hk, u, hchain, hu⟩ := h t hb
    exact ⟨k, by omega, u, hchain.mono hmono, hu⟩
  · -- a name that this round binds: it goes on from the name in the module that its glob names
    have hnone : c'.import? t = none := by
      by_contra hi
      exact hb (binds_iff.2 (.inr hi))
    have hnone' : c.import? t = none := by
      by_contra hi
      obtain ⟨target, htarget⟩ := Option.ne_none_iff_exists'.1 hi
      rw [hwidened.import? htarget] at hnone
      cases hnone
    have hadded : c'.linkOnce.import? t ≠ none := by
      rcases binds_iff.1 ht with hl | hi
      · rw [hmono.lookup?] at hl
        exact absurd (binds_iff.2 (.inl hl)) hb
      · exact hi
    obtain ⟨target, htarget⟩ := Option.ne_none_iff_exists'.1 hadded
    obtain ⟨-, g, rfl, -, hbinds⟩ := exists_glob_of_import?_linkOnce hnone htarget
    obtain ⟨k, hk, u, hchain, hu⟩ := h _ hbinds
    refine ⟨k + 1, by omega, u, .cons ⟨hnone', ?_⟩ (hchain.mono hmono), hu⟩
    rw [htarget, Option.bind_some, TypeName.ofSegments?_append]
    rfl

/-- After some rounds, at most as many added imports lead from a bound name to where it was bound
before the first of them. -/
theorem isGrounded_linkTimes (hwidened : c.Widened c')
    (h : ∀ t, c'.Binds t → IsGrounded c c' n t) (m : Nat) (ht : (linkTimes m c').Binds t) :
    IsGrounded c (linkTimes m c') (n + m) t := by
  induction m generalizing c' n with
  | zero => exact h t ht
  | succ m ih =>
    rw [linkTimes] at ht ⊢
    split at ht
    · next hlinked =>
      obtain ⟨k, hk, hchain⟩ := h t ht
      rw [if_pos hlinked]
      exact ⟨k, by omega, hchain⟩
    · next hlinked =>
      rw [if_neg hlinked]
      have hround := ih (n := n + 1) (hwidened.trans (widened_linkOnce c'))
        (fun t ht => IsGrounded.linkOnce hwidened h ht) ht
      rwa [Nat.add_assoc, Nat.add_comm 1 m] at hround

theorem AddedChain.not_transGen {k : Nat} (chain : AddedChain c c' k t u)
    (hend : ∀ v, ¬ AddedStep c c' u v) : ¬ Relation.TransGen (AddedStep c c') t t := by
  induction chain with
  | nil =>
    intro h
    obtain ⟨v, hstep, -⟩ := Relation.TransGen.head'_iff.1 h
    exact hend v hstep
  | @cons t u v k step _ ih =>
    intro h
    obtain ⟨u', step', hback⟩ := Relation.TransGen.head'_iff.1 h
    obtain rfl : u = u' := Option.some.inj (step.2.symm.trans step'.2)
    exact ih hend (.tail' hback step)

/-! ### What rounds add -/

/-- An import that rounds add goes through a glob to where the name is bound after them. -/
theorem exists_glob_of_import?_linkTimes (m : Nat) {target : List String}
    (hnone : c.import? t = none) (h : (linkTimes m c).import? t = some target) :
    ¬ c.Binds t ∧ ∃ g, target = g ++ [t.name] ∧ c.GlobStep t (.qualify ⟨g⟩ t.name) ∧
      (linkTimes m c).Binds (.qualify ⟨g⟩ t.name) := by
  induction m generalizing c with
  | zero =>
    rw [linkTimes, hnone] at h
    cases h
  | succ m ih =>
    rw [linkTimes] at h ⊢
    split at h
    · rw [hnone] at h
      cases h
    next hlinked =>
    rw [if_neg hlinked]
    have hround := widened_linkOnce c
    have hrest := widened_linkTimes m c.linkOnce
    -- The import is new in a later round, or in this one and kept by the rounds behind it.
    cases honce : c.linkOnce.import? t with
    | none =>
      obtain ⟨hfree, g, hg, hstep, hbinds⟩ := ih honce h
      exact ⟨fun hb => hfree (hround.binds hb), g, hg, hround.globStep_iff.1 hstep, hbinds⟩
    | some target' =>
      obtain rfl : target' = target := Option.some.inj ((hrest.import? honce).symm.trans h)
      obtain ⟨hfree, g, hg, hstep, hbinds⟩ := exists_glob_of_import?_linkOnce hnone honce
      exact ⟨hfree, g, hg, hstep, hrest.binds (hround.binds hbinds)⟩

/-! ### Declarations -/

/-- With more imports, what was followed to a declaration is followed to it still. -/
theorem Widened.follow (h : c.Widened c') {d : TypeName × DeclKind}
    (hd : c.follow n t = some d) : c'.follow n t = some d := by
  induction n generalizing t with
  | zero => cases hd
  | succ n ih =>
    rw [Crate.follow] at hd ⊢
    rw [h.lookup?]
    split at hd
    · exact hd
    · obtain ⟨u, hu, hd⟩ := Option.bind_eq_some_iff.1 hd
      refine Option.bind_eq_some_iff.2 ⟨u, ?_, ih hd⟩
      obtain ⟨m, hm, hstep⟩ := Option.bind_eq_some_iff.1 hu
      obtain ⟨m', hm', hwidened⟩ := h.exists_module hm
      refine Option.bind_eq_some_iff.2 ⟨m', hm', ?_⟩
      -- Only imports were added, so the step through an import that was there is the same.
      have hdeclared : m'.scope.declared = m.scope.declared := by rw [hwidened.same]
      rw [hdeclared]
      split at hstep
      · cases hstep
      · next hfree =>
        obtain ⟨target, htarget, hu⟩ := Option.bind_eq_some_iff.1 hstep
        rw [if_neg hfree]
        exact Option.bind_eq_some_iff.2 ⟨target, hwidened.kept _ _ htarget, hu⟩

/-! ### Linking -/

/-- Linking globs only adds imports.  An added import is of a name that its module did not bind, and
leads through one of its globs to a module of the crate that binds the name.  Added imports form no
cycle, and at most `hopLimit` of them lead from a bound name to where it was bound before.  A name
that led to a declaration leads to the same one. -/
theorem linkGlobs_conservative (c : Crate) :
    c.Widened c.linkGlobs ∧
    (∀ t target, c.import? t = none → c.linkGlobs.import? t = some target → ¬ c.Binds t ∧
      ∃ m g, c.module? t.home = some m ∧ g ∈ m.scope.globs ∧ target = g ++ [t.name] ∧
        (c.module? ⟨g⟩).isSome ∧ c.linkGlobs.Binds (.qualify ⟨g⟩ t.name)) ∧
    (∀ t, ¬ Relation.TransGen (AddedStep c c.linkGlobs) t t) ∧
    (∀ t, c.linkGlobs.Binds t →
      ∃ k ≤ hopLimit, ∃ u, AddedChain c c.linkGlobs k t u ∧ c.Binds u) ∧
    ∀ t d, c.canonical? t = some d → c.linkGlobs.canonical? t = some d := by
  have hwidened : c.Widened c.linkGlobs := widened_linkTimes hopLimit c
  have hadded (t : TypeName) (target : List String) (hnone : c.import? t = none)
      (h : c.linkGlobs.import? t = some target) := exists_glob_of_import?_linkTimes _ hnone h
  have hgrounded (t : TypeName) (ht : c.linkGlobs.Binds t) :
      IsGrounded c c.linkGlobs hopLimit t := by
    have hstart (t : TypeName) (ht : c.Binds t) : IsGrounded c c 0 t :=
      ⟨0, Nat.le_refl 0, t, .nil, ht⟩
    have := isGrounded_linkTimes (widened_refl c) hstart hopLimit ht
    rwa [Nat.zero_add] at this
  refine ⟨hwidened, fun t target hnone h => ?_, fun t hcycle => ?_, hgrounded,
    fun t d hd => hwidened.follow hd⟩
  · obtain ⟨hfree, g, hg, ⟨m, g', hm, hmem, hglob⟩, hbinds⟩ := hadded t target hnone h
    obtain rfl : g = g' := by simpa [TypeName.qualify] using hglob
    obtain ⟨_, hm', -⟩ := id hbinds
    obtain ⟨m', hm', -⟩ := hwidened.exists_of_module hm'
    exact ⟨hfree, m, g, hm, hmem, hg, Option.isSome_iff_exists.2 ⟨m', hm'⟩, hbinds⟩
  · -- a name on a cycle has an import, so its chain ends where the name was bound
    obtain ⟨u, hstep, -⟩ := Relation.TransGen.head'_iff.1 hcycle
    obtain ⟨target, htarget, -⟩ := Option.bind_eq_some_iff.1 hstep.2
    have ht : c.linkGlobs.Binds t :=
      binds_iff.2 (.inr (by rw [htarget]; exact Option.some_ne_none _))
    obtain ⟨k, -, v, hchain, hv⟩ := hgrounded t ht
    refine hchain.not_transGen (fun w hw => ?_) hcycle
    obtain ⟨target', htarget', -⟩ := Option.bind_eq_some_iff.1 hw.2
    exact (hadded v target' hw.1 htarget').1 hv

/-- After linking, a module binds what one of its globs leads to if that was bound fewer than
`hopLimit` globs farther.  Nothing is left to link, and linking once more changes nothing, exactly
when each name that is offered along any number of globs is offered along at most `hopLimit`. -/
theorem linkGlobs_saturated_iff (c : Crate) :
    (∀ t u, c.linkGlobs.GlobStep t u → (∃ k < hopLimit, c.Offers k u) → c.linkGlobs.Binds t) ∧
    (c.linkGlobs.Saturated ↔ ∀ t k, c.Offers k t → ∃ j ≤ hopLimit, c.Offers j t) ∧
    (c.linkGlobs.linkGlobs = c.linkGlobs ↔ c.linkGlobs.Saturated) := by
  have hwidened : c.Widened c.linkGlobs := widened_linkTimes hopLimit c
  have hbinds (t : TypeName) : c.linkGlobs.Binds t ↔ ∃ k ≤ hopLimit, c.Offers k t :=
    binds_linkTimes_iff hopLimit c t
  refine ⟨?_, ⟨?_, ?_⟩, ?_, ?_⟩
  · rintro t u hstep ⟨k, hk, hoffers⟩
    exact (hbinds t).2 ⟨k + 1, hk, .through (hwidened.globStep_iff.1 hstep) hoffers⟩
  · intro hsaturated t k hoffers
    rw [← hbinds]
    induction hoffers with
    | bound h => exact hwidened.binds h
    | through hstep _ ih => exact hsaturated _ _ (hwidened.globStep_iff.2 hstep) ih
  · intro hnear t u hstep hu
    obtain ⟨k, -, hoffers⟩ := (hbinds u).1 hu
    exact (hbinds t).2 (hnear t (k + 1) (.through (hwidened.globStep_iff.1 hstep) hoffers))
  · intro hsame t u hstep hu
    -- one more round would bind the name
    have hoffers : c.linkGlobs.Offers 1 t := .through hstep (.bound hu)
    rw [← hsame]
    exact (binds_linkTimes_iff hopLimit _ t).2 ⟨1, by decide, hoffers⟩
  · intro hsaturated
    have hlinked : c.linkGlobs.isLinked = true := isLinked_iff.2 hsaturated
    rw [linkGlobs, hopLimit, linkTimes, if_pos hlinked]

/-- A module with a struct at the end of a chain of modules, each with a glob of the next one. -/
def chainItems : Nat → List Item
  | 0 => [.struct "Country" .unit]
  | n + 1 => [.use false (.path "self" (.path "next" .glob)), .mod "next" (some (chainItems n))]

/-- A crate with a name that is seventeen globs away from its root. -/
def longChain : Crate := build ⟨["crate"]⟩ [.insert ⟨["crate"]⟩ ⟨"src/lib.rs"⟩ (chainItems 17)]

theorem not_saturated_linkGlobs_longChain :
    ¬ longChain.linkGlobs.Saturated ∧ longChain.linkGlobs.linkGlobs ≠ longChain.linkGlobs := by
  have hlinked : longChain.linkGlobs.isLinked = false := by decide +kernel
  have hsaturated : ¬ longChain.linkGlobs.Saturated := by
    rw [← isLinked_iff, hlinked]
    exact Bool.false_ne_true
  refine ⟨hsaturated, fun h => ?_⟩
  have hroot : (longChain.linkGlobs.linkGlobs.import? ⟨⟨["crate"]⟩, "Country"⟩).isSome = true := by
    decide +kernel
  have hbefore : (longChain.linkGlobs.import? ⟨⟨["crate"]⟩, "Country"⟩).isSome = false := by
    decide +kernel
  rw [h, hbefore] at hroot
  cases hroot

end FieldBinder.Crate
