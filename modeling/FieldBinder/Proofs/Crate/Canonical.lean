import FieldBinder.Proofs.Crate.Chains

/-!
# Where names lead

There is one chain of imports from a name.  Whatever it leads to lies on the way to the declaration
at its end, if it has one (`ImportChain.exists_rest`).  So a chain that comes to a cycle, or to a
name that is neither declared nor imported, has none, and a chain of `hopLimit` imports has none
near enough; apart from these, every name leads to a declaration (`canonical?_importChain`).
-/

namespace FieldBinder.Crate

variable {c : Crate} {t u d : TypeName}

/-- A name is imported where a module of the crate imports it and does not declare it. -/
theorem importStep?_eq_some_iff : c.importStep? t = some u ↔
    ∃ m, c.module? t.home = some m ∧ m.scope.declared.get? t.name = none ∧
      m.scope.imports.get? t.name = some u.segments := by
  rw [importStep?, Option.bind_eq_some_iff]
  refine exists_congr fun m => and_congr_right fun _ => ?_
  rw [SortedMap.contains]
  cases m.scope.declared.get? t.name with
  | some kind => simp
  | none =>
    simp only [Option.isSome_none, Bool.false_eq_true, if_false, true_and]
    rw [Option.bind_eq_some_iff]
    constructor
    · rintro ⟨target, htarget, hu⟩
      rw [htarget, TypeName.segments_of_ofSegments? hu]
    · intro htarget
      exact ⟨u.segments, htarget, TypeName.ofSegments?_segments u⟩

/-- A name is declared where a module of the crate declares it. -/
theorem lookup?_eq_some_iff {kind : DeclKind} : c.lookup? t = some kind ↔
    ∃ m, c.module? t.home = some m ∧ m.scope.declared.get? t.name = some kind :=
  Option.bind_eq_some_iff

/-- A name that no module of the crate binds is neither declared nor imported. -/
theorem lookup?_importStep?_eq_none_of_not_binds (h : ¬ c.Binds t) :
    c.lookup? t = none ∧ c.importStep? t = none := by
  rw [binds_iff, not_or, not_not, not_not] at h
  refine ⟨h.1, ?_⟩
  rw [Option.eq_none_iff_forall_ne_some]
  intro u hu
  obtain ⟨m, hm, -, himport⟩ := importStep?_eq_some_iff.1 hu
  have htarget : c.import? t = some u.segments := Option.bind_eq_some_iff.2 ⟨m, hm, himport⟩
  rw [h.2] at htarget
  cases htarget

/-! ### One chain -/

/-- What a name leads to lies on the way to the declaration that it leads to. -/
theorem ImportChain.exists_rest {j k : Nat} (hu : c.ImportChain j t u) (hd : c.ImportChain k t d)
    (hlookup : c.lookup? d ≠ none) : ∃ i, k = j + i ∧ c.ImportChain i u d := by
  induction hu generalizing k with
  | nil => exact ⟨k, (Nat.zero_add k).symm, hd⟩
  | @cons t t' u j step _ ih =>
    cases hd with
    | nil => exact absurd (lookup?_of_importStep? step) hlookup
    | cons step' hd =>
      obtain rfl := Option.some.inj (step.symm.trans step')
      obtain ⟨i, rfl, hrest⟩ := ih hd
      exact ⟨i, by omega, hrest⟩

/-- No declaration is at the end of a chain that comes to a cycle. -/
theorem ImportChain.lookup?_of_cycle {j k n : Nat} (hu : c.ImportChain j t u)
    (hcycle : c.ImportChain n u u) (hn : 0 < n) (hd : c.ImportChain k t d) :
    c.lookup? d = none := by
  by_contra hlookup
  obtain ⟨i, -, hrest⟩ := hu.exists_rest hd hlookup
  -- once around the cycle, the rest of the chain is the same and would have to be shorter
  obtain ⟨i', hi, hrest'⟩ := hcycle.exists_rest hrest hlookup
  obtain ⟨heq, -⟩ := hrest.eq_of_lookup? hrest' hlookup hlookup
  omega

/-- No declaration is at the end of a chain that comes to a name which is neither declared nor
imported. -/
theorem ImportChain.lookup?_of_end {j k : Nat} (hu : c.ImportChain j t u)
    (hlookup : c.lookup? u = none) (hstep : c.importStep? u = none) (hd : c.ImportChain k t d) :
    c.lookup? d = none := by
  by_contra hd'
  obtain ⟨i, -, hrest⟩ := hu.exists_rest hd hd'
  cases hrest with
  | nil => exact hd' hlookup
  | cons step _ =>
    rw [hstep] at step
    cases step

/-- A chain has a number of imports, or ends before. -/
theorem exists_importChain_or_end (c : Crate) (n : Nat) (t : TypeName) :
    (∃ u, c.ImportChain n t u) ∨
      ∃ h < n, ∃ u, c.ImportChain h t u ∧ c.importStep? u = none := by
  induction n generalizing t with
  | zero => exact .inl ⟨t, .nil⟩
  | succ n ih =>
    cases hstep : c.importStep? t with
    | none => exact .inr ⟨0, Nat.succ_pos n, t, .nil, hstep⟩
    | some t' =>
      rcases ih t' with ⟨u, hu⟩ | ⟨h, hh, u, hu, hend⟩
      · exact .inl ⟨u, .cons hstep hu⟩
      · exact .inr ⟨h + 1, Nat.succ_lt_succ hh, u, .cons hstep hu, hend⟩

/-! ### Names that lead nowhere -/

theorem canonical?_eq_none_of_forall
    (h : ∀ k d, c.ImportChain k t d → k < hopLimit → c.lookup? d = none) :
    c.canonical? t = none := by
  rw [Option.eq_none_iff_forall_ne_some]
  rintro ⟨d, kind⟩ hd
  obtain ⟨k, hk, hchain, hlookup⟩ := canonical?_eq_some_iff.1 hd
  rw [h k d hchain hk] at hlookup
  cases hlookup

theorem canonical?_eq_none_iff : c.canonical? t = none ↔
    (∃ u, c.ImportChain hopLimit t u) ∨
      ∃ h < hopLimit, ∃ u, c.ImportChain h t u ∧ c.lookup? u = none ∧ c.importStep? u = none := by
  constructor
  · intro hnone
    -- The chain is as long as the limit, or it ends before: there nothing is declared either.
    rcases exists_importChain_or_end c hopLimit t with hlong | ⟨h, hh, u, hu, hend⟩
    · exact .inl hlong
    · refine .inr ⟨h, hh, u, hu, ?_, hend⟩
      rw [Option.eq_none_iff_forall_ne_some]
      intro kind hlookup
      rw [canonical?_eq_some_iff.2 ⟨h, hh, hu, hlookup⟩] at hnone
      cases hnone
  · rintro (⟨u, hu⟩ | ⟨h, -, u, hu, hlookup, hend⟩)
    · apply canonical?_eq_none_of_forall
      intro k d hd hk
      by_contra hlookup
      obtain ⟨i, hi, -⟩ := hu.exists_rest hd hlookup
      omega
    · exact canonical?_eq_none_of_forall fun k d hd _ => hu.lookup?_of_end hlookup hend hd

/-- A name leads to a declaration exactly when fewer than sixteen imports do, each by a module of
the crate that imports the name and does not declare it.  The declaration is found under its own
name, and leads to itself.  No name has two chains to declarations.  A name leads nowhere exactly
when its chain has sixteen imports or ends before at a name that is neither declared nor imported;
so it does when its chain comes to a cycle, leaves the modules of the crate, or comes to a name that
is not bound. -/
theorem canonical?_importChain (c : Crate) (t : TypeName) :
    (∀ v w, c.importStep? v = some w ↔ ∃ m, c.module? v.home = some m ∧
      m.scope.declared.get? v.name = none ∧ m.scope.imports.get? v.name = some w.segments) ∧
    (∀ d kind, c.canonical? t = some (d, kind) ↔ ∃ h < 16, c.ImportChain h t d ∧
      ∃ m, c.module? d.home = some m ∧ m.scope.declared.get? d.name = some kind) ∧
    (∀ d kind, c.canonical? t = some (d, kind) →
      c.lookup? d = some kind ∧ c.canonical? d = some (d, kind)) ∧
    (∀ h h' d d', c.ImportChain h t d → c.ImportChain h' t d' →
      c.lookup? d ≠ none → c.lookup? d' ≠ none → h = h' ∧ d = d') ∧
    (c.canonical? t = none ↔ (∃ u, c.ImportChain 16 t u) ∨
      ∃ h < 16, ∃ u, c.ImportChain h t u ∧ c.lookup? u = none ∧ c.importStep? u = none) ∧
    ∀ h u, c.ImportChain h t u →
      (∃ n > 0, c.ImportChain n u u) ∨ c.module? u.home = none ∨ ¬ c.Binds u →
      c.canonical? t = none := by
  refine ⟨fun _ _ => importStep?_eq_some_iff, ?_, ?_, ?_, canonical?_eq_none_iff, ?_⟩
  · intro d kind
    simp only [canonical?_eq_some_iff, lookup?_eq_some_iff, hopLimit]
  · intro d kind hd
    have hlookup := lookup?_of_canonical? hd
    exact ⟨hlookup, canonical?_eq_some_iff.2 ⟨0, by decide, .nil, hlookup⟩⟩
  · intro h h' d d' hd hd' hlookup hlookup'
    exact hd.eq_of_lookup? hd' hlookup hlookup'
  · intro h u hu hlost
    apply canonical?_eq_none_of_forall
    intro k d hd _
    -- A name that binds nothing ends every chain through it, and `d` is on one.
    have hfree : ¬ c.Binds u → c.lookup? d = none := by
      intro hfree
      obtain ⟨hlookup, hend⟩ := lookup?_importStep?_eq_none_of_not_binds hfree
      exact hu.lookup?_of_end hlookup hend hd
    rcases hlost with ⟨n, hn, hcycle⟩ | hmodule | hunbound
    · exact hu.lookup?_of_cycle hcycle hn hd
    · apply hfree
      rintro ⟨m, hm, -⟩
      rw [hmodule] at hm
      cases hm
    · exact hfree hunbound

/-- Two imports of each other. -/
example : (build ⟨["crate"]⟩ [.insert ⟨["crate"]⟩ ⟨"lib.rs"⟩
      [.use false (.path "self" (.rename "Land" "Country")),
        .use false (.path "self" (.rename "Country" "Land"))]]).canonical?
    ⟨⟨["crate"]⟩, "Country"⟩ = none := by
  decide +kernel

end FieldBinder.Crate
