import FieldBinder.Proofs.Crate.Built

/-!
# Rounds of linking globs

A round adds imports and changes nothing else (`widened_linkOnce`).  Each import that it adds is
offered by a glob of its module, and the target of the glob bound the name before the round
(`exists_glob_of_import?_linkOnce`).  So a name is bound after a round exactly when it was bound
before, or a glob led to where it was (`binds_linkOnce_iff`), and after some rounds exactly when it
was bound at most as many globs away (`binds_linkTimes_iff`).
-/

namespace FieldBinder

/-! ### More imports and nothing else -/

/-- Whether a module is another one with further imports. -/
structure Module.Widened (m m' : Module) : Prop where
  same : m' = { m with scope := { m.scope with imports := m'.scope.imports } }
  kept : ∀ name target, m.scope.imports.get? name = some target →
    m'.scope.imports.get? name = some target

namespace Crate

/-- Whether a crate is another one whose modules have further imports. -/
structure Widened (c c' : Crate) : Prop where
  root : c'.root = c.root
  modules : ∀ home, Option.Rel Module.Widened (c.module? home) (c'.module? home)

/-- The target of the import of a name. -/
def import? (c : Crate) (t : TypeName) : Option (List String) :=
  (c.module? t.home).bind fun m => m.scope.imports.get? t.name

/-- Whether the module of a name declares or imports it. -/
def Binds (c : Crate) (t : TypeName) : Prop :=
  ∃ m, c.module? t.home = some m ∧ m.scope.binds t.name = true

/-- Whether a glob in the module of a name leads to where the name is looked up next. -/
def GlobStep (c : Crate) (t u : TypeName) : Prop :=
  ∃ m g, c.module? t.home = some m ∧ g ∈ m.scope.globs ∧ u = .qualify ⟨g⟩ t.name

/-- Whether a name is bound where a number of globs lead to from its module. -/
inductive Offers (c : Crate) : Nat → TypeName → Prop
  | bound {t : TypeName} (h : c.Binds t) : Offers c 0 t
  | through {t u : TypeName} {k : Nat} (step : c.GlobStep t u) (h : Offers c k u) :
      Offers c (k + 1) t

/-- Whether every module binds the names that its globs lead to. -/
def Saturated (c : Crate) : Prop := ∀ t u, c.GlobStep t u → c.Binds u → c.Binds t

variable {c c' c'' : Crate} {t u : TypeName}

theorem widened_refl (c : Crate) : c.Widened c where
  root := rfl
  modules home := by
    cases c.module? home with
    | none => exact .none
    | some m => exact .some ⟨rfl, fun _ _ h => h⟩

/-- What is added is added for good. -/
theorem Widened.trans (h : c.Widened c') (h' : c'.Widened c'') : c.Widened c'' where
  root := h'.root.trans h.root
  modules home := by
    have hm := h.modules home
    have hm' := h'.modules home
    revert hm hm'
    rcases c.module? home with _ | m <;> rcases c'.module? home with _ | m' <;>
      rcases c''.module? home with _ | m''
    all_goals rintro ⟨⟩ ⟨⟩
    · exact .none
    · next h h' =>
      refine .some ⟨?_, fun name target htarget => h'.kept _ _ (h.kept _ _ htarget)⟩
      rw [h'.same, h.same]

namespace Widened

variable (h : c.Widened c')
include h

/-- Each module is still there, with more imports. -/
theorem exists_module {home : Namespace} {m : Module} (hm : c.module? home = some m) :
    ∃ m', c'.module? home = some m' ∧ m.Widened m' := by
  have hmodules := h.modules home
  rw [hm] at hmodules
  cases hm' : c'.module? home with
  | none =>
    rw [hm'] at hmodules
    cases hmodules
  | some m' =>
    rw [hm'] at hmodules
    cases hmodules with
    | some hwidened => exact ⟨m', rfl, hwidened⟩

/-- No module is added. -/
theorem exists_of_module {home : Namespace} {m' : Module} (hm' : c'.module? home = some m') :
    ∃ m, c.module? home = some m ∧ m.Widened m' := by
  have hmodules := h.modules home
  rw [hm'] at hmodules
  cases hm : c.module? home with
  | none =>
    rw [hm] at hmodules
    cases hmodules
  | some m =>
    rw [hm] at hmodules
    cases hmodules with
    | some hwidened => exact ⟨m, rfl, hwidened⟩

/-- Nothing is declared anew. -/
theorem lookup? (t : TypeName) : c'.lookup? t = c.lookup? t := by
  have hmodules := h.modules t.home
  rw [Crate.lookup?, Crate.lookup?]
  generalize c.module? t.home = o, c'.module? t.home = o' at hmodules
  cases hmodules with
  | none => rfl
  | some hwidened => rw [Option.bind_some, Option.bind_some, hwidened.same]

theorem import? {target : List String} (hi : c.import? t = some target) :
    c'.import? t = some target := by
  obtain ⟨m, hm, hget⟩ := Option.bind_eq_some_iff.1 hi
  obtain ⟨m', hm', hwidened⟩ := h.exists_module hm
  exact Option.bind_eq_some_iff.2 ⟨m', hm', hwidened.kept _ _ hget⟩

/-- The steps that globs offer stay, and none is added. -/
theorem globStep_iff : c'.GlobStep t u ↔ c.GlobStep t u := by
  constructor
  · rintro ⟨m', g, hm', hg, rfl⟩
    obtain ⟨m, hm, hwidened⟩ := h.exists_of_module hm'
    rw [hwidened.same] at hg
    exact ⟨m, g, hm, hg, rfl⟩
  · rintro ⟨m, g, hm, hg, rfl⟩
    obtain ⟨m', hm', hwidened⟩ := h.exists_module hm
    refine ⟨m', g, hm', ?_, rfl⟩
    rw [hwidened.same]
    exact hg

end Widened

/-- A name is bound by a declaration or by an import. -/
theorem binds_iff : c.Binds t ↔ c.lookup? t ≠ none ∨ c.import? t ≠ none := by
  unfold Binds lookup? import?
  cases c.module? t.home with
  | none => simp
  | some m => simp [Scope.binds, SortedMap.contains, Option.isSome_iff_ne_none]

/-- A name that is bound stays bound. -/
theorem Widened.binds (h : c.Widened c') (ht : c.Binds t) : c'.Binds t := by
  rw [binds_iff] at ht ⊢
  rcases ht with ht | ht
  · exact .inl (h.lookup? t ▸ ht)
  · obtain ⟨target, htarget⟩ := Option.ne_none_iff_exists'.1 ht
    exact .inr (by rw [h.import? htarget]; exact Option.some_ne_none target)

/-! ### Accepting offers -/

/-- The first of several offers of a name is accepted, unless the scope binds the name. -/
theorem get?_foldl_accept (offers : List (String × List String)) (s : Scope) (name : String) :
    (offers.foldl accept s).imports.get? name = (s.imports.get? name).or
      (if s.binds name then none else (offers.find? fun o => o.1 = name).map (·.2)) := by
  induction offers generalizing s with
  | nil => simp
  | cons o r ih =>
    rw [List.foldl_cons, ih]
    by_cases hb : s.binds o.1 = true
    · -- A name that is bound already keeps its meaning.
      have haccept : accept s o = s := by rw [accept, if_pos hb]
      rw [haccept]
      by_cases hname : o.1 = name
      · subst hname
        rw [if_pos hb, if_pos hb]
      · rw [List.find?_cons_of_neg (by simpa using hname)]
    · -- A free name takes the offer, and the later offers for it are refused.
      have haccept : accept s o = { s with imports := s.imports.insert o.1 o.2 } := by
        rw [accept, if_neg hb]
      rw [haccept]
      simp only [Scope.binds, SortedMap.contains, SortedMap.get?_insert] at hb ⊢
      by_cases hname : name = o.1
      · subst hname
        simp only [Bool.or_eq_true, not_or, Bool.not_eq_true, Option.isSome_eq_false_iff,
          Option.isNone_iff_eq_none] at hb
        simp [hb]
      · rw [if_neg hname, List.find?_cons_of_neg (by simpa using Ne.symm hname)]
        congr

/-- A glob offers what its target binds and the module does not. -/
theorem mem_globOffers {s : Scope} {name : String} {target : List String} :
    (name, target) ∈ c.globOffers s ↔ s.binds name = false ∧ ∃ g ∈ s.globs,
      target = g ++ [name] ∧ c.Binds (.qualify ⟨g⟩ name) := by
  have hvisible (s : Scope) : name ∈ s.visibleNames ↔ s.binds name = true := by
    simp [Scope.visibleNames, Scope.binds, SortedMap.contains, SortedMap.mem_keys_iff]
  simp only [globOffers, List.mem_flatMap, Binds, TypeName.qualify]
  constructor
  · rintro ⟨g, hg, hoffer⟩
    cases hm : c.module? ⟨g⟩ with
    | none => simp [hm] at hoffer
    | some m =>
      simp only [hm, List.mem_map, List.mem_filter, Prod.mk.injEq] at hoffer
      obtain ⟨_, ⟨hname, hfree⟩, rfl, rfl⟩ := hoffer
      exact ⟨by simpa using hfree, g, hg, rfl, m, hm, (hvisible _).1 hname⟩
  · rintro ⟨hfree, g, hg, rfl, m, hm, hname⟩
    refine ⟨g, hg, ?_⟩
    simp only [hm, List.mem_map, List.mem_filter, Prod.mk.injEq]
    exact ⟨name, ⟨(hvisible _).2 hname, by simpa using hfree⟩, rfl, rfl⟩

/-! ### One round -/

/-- One round treats all modules at once. -/
theorem module?_linkOnce (c : Crate) (home : Namespace) :
    c.linkOnce.module? home = (c.module? home).map fun m =>
      { m with scope := (c.globOffers m.scope).foldl accept m.scope } :=
  SortedMap.get?_mapValues _ c.modules home

theorem widened_linkOnce (c : Crate) : c.Widened c.linkOnce where
  root := rfl
  modules home := by
    rw [module?_linkOnce]
    cases c.module? home with
    | none => exact .none
    | some m =>
      refine .some ⟨?_, fun name target htarget => ?_⟩
      · -- accepting offers changes the imports of a scope and nothing else
        have hkept {β : Type} {g : Scope → β}
            (hg : ∀ (s : Scope) imports, g { s with imports } = g s) :
            g ((c.globOffers m.scope).foldl accept m.scope) = g m.scope :=
          Scope.foldl_kept (accept_kept hg) _ _
        have hhome := hkept (g := Scope.home) fun _ _ => rfl
        have hroot := hkept (g := Scope.root) fun _ _ => rfl
        have hdeclared := hkept (g := Scope.declared) fun _ _ => rfl
        have hglobs := hkept (g := Scope.globs) fun _ _ => rfl
        dsimp only
        generalize (c.globOffers m.scope).foldl accept m.scope = s at *
        obtain ⟨home, root, declared, imports, globs⟩ := s
        cases hhome
        cases hroot
        cases hdeclared
        cases hglobs
        rfl
      · rw [get?_foldl_accept, htarget, Option.some_or]

/-- A round adds an import where nothing is bound, from the first glob that has the name. -/
theorem import?_linkOnce (c : Crate) (t : TypeName) :
    c.linkOnce.import? t = (c.import? t).or (if c.lookup? t ≠ none then none else
      (c.module? t.home).bind fun m =>
        ((c.globOffers m.scope).find? fun o => o.1 = t.name).map (·.2)) := by
  rw [import?, module?_linkOnce, import?, lookup?]
  cases c.module? t.home with
  | none => simp
  | some m =>
    rw [Option.map_some, Option.bind_some, Option.bind_some, Option.bind_some, Option.bind_some,
      get?_foldl_accept, Scope.binds, SortedMap.contains, SortedMap.contains]
    rcases m.scope.imports.get? t.name with _ | target <;>
      rcases m.scope.declared.get? t.name with _ | kind <;> simp

/-- An import that a round adds goes through a glob to where the name was bound before. -/
theorem exists_glob_of_import?_linkOnce {target : List String} (hnone : c.import? t = none)
    (h : c.linkOnce.import? t = some target) : ¬ c.Binds t ∧
      ∃ g, target = g ++ [t.name] ∧ c.GlobStep t (.qualify ⟨g⟩ t.name) ∧
        c.Binds (.qualify ⟨g⟩ t.name) := by
  rw [import?_linkOnce, hnone, Option.none_or] at h
  split at h
  · cases h
  · next hlookup =>
    obtain ⟨m, hm, hfind⟩ := Option.bind_eq_some_iff.1 h
    obtain ⟨⟨name, target'⟩, hfound, rfl⟩ := Option.map_eq_some_iff.1 hfind
    have hname : name = t.name := by simpa using List.find?_some hfound
    subst hname
    obtain ⟨-, g, hg, rfl, hbinds⟩ := mem_globOffers.1 (List.mem_of_find?_eq_some hfound)
    refine ⟨fun hb => ?_, g, rfl, ⟨m, g, hm, hg, rfl⟩, hbinds⟩
    rcases binds_iff.1 hb with hb | hb
    · exact hlookup hb
    · exact hb hnone

/-- After a round a name is bound if it was, or if a glob of its module led to one that was. -/
theorem binds_linkOnce_iff : c.linkOnce.Binds t ↔ c.Binds t ∨ ∃ u, c.GlobStep t u ∧ c.Binds u := by
  constructor
  · intro h
    by_cases hb : c.Binds t
    · exact .inl hb
    rcases binds_iff.1 h with h | h
    · rw [(widened_linkOnce c).lookup?] at h
      exact absurd (binds_iff.2 (.inl h)) hb
    · obtain ⟨target, htarget⟩ := Option.ne_none_iff_exists'.1 h
      have hnone : c.import? t = none := by
        by_contra hi
        exact hb (binds_iff.2 (.inr hi))
      obtain ⟨-, g, -, hstep, hbinds⟩ := exists_glob_of_import?_linkOnce hnone htarget
      exact .inr ⟨_, hstep, hbinds⟩
  · rintro (h | ⟨u, ⟨m, g, hm, hg, rfl⟩, hbinds⟩)
    · exact (widened_linkOnce c).binds h
    · by_cases hb : c.Binds t
      · exact (widened_linkOnce c).binds hb
      -- the name is offered, so an offer of it is accepted
      have hfree : m.scope.binds t.name = false := by
        rw [← Bool.not_eq_true]
        exact fun h => hb ⟨m, hm, h⟩
      have hoffer : (t.name, g ++ [t.name]) ∈ c.globOffers m.scope :=
        mem_globOffers.2 ⟨hfree, g, hg, rfl, hbinds⟩
      obtain ⟨o, ho⟩ : ∃ o, (c.globOffers m.scope).find? (fun o => o.1 = t.name) = some o := by
        rw [← Option.isSome_iff_exists, List.find?_isSome]
        exact ⟨_, hoffer, by simp⟩
      have hlookup : ¬ c.lookup? t ≠ none := fun h => hb (binds_iff.2 (.inl h))
      have himport : c.linkOnce.import? t = (c.import? t).or (some o.2) := by
        rw [import?_linkOnce, if_neg hlookup, hm, Option.bind_some, ho, Option.map_some]
      refine binds_iff.2 (.inr ?_)
      rw [himport]
      cases c.import? t <;> simp

/-! ### Some rounds -/

/-- The check before each round says just that nothing is left to add. -/
theorem isLinked_iff : c.isLinked = true ↔ c.Saturated := by
  simp only [isLinked, List.all_eq_true, List.isEmpty_iff]
  constructor
  · rintro h t _ ⟨m, g, hm, hg, rfl⟩ hbinds
    by_contra hb
    have hfree : m.scope.binds t.name = false := by
      rw [← Bool.not_eq_true]
      exact fun h => hb ⟨m, hm, h⟩
    have hoffer := mem_globOffers.2 ⟨hfree, g, hg, rfl, hbinds⟩
    rw [h m (mem_moduleList.2 ⟨_, hm⟩)] at hoffer
    cases hoffer
  · intro h m hm
    obtain ⟨home, hm⟩ := mem_moduleList.1 hm
    rw [List.eq_nil_iff_forall_not_mem]
    rintro ⟨name, target⟩ hoffer
    obtain ⟨hfree, g, hg, rfl, hbinds⟩ := mem_globOffers.1 hoffer
    obtain ⟨m', hm', hname⟩ :=
      h (.qualify home name) _ ⟨m, g, hm, hg, rfl⟩ hbinds
    obtain rfl : m = m' := Option.some.inj (hm.symm.trans hm')
    rw [TypeName.qualify, hfree] at hname
    cases hname

/-- Any number of rounds only adds imports. -/
theorem widened_linkTimes (n : Nat) (c : Crate) : c.Widened (linkTimes n c) := by
  induction n generalizing c with
  | zero => exact widened_refl c
  | succ n ih =>
    unfold linkTimes
    split
    · exact widened_refl c
    · exact (widened_linkOnce c).trans (ih _)

/-- In a saturated crate a name is bound if it is at the end of some globs. -/
theorem Saturated.binds_of_offers (hc : c.Saturated) {k : Nat} (h : c.Offers k t) : c.Binds t := by
  induction h with
  | bound h => exact h
  | through step _ ih => exact hc _ _ step ih

/-- What is offered after a round was offered before it, at most one glob farther away. -/
theorem offers_linkOnce_iff {n : Nat} :
    (∃ k ≤ n, c.linkOnce.Offers k t) ↔ ∃ k ≤ n + 1, c.Offers k t := by
  constructor
  · rintro ⟨k, hk, h⟩
    suffices hoffers : ∃ j ≤ k + 1, c.Offers j t by
      obtain ⟨j, hj, h⟩ := hoffers
      exact ⟨j, by omega, h⟩
    clear hk
    -- what the round binds was one glob further away before it
    induction h with
    | bound h =>
      rcases binds_linkOnce_iff.1 h with h | ⟨u, hstep, h⟩
      · exact ⟨0, by omega, .bound h⟩
      · exact ⟨1, by omega, .through hstep (.bound h)⟩
    | through step _ ih =>
      obtain ⟨j, hj, h⟩ := ih
      exact ⟨j + 1, by omega, .through ((widened_linkOnce c).globStep_iff.1 step) h⟩
  · rintro ⟨k, hk, h⟩
    -- the round takes the last step of the way, into the module that binds the name
    induction h generalizing n with
    | bound h => exact ⟨0, by omega, .bound ((widened_linkOnce c).binds h)⟩
    | @through t u k step h ih =>
      cases n with
      | zero =>
        obtain rfl : k = 0 := by omega
        cases h with
        | bound h => exact ⟨0, Nat.le_refl _, .bound (binds_linkOnce_iff.2 (.inr ⟨u, step, h⟩))⟩
      | succ n =>
        obtain ⟨j, hj, h⟩ := ih (n := n) (by omega)
        exact ⟨j + 1, by omega, .through ((widened_linkOnce c).globStep_iff.2 step) h⟩

/-- After some rounds those names are bound that were bound at most as many globs away. -/
theorem binds_linkTimes_iff (n : Nat) (c : Crate) (t : TypeName) :
    (linkTimes n c).Binds t ↔ ∃ k ≤ n, c.Offers k t := by
  induction n generalizing c with
  | zero =>
    constructor
    · exact fun h => ⟨0, Nat.le_refl _, .bound h⟩
    · rintro ⟨k, hk, h⟩
      obtain rfl : k = 0 := by omega
      cases h with
      | bound h => exact h
  | succ n ih =>
    unfold linkTimes
    split
    · next hlinked =>
      refine ⟨fun h => ⟨0, by omega, .bound h⟩, ?_⟩
      rintro ⟨k, -, h⟩
      exact (isLinked_iff.1 hlinked).binds_of_offers h
    · rw [ih, offers_linkOnce_iff]

end Crate
end FieldBinder
