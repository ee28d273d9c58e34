import FieldBinder.Proofs.Crate.Files

/-!
# Names seen from inside and from outside

A name of a module is looked up in two ways: by resolving it inside the module, and by following its
qualified form from elsewhere.  The two lead to the same declaration unless the module declares the
name and imports it as well (`agrees_iff`): inside, the import counts then, and from outside the
declaration.
-/

namespace FieldBinder

namespace Scope

/-- A single name means the target of its import if it has one. -/
theorem resolve_ofIdent {name : String} (hname : name ∉ ["crate", "self", "super"]) (s : Scope) :
    s.resolve (.ofIdent name) =
      match TypeName.ofSegments? ((s.imports.get? name).getD
        ((if s.declared.contains name then s.home else .root).segments ++ [name])) with
      | some t => .ok t
      | none => .error (.outsideCrate (Path.ofIdent name).display) := by
  simp only [List.mem_cons, List.not_mem_nil, or_false, not_or] at hname
  obtain ⟨hcrate, hself, hsuper⟩ := hname
  -- An import of the name comes first, then a declaration, and otherwise it is left as it is.
  have habsolute : s.absolute? false [name] = some ((s.imports.get? name).getD
      ((if s.declared.contains name then s.home else .root).segments ++ [name])) := by
    simp only [absolute?, if_neg hcrate, if_neg hself, if_neg hsuper]
    cases s.imports.get? name with
    | some target => simp
    | none => cases s.declared.contains name <;> rfl
  have hplain : (Path.ofIdent name).isPlain = true := rfl
  have hleading : (Path.ofIdent name).isLeading = false := rfl
  have hidents : (Path.ofIdent name).idents = [name] := rfl
  rw [resolve, hplain, hleading, hidents, habsolute]
  rfl

end Scope

namespace Crate

variable {c : Crate}

/-! ### Following further -/

theorem follow_succ {n : Nat} {t : TypeName} {d : TypeName × DeclKind}
    (h : c.follow n t = some d) : c.follow (n + 1) t = some d := by
  induction n generalizing t with
  | zero => cases h
  | succ n ih =>
    rw [follow] at h ⊢
    split at h
    · exact h
    · rw [Option.bind_eq_some_iff] at h ⊢
      obtain ⟨u, hu, h⟩ := h
      exact ⟨u, hu, ih h⟩

theorem canonical?_of_lookup? {t : TypeName} {kind : DeclKind} (h : c.lookup? t = some kind) :
    c.canonical? t = some (t, kind) := by
  rw [canonical?, hopLimit, follow, h]

/-- What an import leads to, its target leads to. -/
theorem canonical?_of_importStep? {t u : TypeName} {d : TypeName × DeclKind}
    (hlookup : c.lookup? t = none) (hstep : c.importStep? t = some u)
    (h : c.canonical? t = some d) : c.canonical? u = some d := by
  rw [canonical?, hopLimit, follow, hlookup] at h
  simp only [hstep, Option.bind_some] at h
  exact follow_succ h

/-! ### Agreement -/

/-- Whether a name means inside a module what its qualified form leads to, if that leads to a
declaration. -/
def Agrees (c : Crate) (m : Module) (name : String) : Prop :=
  ∀ d, c.canonical? (.qualify m.home name) = some d →
    ∃ t, m.scope.resolve (.ofIdent name) = .ok t ∧ c.canonical? t = some d

/-- Inside a module of a crate of sources, a name means what its qualified form leads to, unless the
module declares the name and also imports it from somewhere that does not lead back to its own
declaration. -/
theorem agrees_iff {root : Namespace} {sources : List (FilePath × String)}
    (h : ofSources root sources = .ok c) {m : Module} (hm : m ∈ c.moduleList) {name : String}
    (hname : name ∉ ["crate", "self", "super"]) :
    c.Agrees m name ↔ ∀ kind target, m.scope.declared.get? name = some kind →
      m.scope.imports.get? name = some target →
      ∃ u, TypeName.ofSegments? target = some u ∧
        c.canonical? u = some (.qualify m.home name, kind) := by
  obtain ⟨home, hm⟩ := mem_moduleList.1 hm
  obtain ⟨rfl, hscope, -⟩ := coherent_ofSources h home m hm
  have hlookup : c.lookup? (.qualify m.home name) = m.scope.declared.get? name := by
    rw [lookup?, TypeName.qualify, hm, Option.bind_some]
  have hresolve := Scope.resolve_ofIdent hname m.scope
  rw [hscope, SortedMap.contains] at hresolve
  unfold Agrees
  cases hdeclared : m.scope.declared.get? name with
  | none =>
    refine iff_of_true (fun d hd => ?_) (fun kind target hkind => by cases hkind)
    have hstep : c.importStep? (.qualify m.home name) =
        (m.scope.imports.get? name).bind TypeName.ofSegments? := by
      rw [importStep?, TypeName.qualify, hm, Option.bind_some, SortedMap.contains, hdeclared]
      rfl
    -- what is not declared leads to a declaration through its import
    obtain ⟨u, hu⟩ : ∃ u, c.importStep? (.qualify m.home name) = some u := by
      rw [canonical?, hopLimit, follow, hlookup, hdeclared] at hd
      obtain ⟨u, hu, -⟩ := Option.bind_eq_some_iff.1 hd
      exact ⟨u, hu⟩
    refine ⟨u, ?_, canonical?_of_importStep? (hlookup.trans hdeclared) hu hd⟩
    rw [hstep] at hu
    obtain ⟨target, htarget, hu⟩ := Option.bind_eq_some_iff.1 hu
    rw [hresolve, htarget, Option.getD_some, hu]
  | some kind =>
    have hcanonical : c.canonical? (.qualify m.home name) = some (.qualify m.home name, kind) :=
      canonical?_of_lookup? (hlookup.trans hdeclared)
    rw [hdeclared] at hresolve
    cases himport : m.scope.imports.get? name with
    | none =>
      rw [himport, Option.getD_none, TypeName.ofSegments?_append] at hresolve
      exact iff_of_true (fun d hd => ⟨_, hresolve, hd⟩) fun _ _ _ htarget => by cases htarget
    | some target =>
      rw [himport, Option.getD_some] at hresolve
      constructor
      · rintro hagrees _ _ ⟨⟩ ⟨⟩
        obtain ⟨t, ht, hd⟩ := hagrees _ hcanonical
        rw [hresolve] at ht
        split at ht
        · next hu =>
          cases ht
          exact ⟨t, hu, hd⟩
        · cases ht
      · intro hleads d hd
        obtain ⟨u, hu, hcanonical'⟩ := hleads kind target rfl rfl
        rw [hcanonical, Option.some.injEq] at hd
        subst hd
        exact ⟨u, by rw [hresolve, hu], hcanonical'⟩

/-- A trait, and a module that imports it under another name. -/
def renamedSources : List (FilePath × String) :=
  [(⟨"lib.rs"⟩, "pub trait Country {} mod geo { pub use crate::Country as Land; }")]

theorem agrees_iff_renamedSources : ∃ c m, ofSources ⟨["crate"]⟩ renamedSources = .ok c ∧
    m ∈ c.moduleList ∧ "Land" ∉ ["crate", "self", "super"] ∧ c.Agrees m "Land" := by
  have hdeclared : (ofSources ⟨["crate"]⟩ renamedSources).toOption.bind (fun c =>
      (c.module? ⟨["crate", "geo"]⟩).map fun m => m.scope.declared.get? "Land") = some none := by
    decide +kernel
  cases hc : ofSources ⟨["crate"]⟩ renamedSources with
  | error fault =>
    rw [hc] at hdeclared
    cases hdeclared
  | ok c =>
    rw [hc] at hdeclared
    obtain ⟨m, hm, hnone⟩ := Option.map_eq_some_iff.1 hdeclared
    have hmem : m ∈ c.moduleList := mem_moduleList.2 ⟨_, hm⟩
    refine ⟨c, m, rfl, hmem, by decide, (agrees_iff hc hmem (by decide)).2 ?_⟩
    intro kind target hkind
    rw [hnone] at hkind
    cases hkind

/-- A trait, and a macro of the same name that its module imports. -/
def shadowedSources : List (FilePath × String) :=
  [(⟨"lib.rs"⟩, "use macros::Country; pub trait Country {}")]

theorem not_agrees_shadowedSources : ∃ c m, ofSources ⟨["crate"]⟩ shadowedSources = .ok c ∧
    m ∈ c.moduleList ∧ m.scope.binds "Country" = true ∧ ¬ c.Agrees m "Country" := by
  have houtside : (ofSources ⟨["crate"]⟩ shadowedSources).toOption.map (fun c =>
      c.canonical? ⟨⟨["crate"]⟩, "Country"⟩) =
      some (some (⟨⟨["crate"]⟩, "Country"⟩, .trait)) := by
    decide +kernel
  have hinside : (ofSources ⟨["crate"]⟩ shadowedSources).toOption.bind (fun c =>
      (c.module? ⟨["crate"]⟩).map fun m => (m.scope.binds "Country",
        (m.scope.resolve (.ofIdent "Country")).toOption.map c.canonical?)) =
      some (true, some none) := by
    decide +kernel
  cases hc : ofSources ⟨["crate"]⟩ shadowedSources with
  | error fault =>
    rw [hc] at hinside
    cases hinside
  | ok c =>
    rw [hc] at houtside hinside
    obtain ⟨m, hm, hm'⟩ := Option.map_eq_some_iff.1 hinside
    obtain ⟨hbinds, hresolve⟩ := Prod.ext_iff.1 hm'
    obtain ⟨hhome, -⟩ := coherent_ofSources hc _ m hm
    refine ⟨c, m, rfl, mem_moduleList.2 ⟨_, hm⟩, hbinds, fun hagrees => ?_⟩
    obtain ⟨t, ht, hd⟩ := hagrees _ (hhome ▸ Option.some.inj houtside)
    simp only [ht, Except.toOption, Option.map_some, hd] at hresolve
    cases hresolve

end Crate
end FieldBinder
