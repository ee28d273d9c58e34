import FieldBinder.Crate.Implementors
import FieldBinder.Proofs.Crate.Chains

/-!
# Names behind re-exported modules

A module that is imported under a name can be left out of a path that starts with the import
(`Scope.resolve_of_import`), so what it declares is found from inside the importing module.  From
elsewhere a qualified name is followed only where a module of the crate stands at all but its last
segment (`canonical?_eq_none_of_module?`): then an import of the name itself is followed, and one of
the module in front of it is not (`canonical?_reexport`).
-/

namespace FieldBinder

/-- A path that starts with an imported name goes on from the target of the import. -/
theorem Scope.resolve_of_import {s : Scope} {first : String} {target : List String}
    (himport : s.imports.get? first = some target) (hfirst : first ∉ ["crate", "self", "super"])
    {p : Path} (hplain : p.isPlain = true) (hleading : p.isLeading = false) {between : List String}
    {name : String} (hidents : p.idents = first :: between ++ [name]) :
    s.resolve p = .ok (.qualify ⟨target ++ between⟩ name) := by
  simp only [List.mem_cons, List.not_mem_nil, or_false, not_or] at hfirst
  obtain ⟨hcrate, hself, hsuper⟩ := hfirst
  have habsolute : s.absolute? false (first :: (between ++ [name])) =
      some (target ++ between ++ [name]) := by
    simp only [absolute?, if_neg hcrate, if_neg hself, if_neg hsuper, himport, List.append_assoc]
  rw [resolve, hplain, hleading, hidents, List.cons_append, habsolute, Option.bind_some,
    TypeName.ofSegments?_append]
  rfl

namespace Crate

variable {c : Crate}

/-- A name leads nowhere unless its namespace is that of a module. -/
theorem canonical?_eq_none_of_module? {t : TypeName} (h : c.module? t.home = none) :
    c.canonical? t = none := by
  rw [canonical?, hopLimit, follow, lookup?, importStep?, h]
  rfl

/-- An import of a name leads where the name leads, if fewer than `hopLimit` imports do. -/
theorem canonical?_of_import {m : Module} (hm : c.module? m.home = some m) {alias_ : String}
    {u d : TypeName} {kind : DeclKind} (hdeclared : m.scope.declared.get? alias_ = none)
    (himport : m.scope.imports.get? alias_ = some u.segments) {k : Nat} (hk : k + 1 < hopLimit)
    (hchain : c.ImportChain k u d) (hd : c.lookup? d = some kind) :
    c.canonical? (.qualify m.home alias_) = some (d, kind) := by
  have hstep : c.importStep? (.qualify m.home alias_) = some u := by
    rw [importStep?, TypeName.qualify, hm, Option.bind_some, SortedMap.contains, hdeclared,
      himport, Option.bind_some, TypeName.ofSegments?_segments]
    rfl
  exact canonical?_eq_some_iff.2 ⟨k + 1, hk, .cons hstep hchain, hd⟩

/-- What a module declares or imports, behind an import of the module under another name.  A path
in the importing module that starts with the import leads there, and an import of the name itself
leads there from everywhere.  The name that is qualified by the import leads nowhere, and is no base
of a directive, unless there is a module of its own in that place. -/
theorem canonical?_reexport {root : Namespace} {sources : List (FilePath × String)}
    (h : ofSources root sources = .ok c) {m : Module} {alias_ : String}
    (halias : alias_ ∉ ["crate", "self", "super"]) {target : Namespace}
    (himport : m.scope.imports.get? alias_ = some target.segments)
    {between : List String} {name : String} {d : TypeName} {kind : DeclKind}
    (hd : c.canonical? (.qualify ⟨target.segments ++ between⟩ name) = some (d, kind)) :
    -- from inside
    (∀ p : Path, p.isPlain = true → p.isLeading = false → p.idents = alias_ :: between ++ [name] →
      ∃ t, m.scope.resolve p = .ok t ∧ c.canonical? t = some (d, kind)) ∧
    -- an import of the name
    (∀ m' ∈ c.moduleList, ∀ other, m'.scope.declared.get? other = none →
      m'.scope.imports.get? other = some (target.segments ++ between ++ [name]) →
      c.follow (hopLimit - 1) (.qualify ⟨target.segments ++ between⟩ name) = some (d, kind) →
      c.canonical? (.qualify m'.home other) = some (d, kind)) ∧
    -- an import of the module
    (c.module? ⟨m.home.segments ++ alias_ :: between⟩ = none →
      c.canonical? (.qualify ⟨m.home.segments ++ alias_ :: between⟩ name) = none ∧
      ∀ registry : Implementors,
        registry.resolve c (.qualify ⟨m.home.segments ++ alias_ :: between⟩ name) =
          .error (.unknown (.qualify ⟨m.home.segments ++ alias_ :: between⟩ name))) := by
  refine ⟨?_, ?_, ?_⟩
  · intro p hplain hleading hidents
    exact ⟨_, Scope.resolve_of_import himport halias hplain hleading hidents, hd⟩
  · intro m' hm' other hdeclared himport' hfollow
    obtain ⟨home, hm'⟩ := mem_moduleList.1 hm'
    obtain ⟨rfl, -, -⟩ := coherent_ofSources h home m' hm'
    obtain ⟨k, hk, hchain, hlookup⟩ := follow_eq_some_iff.1 hfollow
    apply canonical?_of_import (u := .qualify ⟨target.segments ++ between⟩ name) hm' hdeclared
      himport' ?_ hchain hlookup
    omega
  · intro hmodule
    have hnone := canonical?_eq_none_of_module?
      (t := .qualify ⟨m.home.segments ++ alias_ :: between⟩ name) hmodule
    refine ⟨hnone, ?_⟩
    intro registry
    rw [Implementors.resolve, hnone]

/-- A crate whose root imports a module with a trait from where it is implemented. -/
def facadeSources : List (FilePath × String) :=
  [(⟨"lib.rs"⟩, "pub use imp::geo; pub mod imp { pub mod geo { pub trait Country {} } }")]

/-- The trait is found through the import from inside the root. -/
theorem canonical?_reexport_facadeSources : ∃ c m t,
    ofSources ⟨["crate"]⟩ facadeSources = .ok c ∧ m ∈ c.moduleList ∧
    m.scope.imports.get? "geo" = some ["crate", "imp", "geo"] ∧
    m.scope.resolve (.mk false [.mk "geo" .none, .mk "Country" .none]) = .ok t ∧
    c.canonical? t = some (⟨⟨["crate", "imp", "geo"]⟩, "Country"⟩, .trait) := by
  have hread : (ofSources ⟨["crate"]⟩ facadeSources).toOption.bind (fun c =>
      (c.module? ⟨["crate"]⟩).map fun m => (m.scope.imports.get? "geo",
        c.canonical? ⟨⟨["crate", "imp", "geo"]⟩, "Country"⟩)) =
      some (some ["crate", "imp", "geo"],
        some (⟨⟨["crate", "imp", "geo"]⟩, "Country"⟩, .trait)) := by
    decide +kernel
  cases hc : ofSources ⟨["crate"]⟩ facadeSources with
  | error fault =>
    rw [hc] at hread
    cases hread
  | ok c =>
    rw [hc] at hread
    obtain ⟨m, hm, hread⟩ := Option.map_eq_some_iff.1 hread
    obtain ⟨himport, hd⟩ := Prod.ext_iff.1 hread
    have hmem : m ∈ c.moduleList := mem_moduleList.2 ⟨_, hm⟩
    have htarget : m.scope.imports.get? "geo" =
        some (Namespace.mk ["crate", "imp", "geo"]).segments :=
      himport
    have hcountry : c.canonical?
        (.qualify ⟨(Namespace.mk ["crate", "imp", "geo"]).segments ++ []⟩ "Country") =
        some (⟨⟨["crate", "imp", "geo"]⟩, "Country"⟩, .trait) := hd
    obtain ⟨hinside, -, -⟩ := canonical?_reexport hc (by decide) htarget hcountry
    obtain ⟨t, ht, hd⟩ := hinside (.mk false [.mk "geo" .none, .mk "Country" .none]) rfl rfl rfl
    exact ⟨c, m, t, rfl, hmem, himport, ht, hd⟩

/-- The trait is not found through the import from outside. -/
theorem canonical?_eq_none_facadeSources : ∃ c m,
    ofSources ⟨["crate"]⟩ facadeSources = .ok c ∧ m ∈ c.moduleList ∧
    m.scope.imports.get? "geo" = some ["crate", "imp", "geo"] ∧
    (c.module? ⟨["crate", "imp", "geo"]⟩).isSome = true ∧
    m.scope.declared.get? "geo" = none ∧ c.module? (m.home.child "geo") = none ∧
    c.canonical? (.qualify ⟨["crate", "imp", "geo"]⟩ "Country") =
      some (⟨⟨["crate", "imp", "geo"]⟩, "Country"⟩, .trait) ∧
    c.canonical? (.qualify (m.home.child "geo") "Country") = none := by
  have hscope : (ofSources ⟨["crate"]⟩ facadeSources).toOption.bind (fun c =>
      (c.module? ⟨["crate"]⟩).map fun m => (m.scope.imports.get? "geo",
        (c.module? ⟨["crate", "imp", "geo"]⟩).isSome, m.scope.declared.get? "geo",
        (c.module? (m.home.child "geo")).isNone)) =
      some (some ["crate", "imp", "geo"], true, none, true) := by
    decide +kernel
  have hcanonical : (ofSources ⟨["crate"]⟩ facadeSources).toOption.map (fun c =>
      c.canonical? (.qualify ⟨["crate", "imp", "geo"]⟩ "Country")) =
      some (some (⟨⟨["crate", "imp", "geo"]⟩, "Country"⟩, .trait)) := by
    decide +kernel
  cases hc : ofSources ⟨["crate"]⟩ facadeSources with
  | error fault =>
    rw [hc] at hscope
    cases hscope
  | ok c =>
    rw [hc] at hscope hcanonical
    obtain ⟨m, hm, hscope⟩ := Option.map_eq_some_iff.1 hscope
    simp only [Prod.mk.injEq, Option.isNone_iff_eq_none] at hscope
    obtain ⟨himport, hmodule, hdeclared, hnone⟩ := hscope
    exact ⟨c, m, rfl, mem_moduleList.2 ⟨_, hm⟩, himport, hmodule, hdeclared, hnone,
      Option.some.inj hcanonical, canonical?_eq_none_of_module? hnone⟩

end Crate
end FieldBinder
