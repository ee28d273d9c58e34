import FieldBinder.Crate.Basic
import FieldBinder.Proofs.SortedMap

/-!
# Crates as they are built

A crate is built by registering files and linking globs, in any order and any number of times
(`BuildStep`, `Crate.build`).  However it was built, it is coherent (`Crate.coherent_build`): every
module stands under its own namespace, which is that of its scope, and what its scope declares is
what its items declare, since only imports are added after a module is registered.  So a name that
is declared is declared by an item (`Crate.Coherent.exists_item_of_lookup?`).
-/

namespace FieldBinder

/-! ### Scopes that only import -/

namespace Scope

/-- What one step keeps, any number of steps keep. -/
theorem foldl_kept {α : Type u} {β : Type v} {g : Scope → β} {f : Scope → α → Scope}
    (hf : ∀ s a, g (f s a) = g s) (l : List α) (s : Scope) : g (l.foldl f s) = g s := by
  induction l generalizing s with
  | nil => rfl
  | cons a r ih => rw [List.foldl_cons, ih, hf]

variable {β : Type v} {g : Scope → β}

/-- What does not depend on imports and globs, importing an item keeps. -/
theorem importItem_kept (hg : ∀ (s : Scope) imports globs, g { s with imports, globs } = g s)
    (s : Scope) (i : Item) : g (s.importItem i) = g s := by
  -- Both folds write `imports` or `globs` alone, which `g` does not see.
  have hname (leading : Bool) (s : Scope) (leaf : String × List String) :
      g (importName leading s leaf) = g s := by
    unfold importName
    split
    · exact hg s _ s.globs
    · rfl
  have hglob (leading : Bool) (s : Scope) (target : List String) :
      g (importGlob leading s target) = g s := by
    unfold importGlob
    split
    · exact hg s s.imports _
    · rfl
  cases i with
  | use leading tree => rw [importItem, foldl_kept (hglob leading), foldl_kept (hname leading)]
  | _ => rfl

/-- A module declares what its items declare, imports apart. -/
theorem declared_ofItems (home root : Namespace) (items : List Item) :
    (ofItems home root items).declared = .ofList (items.filterMap Item.declaration?) := by
  rw [ofItems, foldl_kept (g := declared) (importItem_kept fun _ _ _ => rfl)]

/-- A scope has the namespace that it was made for. -/
theorem home_ofItems (home root : Namespace) (items : List Item) :
    (ofItems home root items).home = home := by
  rw [ofItems, foldl_kept (g := Scope.home) (importItem_kept fun _ _ _ => rfl)]

end Scope

namespace Crate

/-- To accept an offer changes imports only. -/
theorem accept_kept {β : Type v} {g : Scope → β}
    (hg : ∀ (s : Scope) imports, g { s with imports } = g s) (s : Scope)
    (offer : String × List String) : g (accept s offer) = g s := by
  unfold accept
  split
  · rfl
  · exact hg s _

/-- The list of modules has each module under its namespace. -/
theorem mem_moduleList {c : Crate} {m : Module} :
    m ∈ c.moduleList ↔ ∃ home, c.module? home = some m :=
  SortedMap.mem_values_iff c.modules m

/-! ### Coherence -/

/-- Whether every module stands under its own namespace, which is that of its scope, and its scope
declares what its items declare. -/
def Coherent (c : Crate) : Prop :=
  ∀ home m, c.module? home = some m →
    m.home = home ∧ m.scope.home = home ∧
      m.scope.declared = .ofList (m.items.filterMap Item.declaration?)

theorem coherent_empty (root : Namespace) : (empty root).Coherent := by
  intro home m h
  cases h

namespace Coherent

variable {c : Crate}

/-- A module is stored under the namespace that it is made for. -/
theorem put (hc : c.Coherent) (file : FilePath) (home : Namespace) (items : List Item) :
    (c.put file home items).Coherent := by
  intro home' m h
  rw [module?, Crate.put, SortedMap.get?_insert] at h
  split at h
  · next heq =>
    cases h
    exact ⟨heq.symm, (Scope.home_ofItems home c.root items).trans heq.symm,
      Scope.declared_ofItems home c.root items⟩
  · exact hc home' m h

theorem putAll (hc : c.Coherent) (file : FilePath) (modules : List (Namespace × List Item)) :
    (c.putAll file modules).1.Coherent := by
  induction modules generalizing c with
  | nil => exact hc
  | cons m r ih =>
    unfold Crate.putAll
    split
    · exact hc
    · exact ih (hc.put file m.1 m.2)

theorem insert (hc : c.Coherent) (home : Namespace) (file : FilePath) (items : List Item) :
    (c.insert home file items).1.Coherent :=
  hc.putAll file _

/-- Linking changes no namespace. -/
theorem linkOnce (hc : c.Coherent) : c.linkOnce.Coherent := by
  intro home m h
  rw [module?, Crate.linkOnce, SortedMap.get?_mapValues, Option.map_eq_some_iff] at h
  obtain ⟨m, hm, rfl⟩ := h
  obtain ⟨hhome, hscope, hdeclared⟩ := hc home m hm
  have hkept {β : Type} {g : Scope → β} (hg : ∀ (s : Scope) imports, g { s with imports } = g s) :
      g ((c.globOffers m.scope).foldl accept m.scope) = g m.scope :=
    Scope.foldl_kept (accept_kept hg) _ _
  exact ⟨hhome, (hkept (g := Scope.home) fun _ _ => rfl).trans hscope,
    (hkept (g := Scope.declared) fun _ _ => rfl).trans hdeclared⟩

theorem linkTimes (hc : c.Coherent) (n : Nat) : (linkTimes n c).Coherent := by
  induction n generalizing c with
  | zero => exact hc
  | succ n ih =>
    unfold Crate.linkTimes
    split
    · exact hc
    · exact ih hc.linkOnce

theorem linkGlobs (hc : c.Coherent) : c.linkGlobs.Coherent :=
  hc.linkTimes hopLimit

/-- The modules are listed in ascending order of their namespaces. -/
theorem pairwise_home (hc : c.Coherent) :
    c.moduleList.Pairwise fun m m' => compare m.home m'.home = .lt := by
  rw [moduleList, SortedMap.values, List.pairwise_map]
  refine c.modules.sorted.imp_of_mem fun {e e'} he he' hlt => ?_
  have hhome := (hc e.1 e.2 ((SortedMap.mem_entries_iff _ _ _).1 he)).1
  have hhome' := (hc e'.1 e'.2 ((SortedMap.mem_entries_iff _ _ _).1 he')).1
  rwa [hhome, hhome']

/-- What is declared is declared by an item of its module. -/
theorem exists_item_of_lookup? (hc : c.Coherent) {t : TypeName} {kind : DeclKind}
    (h : c.lookup? t = some kind) :
    ∃ m ∈ c.moduleList, m.home = t.home ∧ ∃ i ∈ m.items, i.declaration? = some (t.name, kind) := by
  rw [lookup?, Option.bind_eq_some_iff] at h
  obtain ⟨m, hm, hget⟩ := h
  obtain ⟨hhome, -, hdeclared⟩ := hc t.home m hm
  rw [hdeclared] at hget
  have hmem : (t.name, kind) ∈ m.items.filterMap Item.declaration? :=
    SortedMap.mem_of_get?_ofList hget
  exact ⟨m, mem_moduleList.2 ⟨_, hm⟩, hhome, List.mem_filterMap.1 hmem⟩

end Coherent

end Crate

/-! ### Building -/

/-- A step in the building of a crate. -/
inductive BuildStep
  /-- Register a file and the modules inside it. -/
  | insert (home : Namespace) (file : FilePath) (items : List Item)
  /-- Bind the names behind globs. -/
  | linkGlobs

namespace Crate

/-- The crate after a step; a file of which a namespace is taken leaves what was registered
before. -/
def perform (c : Crate) : BuildStep → Crate
  | .insert home file items => (c.insert home file items).1
  | .linkGlobs => c.linkGlobs

/-- The crate that steps build. -/
def build (root : Namespace) (steps : List BuildStep) : Crate := steps.foldl perform (empty root)

/-- Every step of building keeps modules under their own namespaces. -/
theorem Coherent.perform {c : Crate} (hc : c.Coherent) (step : BuildStep) :
    (c.perform step).Coherent := by
  cases step with
  | insert home file items => exact hc.insert home file items
  | linkGlobs => exact hc.linkGlobs

/-- In a crate that is built every module is stored under its own namespace. -/
theorem coherent_build (root : Namespace) (steps : List BuildStep) :
    (build root steps).Coherent :=
  List.foldlRecOn _ _ (coherent_empty root) fun _ hc step _ => hc.perform step

/-! ### The root -/

/-- No module changes the root of a crate. -/
theorem root_putAll {c : Crate} (file : FilePath) (modules : List (Namespace × List Item)) :
    (c.putAll file modules).1.root = c.root := by
  induction modules generalizing c with
  | nil => rfl
  | cons x r ih =>
    unfold putAll
    split
    · rfl
    · exact ih

theorem root_linkTimes (n : Nat) (c : Crate) : (linkTimes n c).root = c.root := by
  induction n generalizing c with
  | zero => rfl
  | succ n ih =>
    unfold linkTimes
    split
    · rfl
    · exact ih _

/-- A crate keeps the root that it started with. -/
theorem root_build (root : Namespace) (steps : List BuildStep) :
    (build root steps).root = root := by
  refine List.foldlRecOn (motive := fun c : Crate => c.root = root) _ _ rfl fun c hc step _ => ?_
  cases step with
  | insert home file items => exact (root_putAll file _).trans hc
  | linkGlobs => exact (root_linkTimes _ _).trans hc

/-! ### Following names -/

/-- Names are followed to declarations. -/
theorem lookup?_of_follow {c : Crate} {n : Nat} {t u : TypeName} {kind : DeclKind}
    (h : c.follow n t = some (u, kind)) : c.lookup? u = some kind := by
  induction n generalizing t with
  | zero => cases h
  | succ n ih =>
    rw [follow] at h
    split at h
    · next hlookup =>
      cases h
      exact hlookup
    · rw [Option.bind_eq_some_iff] at h
      obtain ⟨t', -, h⟩ := h
      exact ih h

/-- Where imports lead in the end, something of the given kind is declared. -/
theorem lookup?_of_canonical? {c : Crate} {t u : TypeName} {kind : DeclKind}
    (h : c.canonical? t = some (u, kind)) : c.lookup? u = some kind :=
  lookup?_of_follow h

end Crate

end FieldBinder
