import FieldBinder.Proofs.Crate.Imports
import Mathlib.Data.List.Induction
import Mathlib.Data.List.Nodup

/-!
# The order of `use` items

The paths of a `use` item are read against the imports before it, so the order of the items counts
where a path starts with a name that another item imports.  It counts for nothing else: if such
names mean the same with the import as without it (`Scope.Settled`), then every item imports what it
imports by itself (`Scope.get?_foldl_importItem_iff`, `Scope.globs_foldl_importItem`).  For the
names this is the exact condition under which all orders agree (`Scope.ofItems_reordered_iff`).
-/

namespace FieldBinder

namespace Item

/-- The names that the paths of imported names start with. -/
def firstNames (i : Item) : List String :=
  i.bindings.filterMap fun leaf => firstName? i.isLeading leaf.2

/-- The names that the paths of globs start with. -/
def globFirstNames (i : Item) : List String := i.globPaths.filterMap (firstName? i.isLeading)

end Item

/-- Whether items are others in which the `use` items stand in another order. -/
structure Reordered (items items' : List Item) : Prop where
  perm : items.Perm items'
  others : items.filter (!·.isUse) = items'.filter (!·.isUse)

namespace Scope

/-- Whether the names that paths of items start with mean the same with the imports of any other of
the items as without them. -/
def Settled (s : Scope) (items : List Item) (names : Item → List String) : Prop :=
  ∀ i ∈ items, ∀ name ∈ names i, name ∉ i.boundNames → ∀ j ∈ items,
    ∀ target ∈ (s.importItem j).imports.get? name, target = s.meaning name

/-- Whether scopes of one module give the same meaning to names. -/
structure Alike (names : List String) (s s' : Scope) : Prop where
  home : s.home = s'.home
  root : s.root = s'.root
  declared : s.declared = s'.declared
  meaning : ∀ name ∈ names, s.meaning name = s'.meaning name

variable {s s' b : Scope} {names : List String}

/-! ### Scopes that are alike -/

/-- Scopes that are alike for a name read a path that begins with it in the same way. -/
theorem Alike.absolute? (h : Alike names s s') {leading : Bool} {path : List String}
    (hpath : ∀ name, firstName? leading path = some name → name ∈ names) :
    s.absolute? leading path = s'.absolute? leading path :=
  absolute?_congr h.home h.root fun name hname => h.meaning name (hpath name hname)

/-- Scopes that are alike stay alike when both import a name, and differ in no further name. -/
theorem Alike.importName (h : Alike names s s') {leading : Bool} {leaf : String × List String}
    (hleaf : ∀ name, firstName? leading leaf.2 = some name → name ∈ names) :
    Alike names (importName leading s leaf) (importName leading s' leaf) ∧
      ∀ name, s.imports.get? name = s'.imports.get? name →
        (Scope.importName leading s leaf).imports.get? name =
          (Scope.importName leading s' leaf).imports.get? name := by
  have hkept {β : Type} {g : Scope → β} (hg : ∀ (s : Scope) imports, g { s with imports } = g s)
      (heq : g s = g s') :
      g (Scope.importName leading s leaf) = g (Scope.importName leading s' leaf) := by
    rw [importName_kept hg, importName_kept hg, heq]
  have hread := h.absolute? hleaf
  constructor
  · refine ⟨hkept (fun _ _ => rfl) h.home, hkept (fun _ _ => rfl) h.root,
      hkept (fun _ _ => rfl) h.declared, ?_⟩
    intro name hname
    rw [meaning_importName, meaning_importName, hread, h.meaning name hname]
  · intro name hname
    rw [get?_importName, get?_importName, hread, hname]

/-- Leaves that begin with such names are imported alike. -/
theorem Alike.foldl_importName (h : Alike names s s') {leading : Bool}
    {l : List (String × List String)}
    (hl : ∀ leaf ∈ l, ∀ name, firstName? leading leaf.2 = some name → name ∈ names) :
    Alike names (l.foldl (Scope.importName leading) s) (l.foldl (Scope.importName leading) s') ∧
      ∀ name, s.imports.get? name = s'.imports.get? name →
        (l.foldl (Scope.importName leading) s).imports.get? name =
          (l.foldl (Scope.importName leading) s').imports.get? name := by
  induction l generalizing s s' with
  | nil => exact ⟨h, fun name hname => hname⟩
  | cons leaf r ih =>
    rw [List.forall_mem_cons] at hl
    obtain ⟨hstep, hsame⟩ := h.importName hl.1
    obtain ⟨hrest, hrestSame⟩ := ih hstep hl.2
    exact ⟨hrest, fun name hname => hrestSame name (hsame name hname)⟩

theorem Alike.bindings {i : Item} (h : Alike names s s')
    (hnames : ∀ name ∈ i.firstNames, name ∈ names) :
    Alike names (i.bindings.foldl (Scope.importName i.isLeading) s)
        (i.bindings.foldl (Scope.importName i.isLeading) s') ∧
      ∀ name, s.imports.get? name = s'.imports.get? name →
        (s.importItem i).imports.get? name = (s'.importItem i).imports.get? name := by
  rw [imports_importItem, imports_importItem]
  apply h.foldl_importName
  intro leaf hleaf name hname
  exact hnames name (List.mem_filterMap.2 ⟨leaf, hleaf, hname⟩)

/-! ### Items that are settled -/

theorem Settled.mono {items items' : List Item} {used : Item → List String}
    (h : b.Settled items used) (hitems : ∀ i ∈ items', i ∈ items) : b.Settled items' used := by
  intro i hi name hname hfree j hj
  exact h i (hitems i hi) name hname hfree j (hitems j hj)

/-- What an item adds to the imports is a name that it binds. -/
theorem mem_boundNames_of_get?_importItem {i : Item} {name : String} {target : List String}
    (hfree : s.imports.get? name = none) (h : (s.importItem i).imports.get? name = some target) :
    name ∈ i.boundNames := by
  by_contra hname
  rw [get?_importItem_of_not_mem hname, hfree] at h
  cases h

/-- Where no name is imported twice, the last item binds no name of an item before it. -/
theorem not_mem_boundNames_of_nodup {items : List Item} {i j : Item} {name : String}
    (hnodup : ((items ++ [i]).flatMap Item.boundNames).Nodup) (hj : j ∈ items)
    (hname : name ∈ j.boundNames) : name ∉ i.boundNames := by
  intro hbound
  rw [List.flatMap_append, List.flatMap_singleton, List.nodup_append] at hnodup
  exact hnodup.2.2 name (List.mem_flatMap.2 ⟨j, hj, hname⟩) name hbound rfl

/-- Behind settled items that import what they import by themselves, the names that one more item
starts its paths with mean what they mean before all imports. -/
theorem alike_foldl_importItem (hempty : b.imports = .empty) {items : List Item} {i : Item}
    (hnodup : ((items ++ [i]).flatMap Item.boundNames).Nodup) {used : Item → List String}
    (hsettled : b.Settled (items ++ [i]) used)
    (hitems : ∀ name target, (items.foldl importItem b).imports.get? name = some target ↔
      ∃ j ∈ items, (b.importItem j).imports.get? name = some target) :
    Alike (used i) (items.foldl importItem b) b := by
  have hhome : (items.foldl importItem b).home = b.home :=
    foldl_kept (importItem_kept fun _ _ _ => rfl) _ _
  have hdeclared : (items.foldl importItem b).declared = b.declared :=
    foldl_kept (importItem_kept fun _ _ _ => rfl) _ _
  refine ⟨hhome, foldl_kept (importItem_kept fun _ _ _ => rfl) _ _, hdeclared, ?_⟩
  intro name hname
  have hmem : i ∈ items ++ [i] := by simp
  have hfree : b.imports.get? name = none := by rw [hempty, SortedMap.get?_empty]
  cases himport : (items.foldl importItem b).imports.get? name with
  | none => rw [meaning, meaning, himport, hfree, hhome, hdeclared]
  | some target =>
    obtain ⟨j, hj, hown⟩ := (hitems name target).1 himport
    -- the item itself does not bind the name, since another one does
    have hother : name ∉ i.boundNames :=
      not_mem_boundNames_of_nodup hnodup hj (mem_boundNames_of_get?_importItem hfree hown)
    have htarget := hsettled i hmem name hname hother j (List.mem_append_left _ hj) target hown
    rw [meaning, himport, htarget, Option.getD_some]

/-- Settled items import the names that they import by themselves. -/
theorem get?_foldl_importItem_iff (hempty : b.imports = .empty) {items : List Item}
    (hnodup : (items.flatMap Item.boundNames).Nodup)
    (hsettled : b.Settled items Item.firstNames) (name : String) (target : List String) :
    (items.foldl importItem b).imports.get? name = some target ↔
      ∃ i ∈ items, (b.importItem i).imports.get? name = some target := by
  induction items using List.reverseRecOn generalizing name target with
  | nil => simp [hempty]
  | append_singleton r i ih =>
    have hr : b.Settled r Item.firstNames := hsettled.mono fun j hj => List.mem_append_left _ hj
    have hnodup' := hnodup
    rw [List.flatMap_append, List.nodup_append] at hnodup'
    have hbefore := ih hnodup'.1 hr
    -- the paths of the last item lead where they lead before all items
    have halike := alike_foldl_importItem hempty hnodup hsettled hbefore
    obtain ⟨-, hsame⟩ := halike.bindings fun name hname => hname
    have hfree : b.imports.get? name = none := by rw [hempty, SortedMap.get?_empty]
    rw [List.foldl_append, List.foldl_cons, List.foldl_nil]
    by_cases hname : name ∈ i.boundNames
    · -- a name of the last item is bound by no item before it
      have hnone : ∀ j ∈ r, name ∉ j.boundNames := fun j hj hbound =>
        not_mem_boundNames_of_nodup hnodup hj hbound hname
      have hnotR : name ∉ r.flatMap Item.boundNames := by
        rw [List.mem_flatMap]
        rintro ⟨j, hj, hbound⟩
        exact hnone j hj hbound
      rw [hsame name (get?_foldl_importItem_of_not_mem hnotR b)]
      constructor
      · intro h
        exact ⟨i, by simp, h⟩
      · rintro ⟨j, hj, h⟩
        rcases List.mem_append.1 hj with hj | hj
        · exact absurd (mem_boundNames_of_get?_importItem hfree h) (hnone j hj)
        · rwa [List.mem_singleton.1 hj] at h
    · rw [get?_importItem_of_not_mem hname, hbefore]
      constructor
      · rintro ⟨j, hj, h⟩
        exact ⟨j, List.mem_append_left _ hj, h⟩
      · rintro ⟨j, hj, h⟩
        rcases List.mem_append.1 hj with hj | hj
        · exact ⟨j, hj, h⟩
        · rw [List.mem_singleton.1 hj] at h
          exact absurd (mem_boundNames_of_get?_importItem hfree h) hname

/-- Settled items import the globs that they import by themselves. -/
theorem globs_foldl_importItem (hempty : b.imports = .empty) (hglobs : b.globs = [])
    {items : List Item} (hnodup : (items.flatMap Item.boundNames).Nodup)
    (hsettled : b.Settled items Item.firstNames)
    (hsettledGlobs : b.Settled items Item.globFirstNames) :
    (items.foldl importItem b).globs = items.flatMap fun i => (b.importItem i).globs := by
  induction items using List.reverseRecOn with
  | nil => exact hglobs
  | append_singleton r i ih =>
    have hmem : ∀ j ∈ r, j ∈ r ++ [i] := fun j hj => List.mem_append_left _ hj
    have hnodup' := hnodup
    rw [List.flatMap_append, List.nodup_append] at hnodup'
    have hbefore := get?_foldl_importItem_iff hempty hnodup'.1 (hsettled.mono hmem)
    have hnames := alike_foldl_importItem hempty hnodup hsettled hbefore
    have hpaths := alike_foldl_importItem hempty hnodup hsettledGlobs hbefore
    -- neither the names of the last item nor its glob paths depend on the items before it
    have halike : Alike (i.firstNames ++ i.globFirstNames) (r.foldl importItem b) b := by
      refine ⟨hnames.home, hnames.root, hnames.declared, ?_⟩
      intro name hname
      rcases List.mem_append.1 hname with hname | hname
      · exact hnames.meaning name hname
      · exact hpaths.meaning name hname
    obtain ⟨hread, -⟩ := halike.bindings fun name hname => List.mem_append_left _ hname
    rw [List.foldl_append, List.foldl_cons, List.foldl_nil, List.flatMap_append,
      ← ih hnodup'.1 (hsettled.mono hmem) (hsettledGlobs.mono hmem), List.flatMap_singleton,
      globs_importItem, globs_importItem, hglobs, List.nil_append]
    congr 1
    apply List.filterMap_congr
    intro path hpath
    apply hread.absolute?
    intro name hname
    exact List.mem_append_right _ (List.mem_filterMap.2 ⟨path, hpath, hname⟩)

/-! ### Orders of items -/

theorem declared_reordered {items items' : List Item} (h : Reordered items items') :
    items'.filterMap Item.declaration? = items.filterMap Item.declaration? := by
  have hothers (l : List Item) :
      l.filterMap Item.declaration? = (l.filter (!·.isUse)).filterMap Item.declaration? := by
    rw [List.filterMap_filter]
    apply List.filterMap_congr
    intro i _
    cases huse : i.isUse with
    | true => simp [Item.declaration?_of_isUse huse]
    | false => simp
  rw [hothers items, hothers items', h.others]

/-- Any two `use` items can be moved to the front, one before the other. -/
theorem exists_reordered_cons_cons {items : List Item} {i j : Item} (hi : i ∈ items)
    (hj : j ∈ items) (hne : i ≠ j) (hui : i.isUse = true) (huj : j.isUse = true) :
    ∃ r, Reordered items (i :: j :: r) ∧ Reordered items (j :: i :: r) := by
  obtain ⟨l₁, l₂, rfl⟩ := List.append_of_mem hi
  have hj' : j ∈ l₁ ++ l₂ := by
    rcases List.mem_append.1 hj with hj | hj
    · exact List.mem_append_left _ hj
    · rcases List.mem_cons.1 hj with hj | hj
      · exact absurd hj.symm hne
      · exact List.mem_append_right _ hj
  obtain ⟨m₁, m₂, hm⟩ := List.append_of_mem hj'
  have hperm : (l₁ ++ i :: l₂).Perm (i :: j :: (m₁ ++ m₂)) := by
    calc (l₁ ++ i :: l₂).Perm (i :: (l₁ ++ l₂)) := List.perm_middle
      _ = i :: (m₁ ++ j :: m₂) := by rw [hm]
      _ |>.Perm (i :: j :: (m₁ ++ m₂)) := List.perm_middle.cons i
  -- What is no import stays in its order: only the two imports are moved to the front.
  have hothers : (l₁ ++ i :: l₂).filter (!·.isUse) = (m₁ ++ m₂).filter (!·.isUse) := by
    have hdrop {l l' : List Item} {k : Item} (hk : k.isUse = true) :
        (l ++ k :: l').filter (!·.isUse) = (l ++ l').filter (!·.isUse) := by
      simp [hk]
    rw [hdrop hui, hm, hdrop huj]
  refine ⟨m₁ ++ m₂, ⟨hperm, ?_⟩, ⟨hperm.trans (List.Perm.swap j i _), ?_⟩⟩
  · simp [hothers, hui, huj]
  · simp [hothers, hui, huj]

/-- An item imports a name as its path goes on from what the first name means before the item. -/
theorem get?_importItem_of_mem {i : Item} {name first : String} {path : List String}
    (hnodup : i.boundNames.Nodup) (hmem : (name, path) ∈ i.bindings)
    (hfirst : firstName? i.isLeading path = some first) (hfree : first ∉ i.boundNames) :
    (s.importItem i).imports.get? name = some (s.meaning first ++ path.tail) := by
  obtain ⟨l₁, l₂, hl⟩ := List.append_of_mem hmem
  rw [Item.boundNames, hl, List.map_append, List.map_cons] at hnodup hfree
  rw [List.nodup_append, List.nodup_cons] at hnodup
  rw [List.mem_append, List.mem_cons, not_or, not_or] at hfree
  have hbefore : (l₁.foldl (Scope.importName i.isLeading) s).meaning first = s.meaning first := by
    rw [meaning, meaning, get?_foldl_importName_of_not_mem hfree.1,
      foldl_kept (g := Scope.home) (importName_kept (fun _ _ => rfl) i.isLeading),
      foldl_kept (g := Scope.declared) (importName_kept (fun _ _ => rfl) i.isLeading)]
  rw [imports_importItem, hl, List.foldl_append, List.foldl_cons,
    get?_foldl_importName_of_not_mem hnodup.2.1.1, get?_importName, if_pos rfl,
    absolute?_of_firstName? hfirst, Option.some_or, hbefore]

/-- If no order changes the imports, then the first names of all leaves are settled. -/
theorem settled_of_imports_reordered {home root : Namespace} {items : List Item}
    (hnodup : (items.flatMap Item.boundNames).Nodup)
    (h : ∀ items', Reordered items items' →
      (ofItems home root items').imports = (ofItems home root items).imports) :
    (ofDeclarations home root items).Settled items Item.firstNames := by
  intro i hi first hfirst hother j hj target htarget
  obtain ⟨⟨name, path⟩, hmem, hfirst⟩ := List.mem_filterMap.1 hfirst
  have hbound : first ∈ j.boundNames := mem_boundNames_of_get?_importItem rfl htarget
  have hne : i ≠ j := by
    rintro rfl
    exact hother hbound
  have huj : j.isUse = true := by
    obtain ⟨leaf, hleaf, -⟩ := List.mem_map.1 hbound
    exact Item.isUse_of_mem_bindings hleaf
  obtain ⟨r, hij, hji⟩ :=
    exists_reordered_cons_cons hi hj hne (Item.isUse_of_mem_bindings hmem) huj
  -- the name under which the item imports the path is bound nowhere else
  have hbind : name ∈ i.boundNames := List.mem_map.2 ⟨_, hmem, rfl⟩
  have hnodup' := (hij.perm.flatMap_right Item.boundNames).nodup_iff.1 hnodup
  rw [List.flatMap_cons, List.nodup_append] at hnodup'
  have hrest : name ∉ (j :: r).flatMap Item.boundNames := fun hmem =>
    hnodup'.2.2 name hbind name hmem rfl
  have hrest' : name ∉ r.flatMap Item.boundNames := fun hmem =>
    hrest (List.mem_flatMap.2 ((List.mem_flatMap.1 hmem).imp fun k hk =>
      ⟨List.mem_cons_of_mem _ hk.1, hk.2⟩))
  have hread (s : Scope) := get?_importItem_of_mem (s := s) hnodup'.1 hmem hfirst hother
  have hfirstOrder : (ofItems home root (i :: j :: r)).imports.get? name =
      some ((ofDeclarations home root items).meaning first ++ path.tail) := by
    rw [ofItems_eq, ofDeclarations, declared_reordered hij, List.foldl_cons,
      get?_foldl_importItem_of_not_mem hrest, hread]
    rfl
  have hsecondOrder : (ofItems home root (j :: i :: r)).imports.get? name =
      some (target ++ path.tail) := by
    rw [ofItems_eq, ofDeclarations, declared_reordered hji, List.foldl_cons, List.foldl_cons,
      get?_foldl_importItem_of_not_mem hrest', hread, meaning]
    rw [ofDeclarations] at htarget
    rw [htarget, Option.getD_some]
  rw [h _ hij, ← h _ hji, hsecondOrder, Option.some.injEq] at hfirstOrder
  exact List.append_cancel_right hfirstOrder

theorem resolve_congr {s s' : Scope} (hhome : s.home = s'.home) (hroot : s.root = s'.root)
    (hdeclared : s.declared = s'.declared) (himports : s.imports = s'.imports) (p : Path) :
    s.resolve p = s'.resolve p := by
  have hread : s.absolute? p.isLeading p.idents = s'.absolute? p.isLeading p.idents := by
    apply absolute?_congr hhome hroot
    intro name _
    rw [meaning, meaning, hhome, hdeclared, himports]
  rw [resolve, resolve, hread]

section

variable {home root : Namespace} {items items' : List Item}

/-- In another order, items import what they import after the same declarations. -/
theorem ofItems_of_reordered (h : Reordered items items') :
    ofItems home root items' = items'.foldl importItem (ofDeclarations home root items) := by
  rw [ofItems_eq, ofDeclarations, declared_reordered h]
  rfl

theorem nodup_boundNames_of_reordered (h : Reordered items items')
    (hnodup : (items.flatMap Item.boundNames).Nodup) :
    (items'.flatMap Item.boundNames).Nodup :=
  (h.perm.flatMap_right Item.boundNames).nodup_iff.1 hnodup

/-- Where the first names are settled, every order gives the same imports. -/
theorem imports_of_settled (h : Reordered items items')
    (hnodup : (items.flatMap Item.boundNames).Nodup)
    (hsettled : (ofDeclarations home root items).Settled items Item.firstNames) :
    (ofItems home root items').imports = (ofItems home root items).imports := by
  have hmem : ∀ i ∈ items', i ∈ items := fun i hi => h.perm.mem_iff.2 hi
  apply SortedMap.ext_get?
  intro name
  apply Option.ext
  intro target
  rw [ofItems_of_reordered h, ofItems_eq,
    get?_foldl_importItem_iff rfl (nodup_boundNames_of_reordered h hnodup) (hsettled.mono hmem),
    get?_foldl_importItem_iff rfl hnodup hsettled]
  simp only [h.perm.mem_iff]

/-- Where those of the globs are settled too, every order gives the same globs up to order. -/
theorem globs_of_settled (h : Reordered items items')
    (hnodup : (items.flatMap Item.boundNames).Nodup)
    (hsettled : (ofDeclarations home root items).Settled items Item.firstNames)
    (hsettledGlobs : (ofDeclarations home root items).Settled items Item.globFirstNames) :
    (ofItems home root items').globs.Perm (ofItems home root items).globs := by
  have hmem : ∀ i ∈ items', i ∈ items := fun i hi => h.perm.mem_iff.2 hi
  rw [ofItems_of_reordered h, ofItems_eq,
    globs_foldl_importItem rfl rfl (nodup_boundNames_of_reordered h hnodup) (hsettled.mono hmem)
      (hsettledGlobs.mono hmem),
    globs_foldl_importItem rfl rfl hnodup hsettled hsettledGlobs]
  exact (h.perm.flatMap_right _).symm

/-- Where no name is imported twice, a module declares the same names in all orders of its `use`
items.  It imports the same names in all orders exactly when no item has a path that starts with a
name which another item imports from elsewhere than the name stands for without the import.  Then
every path means the same type in all orders; and if no path of a glob starts with such a name
either, the globs are the same in all orders. -/
theorem ofItems_reordered_iff (hnodup : (items.flatMap Item.boundNames).Nodup) :
    let s := ofItems home root items
    let b := ofDeclarations home root items
    (∀ items', Reordered items items' → (ofItems home root items').declared = s.declared) ∧
    ((∀ items', Reordered items items' → (ofItems home root items').imports = s.imports) ↔
      b.Settled items Item.firstNames) ∧
    (b.Settled items Item.firstNames → ∀ items', Reordered items items' →
      (∀ p, (ofItems home root items').resolve p = s.resolve p) ∧
      (b.Settled items Item.globFirstNames → (ofItems home root items').globs.Perm s.globs)) := by
  intro s b
  have hdeclared (items' : List Item) (h : Reordered items items') :
      (ofItems home root items').declared = s.declared := by
    rw [declared_ofItems, declared_ofItems, declared_reordered h]
  refine ⟨hdeclared, ⟨settled_of_imports_reordered hnodup, ?_⟩, ?_⟩
  · intro hsettled items' h
    exact imports_of_settled h hnodup hsettled
  · intro hsettled items' h
    -- Importing changes imports and globs alone, so the other fields agree in any order.
    have hkept {β : Type} {g : Scope → β}
        (hg : ∀ (s : Scope) imports globs, g { s with imports, globs } = g s) :
        g (ofItems home root items') = g s := by
      rw [ofItems_of_reordered h, show s = items.foldl importItem b from rfl,
        foldl_kept (importItem_kept hg), foldl_kept (importItem_kept hg)]
    constructor
    · intro p
      exact resolve_congr (hkept fun _ _ _ => rfl) (hkept fun _ _ _ => rfl) (hdeclared items' h)
        (imports_of_settled h hnodup hsettled) p
    · exact globs_of_settled h hnodup hsettled

end

/-- Items of which one imports a crate by its own name, and others what is in it. -/
def serdeItems : List Item :=
  [.use false (.path "serde" (.name "Serialize")), .use false (.name "serde"),
    .use false (.path "crate" (.path "geo" (.group [.name "self", .name "Country"]))),
    .struct "Order" .unit, .use false (.path "serde" (.path "de" .glob))]

theorem ofItems_reordered_iff_serdeItems :
    (serdeItems.flatMap Item.boundNames).Nodup ∧ Reordered serdeItems serdeItems.reverse ∧
    (ofItems ⟨["crate"]⟩ ⟨["crate"]⟩ serdeItems.reverse).imports =
      (ofItems ⟨["crate"]⟩ ⟨["crate"]⟩ serdeItems).imports ∧
    (ofItems ⟨["crate"]⟩ ⟨["crate"]⟩ serdeItems.reverse).globs.Perm
      (ofItems ⟨["crate"]⟩ ⟨["crate"]⟩ serdeItems).globs := by
  have hnodup : (serdeItems.flatMap Item.boundNames).Nodup := by decide +kernel
  have horder : Reordered serdeItems serdeItems.reverse := ⟨(List.reverse_perm _).symm, rfl⟩
  have hsettled : (ofDeclarations ⟨["crate"]⟩ ⟨["crate"]⟩ serdeItems).Settled serdeItems
      Item.firstNames := by
    unfold Settled
    decide +kernel
  have hsettledGlobs : (ofDeclarations ⟨["crate"]⟩ ⟨["crate"]⟩ serdeItems).Settled serdeItems
      Item.globFirstNames := by
    unfold Settled
    decide +kernel
  obtain ⟨-, himports, hrest⟩ := ofItems_reordered_iff hnodup
  exact ⟨hnodup, horder, himports.2 hsettled _ horder, (hrest hsettled _ horder).2 hsettledGlobs⟩

/-- Items of which one imports a module, and another one what is in it. -/
def geoItems : List Item :=
  [.use false (.path "geo" (.name "Country")), .use false (.path "crate" (.name "geo"))]

theorem imports_ne_geoItems :
    (geoItems.flatMap Item.boundNames).Nodup ∧ Reordered geoItems geoItems.reverse ∧
    (ofItems ⟨["crate"]⟩ ⟨["crate"]⟩ geoItems).imports.get? "Country" = some ["geo", "Country"] ∧
    (ofItems ⟨["crate"]⟩ ⟨["crate"]⟩ geoItems.reverse).imports.get? "Country" =
      some ["crate", "geo", "Country"] := by
  refine ⟨?_, ⟨(List.reverse_perm _).symm, rfl⟩, ?_, ?_⟩
  all_goals decide +kernel

end Scope
end FieldBinder
