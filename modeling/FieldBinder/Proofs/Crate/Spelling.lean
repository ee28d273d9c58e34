import FieldBinder.Proofs.Crate.Files
import FieldBinder.Proofs.Crate.Globs
import FieldBinder.Proofs.FileTree.FilePath
import FieldBinder.Proofs.Grammar.Items
import FieldBinder.Proofs.Text.Line

/-!
# The names in a crate

The names that a crate of sources holds are spelled as those of its root, of the paths of its
sources and of the texts (`Crate.spelled_ofSources`): whatever holds of these holds of all names in
its scopes, and so of the types that paths mean there (`Scope.Spelled.resolve`).
-/

namespace FieldBinder

variable {P : String → Prop}

/-! ### Scopes -/

/-- Whether all names in a scope have a property. -/
structure Scope.Spelled (P : String → Prop) (s : Scope) : Prop where
  home : ∀ w ∈ s.home.segments, P w
  root : ∀ w ∈ s.root.segments, P w
  declared : ∀ w kind, s.declared.get? w = some kind → P w
  imports : ∀ w target, s.imports.get? w = some target → P w ∧ ∀ v ∈ target, P v
  globs : ∀ target ∈ s.globs, ∀ w ∈ target, P w

/-- Whether all names of a type have a property. -/
def TypeName.Spelled (P : String → Prop) (t : TypeName) : Prop := ∀ w ∈ t.segments, P w

/-- Whether all names in a leaf of a `use` tree have a property. -/
def UseLeaf.Spelled (P : String → Prop) : UseLeaf → Prop
  | .binding name target => P name ∧ ∀ w ∈ target, P w
  | .glob target => ∀ w ∈ target, P w

mutual

/-- The leaves of a tree are made of its names and of the words in front. -/
theorem UseTree.spelled_leaves (hP : ∀ w, IsNameText w → P w) : ∀ {t : UseTree}
    {before : List String}, t.Sound → (∀ w ∈ before, P w) → ∀ l ∈ t.leaves before, l.Spelled P
  | .path ident tree, before, ht, hbefore => by
    rw [UseTree.Sound] at ht
    rw [UseTree.leaves]
    refine UseTree.spelled_leaves hP ht.2 (List.forall_mem_append.2 ⟨hbefore, ?_⟩)
    simpa using hP ident ht.1
  | .name ident, before, ht, hbefore => by
    rw [UseTree.Sound] at ht
    rw [UseTree.leaves]
    split
    · -- A last `self` takes its name from the path in front of it.
      intro l hl
      obtain ⟨name, hname, rfl⟩ := Option.map_eq_some_iff.1 (Option.mem_toList.1 hl)
      exact ⟨hbefore name (List.mem_of_getLast? hname), hbefore⟩
    · rw [List.forall_mem_singleton]
      exact ⟨hP ident ht, List.forall_mem_append.2 ⟨hbefore, by simpa using hP ident ht⟩⟩
  | .rename ident alias_, before, ht, hbefore => by
    rw [UseTree.Sound] at ht
    rw [UseTree.leaves]
    split
    · simp
    split
    · rw [List.forall_mem_singleton]
      exact ⟨hP alias_ ht.2, hbefore⟩
    · rw [List.forall_mem_singleton]
      exact ⟨hP alias_ ht.2, List.forall_mem_append.2 ⟨hbefore, by simpa using hP ident ht.1⟩⟩
  | .glob, before, _, hbefore => by
    rw [UseTree.leaves, List.forall_mem_singleton]
    exact hbefore
  | .group trees, before, ht, hbefore => by
    rw [UseTree.Sound] at ht
    rw [UseTree.leaves]
    exact UseTree.spelled_leavesList hP ht hbefore

theorem UseTree.spelled_leavesList (hP : ∀ w, IsNameText w → P w) : ∀ {ts : List UseTree}
    {before : List String}, UseTree.SoundList ts → (∀ w ∈ before, P w) →
    ∀ l ∈ UseTree.leavesList before ts, l.Spelled P
  | [], _, _, _ => by simp [UseTree.leavesList]
  | t :: r, _, hts, hbefore => by
    rw [UseTree.SoundList] at hts
    rw [UseTree.leavesList]
    exact List.forall_mem_append.2
      ⟨UseTree.spelled_leaves hP hts.1 hbefore, UseTree.spelled_leavesList hP hts.2 hbefore⟩

end

namespace Scope.Spelled

variable {s : Scope}

/-- To climb by `super` takes words off the end of a namespace. -/
theorem climb {root base : Namespace} {l : List String} {segments : List String}
    (hbase : ∀ w ∈ base.segments, P w) (hsegments : ∀ w ∈ segments, P w)
    (h : Scope.climb root base segments = some l) : ∀ w ∈ l, P w := by
  induction segments generalizing base with
  | nil =>
    cases h
    exact hbase
  | cons first r ih =>
    rw [Scope.climb] at h
    split at h
    · split at h
      · cases h
      · exact ih (fun w hw => hbase w (List.dropLast_subset _ hw))
          (fun w hw => hsegments w (List.mem_cons_of_mem _ hw)) h
    · cases h
      exact List.forall_mem_append.2 ⟨hbase, hsegments⟩

/-- A path leads to a target of words that the scope or the path has. -/
theorem absolute? (hs : s.Spelled P) {leading : Bool} {segments l : List String}
    (hsegments : ∀ w ∈ segments, P w) (h : s.absolute? leading segments = some l) :
    ∀ w ∈ l, P w := by
  unfold Scope.absolute? at h
  split at h
  · cases h
    exact hsegments
  · cases h
    exact hsegments
  · next first r =>
    have hr : ∀ w ∈ r, P w := fun w hw => hsegments w (List.mem_cons_of_mem _ hw)
    split at h
    · cases h
      exact List.forall_mem_append.2 ⟨hs.root, hr⟩
    split at h
    · cases h
      exact List.forall_mem_append.2 ⟨hs.home, hr⟩
    split at h
    · -- `super` climbs from the place, and what it leaves is part of both.
      exact climb hs.home hsegments h
    split at h
    · next target htarget =>
      cases h
      exact List.forall_mem_append.2 ⟨(hs.imports _ _ htarget).2, hr⟩
    split at h
    · cases h
      exact List.forall_mem_append.2 ⟨hs.home, hsegments⟩
    · cases h
      exact hsegments

/-- The type that a path means has names of the scope and of the path. -/
theorem resolve (hs : s.Spelled P) {p : Path} (hp : ∀ w ∈ p.idents, P w) {t : TypeName}
    (h : s.resolve p = .ok t) : t.Spelled P := by
  unfold Scope.resolve at h
  split at h
  · cases h
  split at h
  · next t' ht =>
    cases h
    obtain ⟨l, hl, ht⟩ := Option.bind_eq_some_iff.1 ht
    rw [TypeName.Spelled, TypeName.segments_of_ofSegments? ht]
    exact hs.absolute? hp hl
  · cases h

/-- A leaf adds its words to a scope. -/
theorem importName (hs : s.Spelled P) (leading : Bool) {leaf : String × List String}
    (hleaf : P leaf.1 ∧ ∀ w ∈ leaf.2, P w) : (Scope.importName leading s leaf).Spelled P := by
  unfold Scope.importName
  split
  · next target htarget =>
    refine { hs with imports := fun w v hv => ?_ }
    rw [SortedMap.get?_insert] at hv
    split at hv
    · next heq =>
      cases hv
      exact ⟨heq ▸ hleaf.1, hs.absolute? hleaf.2 htarget⟩
    · exact hs.imports w v hv
  · exact hs

/-- A glob adds the words of its path to a scope. -/
theorem importGlob (hs : s.Spelled P) (leading : Bool) {target : List String}
    (htarget : ∀ w ∈ target, P w) : (Scope.importGlob leading s target).Spelled P := by
  unfold Scope.importGlob
  split
  · next l hl =>
    refine { hs with globs := fun v hv => ?_ }
    rcases List.mem_append.1 hv with hv | hv
    · exact hs.globs v hv
    · rw [List.mem_singleton.1 hv]
      exact hs.absolute? htarget hl
  · exact hs

/-- An item that is read adds names to a scope. -/
theorem importItem (hP : ∀ w, IsNameText w → P w) (hs : s.Spelled P) {i : Item} (hi : i.Sound) :
    (s.importItem i).Spelled P := by
  cases i with
  | use leading tree =>
    have hleaves : ∀ l ∈ tree.leaves [], l.Spelled P := UseTree.spelled_leaves hP hi (by simp)
    -- The names are imported first, then the globs; each leaf is spelled with words of the tree.
    have hnames : ((tree.leaves []).filterMap UseLeaf.binding?).foldl (Scope.importName leading) s
        |>.Spelled P := by
      refine List.foldlRecOn _ _ hs fun s hs leaf hleaf => hs.importName leading ?_
      obtain ⟨l, hl, hbinding⟩ := List.mem_filterMap.1 hleaf
      cases l with
      | glob target => cases hbinding
      | binding name target =>
        cases hbinding
        exact hleaves _ hl
    refine List.foldlRecOn _ _ hnames fun s hs target htarget => hs.importGlob leading ?_
    obtain ⟨l, hl, hglob⟩ := List.mem_filterMap.1 htarget
    cases l with
    | binding name target => cases hglob
    | glob target =>
      cases hglob
      exact hleaves _ hl
  | _ => exact hs

end Scope.Spelled

/-- An item that is read declares a name. -/
theorem Item.Sound.isNameText_of_declaration? {i : Item} (hi : i.Sound) {name : String}
    {kind : DeclKind} (h : i.declaration? = some (name, kind)) : IsNameText name := by
  cases i with
  | struct ident fields =>
    cases h
    exact hi.1
  | mod ident items =>
    cases h
    cases items with
    | none => exact hi
    | some items => exact hi.1
  | enum ident | union ident | trait ident bounds | typeAlias ident =>
    cases h
    exact hi
  | _ => cases h

/-- A scope has the words of its namespace and its root, and names. -/
theorem Scope.spelled_ofItems (hP : ∀ w, IsNameText w → P w) {home root : Namespace}
    {items : List Item} (hhome : ∀ w ∈ home.segments, P w) (hroot : ∀ w ∈ root.segments, P w)
    (hitems : ∀ i ∈ items, i.Sound) : (Scope.ofItems home root items).Spelled P := by
  refine List.foldlRecOn _ _ ?_ fun s hs i hi => hs.importItem hP (hitems i hi)
  refine ⟨hhome, hroot, fun w kind hw => ?_, fun w target hw => ?_, by simp⟩
  · obtain ⟨i, hi, hdeclaration⟩ := List.mem_filterMap.1 (SortedMap.mem_of_get?_ofList hw)
    exact hP w ((hitems i hi).isNameText_of_declaration? hdeclaration)
  · cases hw

namespace Crate

/-! ### Modules -/

/-- Whether a module lies below a root, its items are sound, and all names in its scope have a
property. -/
structure SpelledModule (P : String → Prop) (root : Namespace) (m : Module) : Prop where
  below : root.segments <+: m.home.segments
  items : ∀ i ∈ m.items, i.Sound
  scope : m.scope.Spelled P

/-- Whether all modules of a crate are of this kind. -/
structure Spelled (P : String → Prop) (c : Crate) : Prop where
  root : ∀ w ∈ c.root.segments, P w
  modules : ∀ home m, c.module? home = some m → SpelledModule P c.root m

mutual

/-- The modules inside an item lie below its module, have sound items, and are named by words. -/
theorem spelled_inlineModulesOf (hP : ∀ w, IsNameText w → P w) : ∀ {home : Namespace} {i : Item},
    (∀ w ∈ home.segments, P w) → i.Sound →
    ∀ x ∈ inlineModulesOf home i, home.segments <+: x.1.segments ∧ (∀ w ∈ x.1.segments, P w) ∧
      ∀ j ∈ x.2, j.Sound
  | home, .mod name (some items), hhome, hi => by
    rw [Item.Sound] at hi
    have hchild : ∀ w ∈ (home.child name).segments, P w :=
      List.forall_mem_append.2 ⟨hhome, by simpa using hP name hi.1⟩
    have hbelow : home.segments <+: (home.child name).segments := List.prefix_append ..
    rw [inlineModulesOf, List.forall_mem_cons]
    refine ⟨⟨hbelow, hchild, Item.soundList_iff.1 hi.2⟩, fun x hx => ?_⟩
    obtain ⟨hinside, hrest⟩ := spelled_inlineModules hP hchild hi.2 x hx
    exact ⟨hbelow.trans hinside, hrest⟩
  | _, .mod _ none, _, _ | _, .use _ _, _, _ | _, .struct _ _, _, _ | _, .enum _, _, _
  | _, .union _, _, _ | _, .trait _ _, _, _ | _, .typeAlias _, _, _ | _, .impl _ _ _ _, _, _
  | _, .verbatim, _, _ | _, .other, _, _ => by simp [inlineModulesOf]

/-- The modules inside of a file are below it, by the names of their blocks. -/
theorem spelled_inlineModules (hP : ∀ w, IsNameText w → P w) : ∀ {home : Namespace}
    {items : List Item}, (∀ w ∈ home.segments, P w) → Item.SoundList items →
    ∀ x ∈ inlineModules home items, home.segments <+: x.1.segments ∧ (∀ w ∈ x.1.segments, P w) ∧
      ∀ j ∈ x.2, j.Sound
  | _, [], _, _ => by simp [inlineModules]
  | _, i :: r, hhome, hitems => by
    rw [Item.SoundList] at hitems
    rw [inlineModules]
    exact List.forall_mem_append.2
      ⟨spelled_inlineModulesOf hP hhome hitems.1, spelled_inlineModules hP hhome hitems.2⟩

end

namespace Spelled

variable {c : Crate}

/-- A module whose words are right can be stored. -/
theorem put (hP : ∀ w, IsNameText w → P w) (hc : c.Spelled P) (file : FilePath) {home : Namespace}
    {items : List Item} (hbelow : c.root.segments <+: home.segments)
    (hhome : ∀ w ∈ home.segments, P w) (hitems : ∀ i ∈ items, i.Sound) :
    (c.put file home items).Spelled P := by
  refine ⟨hc.root, fun home' m hm => ?_⟩
  rw [module?, Crate.put, SortedMap.get?_insert] at hm
  split at hm
  · cases hm
    exact ⟨hbelow, hitems, Scope.spelled_ofItems hP hhome hc.root hitems⟩
  · exact hc.modules home' m hm

/-- So can any number of modules. -/
theorem putAll (hP : ∀ w, IsNameText w → P w) (hc : c.Spelled P) (file : FilePath)
    {modules : List (Namespace × List Item)} (h : ∀ x ∈ modules, c.root.segments <+: x.1.segments ∧
      (∀ w ∈ x.1.segments, P w) ∧ ∀ i ∈ x.2, i.Sound) :
    (c.putAll file modules).1.Spelled P := by
  induction modules generalizing c with
  | nil => exact hc
  | cons x r ih =>
    obtain ⟨⟨hbelow, hhome, hitems⟩, hr⟩ := List.forall_mem_cons.1 h
    unfold Crate.putAll
    split
    · exact hc
    · exact ih (hc.put hP file hbelow hhome hitems) hr

/-- A file adds the words of its place and the names in it. -/
theorem insertFile (hP : ∀ w, IsNameText w → P w) (hc : c.Spelled P) {f : SourceFile} {c' : Crate}
    (hf : ∀ w ∈ moduleSegments f.relative, P w) (h : c.insertFile f = .ok c') : c'.Spelled P := by
  unfold Crate.insertFile at h
  split at h
  · cases h
  split at h
  · cases h
  next items hitems =>
  split at h
  · next c₁ heq =>
    cases h
    have hfile : ∀ w ∈ c.root.segments ++ moduleSegments f.relative, P w :=
      List.forall_mem_append.2 ⟨hc.root, hf⟩
    have hsound := Item.sound_of_parseFile? hitems
    -- A module inside the file lies below the file's own place, so it is spelled like it.
    have hbelow : c.root.segments <+: c.root.segments ++ moduleSegments f.relative :=
      List.prefix_append ..
    rw [show c' = (c.insert ⟨c.root.segments ++ moduleSegments f.relative⟩ f.path items).1 by
      rw [heq]]
    refine hc.putAll hP f.path ?_
    rw [List.forall_mem_cons]
    refine ⟨⟨hbelow, hfile, hsound⟩, fun x hx => ?_⟩
    obtain ⟨hinside, hrest⟩ := spelled_inlineModules hP hfile (Item.soundList_iff.2 hsound) x hx
    exact ⟨hbelow.trans hinside, hrest⟩
  · cases h

/-- Globs bind words that are there already. -/
theorem linkOnce (hc : c.Spelled P) : c.linkOnce.Spelled P := by
  refine ⟨hc.root, fun home m hm => ?_⟩
  rw [module?, Crate.linkOnce, SortedMap.get?_mapValues, Option.map_eq_some_iff] at hm
  obtain ⟨m, hm, rfl⟩ := hm
  have hmodule := hc.modules home m hm
  refine ⟨hmodule.below, hmodule.items, ?_⟩
  -- each offer binds a name that the module behind its glob binds
  refine List.foldlRecOn _ _ hmodule.scope fun s hs offer hoffer => ?_
  obtain ⟨name, target⟩ := offer
  obtain ⟨-, g, hg, rfl, m', hm', hbinds⟩ := mem_globOffers.1 hoffer
  have hname : P name := by
    have hscope := (hc.modules _ m' hm').scope
    rw [Scope.binds, Bool.or_eq_true, SortedMap.contains, SortedMap.contains,
      Option.isSome_iff_exists, Option.isSome_iff_exists] at hbinds
    rcases hbinds with ⟨kind, hkind⟩ | ⟨target, htarget⟩
    · exact hscope.declared _ _ hkind
    · exact (hscope.imports _ _ htarget).1
  unfold accept
  split
  · exact hs
  · refine { hs with imports := fun w v hv => ?_ }
    rw [SortedMap.get?_insert] at hv
    split at hv
    · next heq =>
      cases hv
      refine ⟨heq ▸ hname, List.forall_mem_append.2 ⟨hmodule.scope.globs g hg, ?_⟩⟩
      simpa using hname
    · exact hs.imports w v hv

theorem linkTimes (hc : c.Spelled P) (n : Nat) : (linkTimes n c).Spelled P := by
  induction n generalizing c with
  | zero => exact hc
  | succ n ih =>
    unfold Crate.linkTimes
    split
    · exact hc
    · exact ih hc.linkOnce

end Spelled

/-- A crate of files has the words of its root, of the places of the files, and names. -/
theorem spelled_ofFiles (hP : ∀ w, IsNameText w → P w) {root : Namespace} {files : List SourceFile}
    {c : Crate} (hroot : ∀ w ∈ root.segments, P w)
    (hfiles : ∀ f ∈ files, ∀ w ∈ moduleSegments f.relative, P w)
    (h : ofFiles root files = .ok c) : c.Spelled P := by
  -- the induction is on the files, each of which is inserted into what is spelled already
  have hinsert {files : List SourceFile} {c₁ c₂ : Crate} (hc₁ : c₁.Spelled P)
      (hfiles : ∀ f ∈ files, ∀ w ∈ moduleSegments f.relative, P w)
      (h : files.foldlM Crate.insertFile c₁ = .ok c₂) : c₂.Spelled P := by
    induction files generalizing c₁ with
    | nil =>
      cases h
      exact hc₁
    | cons f r ih =>
      rw [List.forall_mem_cons] at hfiles
      rw [List.foldlM_cons] at h
      cases hf : c₁.insertFile f with
      | error fault =>
        rw [hf] at h
        cases h
      | ok c' =>
        rw [hf] at h
        exact ih (hc₁.insertFile hP hfiles.1 hf) hfiles.2 h
  unfold ofFiles at h
  cases hc : (files.filter fun f => belongs (files.any fun f => isLibraryRoot f.relative)
      f.relative).foldlM Crate.insertFile (empty root) with
  | error fault =>
    simp only [hc, bind, Except.bind] at h
    cases h
  | ok c₁ =>
    simp only [hc, bind, Except.bind] at h
    cases h
    have hempty : (empty root).Spelled P := ⟨hroot, fun home m hm => by cases hm⟩
    exact (hinsert hempty (fun f hf => hfiles f (List.mem_filter.1 hf).1) hc).linkTimes hopLimit

/-- A crate of sources has the words of its root, of the places of the sources, and names. -/
theorem spelled_ofSources (hP : ∀ w, IsNameText w → P w) {root : Namespace}
    {sources : List (FilePath × String)} {c : Crate} (hroot : ∀ w ∈ root.segments, P w)
    (hsources : ∀ s ∈ sources, ∀ w ∈ moduleSegments s.1, P w)
    (h : ofSources root sources = .ok c) : c.Spelled P := by
  refine spelled_ofFiles hP hroot (fun f hf => ?_) h
  obtain ⟨s, hs, rfl⟩ := List.mem_map.1 hf
  exact hsources s (List.mem_mergeSort.1 hs)

/-- A struct of such a crate is named by such words. -/
theorem Spelled.spelled_struct (hP : ∀ w, IsNameText w → P w) {c : Crate} (hc : c.Spelled P)
    (hcoherent : c.Coherent) {m : Module} (hm : m ∈ c.moduleList) {name : String} {fields : Fields}
    (hitem : .struct name fields ∈ m.items) : (TypeName.qualify m.home name).Spelled P := by
  obtain ⟨home, hm⟩ := mem_moduleList.1 hm
  have hmodule := hc.modules home m hm
  obtain ⟨rfl, hscope, -⟩ := hcoherent home m hm
  have hsound := hmodule.items _ hitem
  rw [Item.Sound] at hsound
  refine List.forall_mem_append.2 ⟨hscope ▸ hmodule.scope.home, ?_⟩
  exact List.forall_mem_singleton.2 (hP name hsound.1)

end Crate

/-! ### The paths of sources -/

namespace FilePath

open Text (IsLine)

/-- The pieces of a path are made of its characters. -/
theorem mem_of_mem_cutAtSlashes {cs piece : List Char} (h : piece ∈ cutAtSlashes cs) :
    ∀ c ∈ piece, c ∈ cs := by
  induction cs generalizing piece with
  | nil =>
    rw [cutAtSlashes, List.mem_singleton] at h
    simp [h]
  | cons d r ih =>
    -- The pieces behind the first character are those of the rest, but for the first of them.
    have hr {piece : List Char} (h : piece ∈ cutAtSlashes r) : ∀ c ∈ piece, c ∈ d :: r :=
      fun c hc => List.mem_cons_of_mem _ (ih h c hc)
    by_cases hd : d = '/'
    · subst hd
      rw [cutAtSlashes, List.mem_cons] at h
      rcases h with rfl | h
      · simp
      · exact hr h
    · obtain ⟨first, rest, hpieces⟩ := List.exists_cons_of_ne_nil (cutAtSlashes_ne_nil r)
      rw [cutAtSlashes_cons_of_ne hd hpieces, List.mem_cons] at h
      rw [hpieces] at hr
      rcases h with rfl | h
      · exact List.forall_mem_cons.2 ⟨List.mem_cons_self, hr List.mem_cons_self⟩
      · exact hr (List.mem_cons_of_mem _ h)

/-- A path on one line has components on one line. -/
theorem isLine_of_mem_components {p : FilePath} (hp : IsLine p.text) :
    ∀ c ∈ p.components, IsLine c.text := by
  rw [components_eq, List.forall_mem_append]
  refine ⟨fun c hc => ?_, fun c hc => ?_⟩
  · rcases leadOf_cases (cutAtSlashes p.text.toList) with h | h | h
    · rw [h] at hc
      cases hc
    · rw [h, List.mem_singleton] at hc
      subst hc
      decide
    · rw [h, List.mem_singleton] at hc
      subst hc
      decide
  · -- A component is a piece of the text, which has no line feed.
    obtain ⟨piece, hpiece, hcomponent⟩ := List.mem_filterMap.1 hc
    rcases componentOf?_cases hcomponent with rfl | rfl
    · decide
    · intro hnewline
      rw [Component.text, String.toList_ofList] at hnewline
      exact hp (mem_of_mem_cutAtSlashes hpiece _ hnewline)

theorem mem_of_mem_cutAtLastDot {name : String} : ∀ c ∈ (cutAtLastDot name).1, c ∈ name.toList := by
  intro c hc
  unfold cutAtLastDot at hc
  dsimp only at hc
  split at hc
  · exact hc
  · exact hc
  · next d stem _ hstem =>
    split at hc
    · exact hc
    · have hsuffix : d :: stem <:+ name.toList.reverse := hstem ▸ List.dropWhile_suffix _
      have hmem := hsuffix.subset (List.mem_cons_of_mem _ (List.mem_reverse.1 hc))
      exact List.mem_reverse.1 hmem

/-- The stem of a name is not empty. -/
theorem cutAtLastDot_ne_nil {name : String} (h : name.toList ≠ []) :
    (cutAtLastDot name).1 ≠ [] := by
  unfold cutAtLastDot
  dsimp only
  split
  · exact h
  · exact h
  · next d stem hstem _ =>
    split
    · exact h
    · intro hnil
      exact hstem (List.reverse_eq_nil_iff.1 hnil)

end FilePath

namespace Crate

open Text (IsLine)

/-- The modules of a source are named by the components of its path and the stem of its name. -/
theorem forall_mem_moduleSegments {P : String → Prop} {p : FilePath}
    (hcomponents : ∀ c ∈ p.components, P c.text)
    (hstem : ∀ name, .normal name ∈ p.components →
      P (String.ofList (FilePath.cutAtLastDot name).1)) :
    ∀ w ∈ moduleSegments p, P w := by
  refine List.forall_mem_append.2 ⟨fun w hw => ?_, fun w hw => ?_⟩
  · obtain ⟨c, hc, rfl⟩ := List.mem_map.1 hw
    refine hcomponents c ?_
    unfold FilePath.parentComponents at hc
    split at hc
    · cases hc
    · cases hc
    · exact List.dropLast_subset _ hc
  · split at hw
    · next stem heq =>
      obtain ⟨name, hname, rfl⟩ := Option.map_eq_some_iff.1 heq
      -- The stem is what stands before the last dot of the last component.
      have hmem : Component.normal name ∈ p.components := by
        unfold FilePath.fileName? at hname
        split at hname
        · next hlast =>
          cases hname
          exact List.mem_of_getLast? hlast
        · cases hname
      split at hw
      · cases hw
      · rw [List.mem_singleton.1 hw]
        exact hstem name hmem
    · cases hw

/-- The modules of a source whose path stands in one line have such names. -/
theorem isLine_of_mem_moduleSegments {p : FilePath} (hp : IsLine p.text) :
    ∀ w ∈ moduleSegments p, IsLine w := by
  have hcomponents := FilePath.isLine_of_mem_components hp
  refine forall_mem_moduleSegments hcomponents fun name hname hnewline => ?_
  rw [String.toList_ofList] at hnewline
  exact hcomponents _ hname (FilePath.mem_of_mem_cutAtLastDot _ hnewline)

/-- The modules of a source whose path is made of names have names without slashes. -/
theorem isPiece_of_mem_moduleSegments {p : FilePath}
    (hp : ∀ c ∈ p.components, ∃ name, c = .normal name) :
    ∀ w ∈ moduleSegments p, FilePath.IsPiece w := by
  have hname {name : String} (h : .normal name ∈ p.components) : FilePath.IsPiece name :=
    (FilePath.isName_of_mem_components h).isPiece
  refine forall_mem_moduleSegments (fun c hc => ?_)
    fun name h => ⟨fun hempty => ?_, fun hslash => ?_⟩
  · obtain ⟨name, rfl⟩ := hp c hc
    exact hname hc
  · rw [← String.toList_inj, String.toList_ofList] at hempty
    refine FilePath.cutAtLastDot_ne_nil (fun hnil => (hname h).1 ?_) hempty
    rw [← String.toList_inj, hnil, String.toList_empty]
  · rw [String.toList_ofList] at hslash
    exact (hname h).2 (FilePath.mem_of_mem_cutAtLastDot _ hslash)

end Crate

end FieldBinder
