import FieldBinder.Proofs.Crate.Files
import FieldBinder.Proofs.Crate.Globs
import Mathlib.Data.List.Nodup

/-!
# What files bring into a crate

A file brings in its own module and the modules that stand in place inside it (`modulesOf`).
Registering files one after the other either takes in all of these modules and no others
(`Crate.MadeOf`), or is stopped by a second module of a namespace that is taken, or by a file that
is not read (`Crate.registered_ofFiles`).  So files make a crate exactly when all are read and the
namespaces of their modules differ (`exists_ofFiles_iff`).
-/

namespace FieldBinder

/-- A module as a file brings it in. -/
structure ModuleSource where
  file : FilePath
  home : Namespace
  items : List Item

namespace Crate

/-- The items of a file, if it can be read and parsed. -/
def SourceFile.items? (f : SourceFile) : Option (List Item) :=
  f.text.toOption.bind Item.parseFile?

/-- The namespace under which a file is registered. -/
def namespaceOf (root : Namespace) (p : FilePath) : Namespace :=
  ⟨root.segments ++ moduleSegments p⟩

/-- The module of a file and the modules that stand in place inside it. -/
def modulesOf (root : Namespace) (f : SourceFile) : List ModuleSource :=
  match f.items? with
  | some items =>
    ((namespaceOf root f.relative, items) :: inlineModules (namespaceOf root f.relative) items).map
      fun x => ⟨f.path, x.1, x.2⟩
  | none => []

mutual

/-- What stands in place inside an item stands inside a module of it. -/
theorem exists_child_inlineModulesOf : ∀ {home : Namespace} {i : Item},
    ∀ x ∈ inlineModulesOf home i, ∃ name, (home.child name).segments <+: x.1.segments
  | home, .mod name (some items), x, hx => by
    rw [inlineModulesOf, List.mem_cons] at hx
    rcases hx with rfl | hx
    · exact ⟨name, List.prefix_rfl⟩
    · obtain ⟨inner, hinner⟩ := exists_child_inlineModules x hx
      have hchild : (home.child name).segments <+: ((home.child name).child inner).segments :=
        List.prefix_append ..
      exact ⟨name, hchild.trans hinner⟩
  | _, .mod _ none, _, hx | _, .use _ _, _, hx | _, .struct _ _, _, hx | _, .enum _, _, hx
  | _, .union _, _, hx | _, .trait _ _, _, hx | _, .typeAlias _, _, hx | _, .impl _ _ _ _, _, hx
  | _, .verbatim, _, hx | _, .other, _, hx => by simp [inlineModulesOf] at hx

theorem exists_child_inlineModules : ∀ {home : Namespace} {items : List Item},
    ∀ x ∈ inlineModules home items, ∃ name, (home.child name).segments <+: x.1.segments
  | _, [], _, hx => by simp [inlineModules] at hx
  | _, _ :: _, x, hx => by
    rw [inlineModules, List.mem_append] at hx
    rcases hx with hx | hx
    · exact exists_child_inlineModulesOf x hx
    · exact exists_child_inlineModules x hx

end

theorem mem_modulesOf {root : Namespace} {f : SourceFile} {items : List Item}
    (hitems : f.items? = some items) :
    ⟨f.path, namespaceOf root f.relative, items⟩ ∈ modulesOf root f := by
  rw [modulesOf, hitems]
  exact List.mem_cons_self

/-- A module that a file brings in is the one of the file, or lies below it. -/
theorem of_mem_modulesOf {root : Namespace} {f : SourceFile} {x : ModuleSource}
    (hx : x ∈ modulesOf root f) : x.file = f.path ∧ ∃ items, f.items? = some items ∧
      (x.home = namespaceOf root f.relative ∧ x.items = items ∨
        ∃ name, ((namespaceOf root f.relative).child name).segments <+: x.home.segments) := by
  unfold modulesOf at hx
  split at hx
  · next items hitems =>
    obtain ⟨y, hy, rfl⟩ := List.mem_map.1 hx
    refine ⟨rfl, items, hitems, ?_⟩
    rcases List.mem_cons.1 hy with rfl | hy
    · exact .inl ⟨rfl, rfl⟩
    · exact .inr (exists_child_inlineModules y hy)
  · cases hx

/-- The files that belong to the crate. -/
def crateFiles (files : List SourceFile) : List SourceFile :=
  files.filter fun f => belongs (files.any fun f => isLibraryRoot f.relative) f.relative

/-- Whether two of the modules, from these files in this order, have this namespace. -/
def Clash (l : List ModuleSource) (home : Namespace) (first second : FilePath) : Prop :=
  [(home, first), (home, second)].Sublist (l.map fun x => (x.home, x.file))

/-- Whether the modules of a crate are those of a list, in which no namespace stands twice. -/
structure MadeOf (c : Crate) (root : Namespace) (l : List ModuleSource) : Prop where
  root : c.root = root
  nodup : (l.map (·.home)).Nodup
  module?_iff : ∀ x : ModuleSource,
    (∃ m, c.module? x.home = some m ∧ m.file = x.file ∧ m.items = x.items) ↔ x ∈ l

/-- What has become of files that were registered after the modules of a list. -/
def Registered (root : Namespace) (l : List ModuleSource) (files : List SourceFile) :
    Except SourceFault Crate → Prop
  | .ok c => (∀ f ∈ files, f.items? ≠ none) ∧ c.MadeOf root (l ++ files.flatMap (modulesOf root))
  | .error (.duplicateModule home first second) =>
    Clash (l ++ files.flatMap (modulesOf root)) home first second
  | .error _ => ∃ f ∈ files, f.items? = none

theorem Clash.mono {l l' : List ModuleSource} {home : Namespace} {first second : FilePath}
    (h : Clash l home first second) (hl : l.Sublist l') : Clash l' home first second :=
  List.Sublist.trans h (hl.map _)

theorem Clash.not_nodup {l : List ModuleSource} {home : Namespace} {first second : FilePath}
    (h : Clash l home first second) : ¬ (l.map (·.home)).Nodup := by
  intro hnodup
  have htwice : [home, home].Sublist (l.map (·.home)) := by
    have hmap := h.map Prod.fst
    rwa [List.map_map] at hmap
  exact List.nodup_iff_sublist.1 hnodup home htwice

theorem madeOf_empty (root : Namespace) : (empty root).MadeOf root [] where
  root := rfl
  nodup := List.nodup_nil
  module?_iff x := by
    constructor
    · rintro ⟨m, hm, -⟩
      cases hm
    · intro hx
      cases hx

namespace MadeOf

variable {c : Crate} {root : Namespace} {l : List ModuleSource}

/-- One more module, of a namespace that is free. -/
theorem put (hc : c.MadeOf root l) {home : Namespace} (hfree : c.module? home = none)
    (file : FilePath) (items : List Item) :
    (c.put file home items).MadeOf root (l ++ [⟨file, home, items⟩]) := by
  -- The namespace was free, so no module recorded before has it.
  have hne : ∀ x ∈ l, x.home ≠ home := by
    rintro x hx rfl
    obtain ⟨m, hm, -⟩ := (hc.module?_iff x).2 hx
    rw [hfree] at hm
    cases hm
  refine ⟨hc.root, ?_, ?_⟩
  · rw [List.map_append, List.nodup_append]
    refine ⟨hc.nodup, List.nodup_singleton _, ?_⟩
    intro a ha b hb
    obtain ⟨x, hx, rfl⟩ := List.mem_map.1 ha
    obtain rfl : b = home := by simpa using hb
    exact hne x hx
  · intro x
    rw [List.mem_append, List.mem_singleton, ← hc.module?_iff x, module?, Crate.put,
      SortedMap.get?_insert]
    obtain ⟨file', home', items'⟩ := x
    by_cases hhome : home' = home
    · subst hhome
      rw [module?] at hfree
      simp [module?, hfree, eq_comm]
    · simp [module?, hhome]

theorem putAll (hc : c.MadeOf root l) (file : FilePath) (modules : List (Namespace × List Item)) :
    match c.putAll file modules with
    | (c', none) => c'.MadeOf root (l ++ modules.map fun x => ⟨file, x.1, x.2⟩)
    | (_, some fault) => ∃ home first, fault = .duplicateModule home first file ∧
        Clash (l ++ modules.map fun x => ⟨file, x.1, x.2⟩) home first file := by
  induction modules generalizing c l with
  | nil => simpa [Crate.putAll] using hc
  | cons x r ih =>
    obtain ⟨home, items⟩ := x
    rw [Crate.putAll]
    cases hm : c.module? home with
    | none =>
      have hr := ih (hc.put hm file items)
      rw [List.append_assoc] at hr
      exact hr
    | some m =>
      -- the module that has the namespace is one of the list
      refine ⟨home, m.file, rfl, ?_⟩
      have hmem : ⟨m.file, home, m.items⟩ ∈ l := (hc.module?_iff _).1 ⟨m, hm, rfl, rfl⟩
      rw [Clash, List.map_append]
      change List.Sublist ([(home, m.file)] ++ [(home, file)]) _
      apply List.Sublist.append
      · exact List.singleton_sublist.2 (List.mem_map.2 ⟨_, hmem, rfl⟩)
      · exact List.singleton_sublist.2 List.mem_cons_self

theorem insertFile (hc : c.MadeOf root l) (f : SourceFile) :
    Registered root l [f] (c.insertFile f) := by
  unfold Crate.insertFile
  cases htext : f.text with
  | error fault => exact ⟨f, List.mem_singleton_self f, by rw [SourceFile.items?, htext]; rfl⟩
  | ok text =>
    have hitems? : f.items? = Item.parseFile? text := by
      rw [SourceFile.items?, htext]
      rfl
    dsimp only
    cases hitems : Item.parseFile? text with
    | none => exact ⟨f, List.mem_singleton_self f, hitems?.trans hitems⟩
    | some items =>
      -- the file is readable: its modules are registered in turn
      have hmodules : [f].flatMap (modulesOf root) =
          ((namespaceOf root f.relative, items) ::
            inlineModules (namespaceOf root f.relative) items).map fun x => ⟨f.path, x.1, x.2⟩ := by
        rw [List.flatMap_singleton, modulesOf, hitems?, hitems]
      have hinsert := hc.putAll f.path ((namespaceOf root f.relative, items) ::
        inlineModules (namespaceOf root f.relative) items)
      rw [← hmodules] at hinsert
      dsimp only
      rw [hc.root, Crate.insert, ← namespaceOf]
      cases heq : c.putAll f.path ((namespaceOf root f.relative, items) ::
          inlineModules (namespaceOf root f.relative) items) with
      | mk c' fault? =>
        rw [heq] at hinsert
        cases fault? with
        | none =>
          refine ⟨?_, hinsert⟩
          rintro g hg hnone
          rw [List.mem_singleton.1 hg, hitems?, hitems] at hnone
          cases hnone
        | some fault =>
          obtain ⟨home, first, rfl, hclash⟩ := hinsert
          exact hclash

/-- Files are registered until one fails. -/
theorem foldlM_insertFile (hc : c.MadeOf root l) (files : List SourceFile) :
    Registered root l files (files.foldlM Crate.insertFile c) := by
  induction files generalizing c l with
  | nil => exact ⟨by simp, by simpa using hc⟩
  | cons f r ih =>
    have hf := hc.insertFile f
    rw [List.foldlM_cons]
    cases hinsert : c.insertFile f with
    | ok c' =>
      rw [hinsert] at hf
      obtain ⟨hread, hc'⟩ := hf
      rw [List.flatMap_singleton] at hc'
      have hr := ih hc'
      change Registered root l (f :: r) (r.foldlM Crate.insertFile c')
      -- what the other files lead to is told of the modules of this file too
      cases hfold : r.foldlM Crate.insertFile c' with
      | ok c'' =>
        rw [hfold] at hr
        rw [Registered, List.append_assoc, ← List.flatMap_cons] at hr
        exact ⟨List.forall_mem_cons.2 ⟨hread f List.mem_cons_self, hr.1⟩, hr.2⟩
      | error fault =>
        rw [hfold] at hr
        cases fault with
        | duplicateModule home first second =>
          rw [Registered, List.append_assoc, ← List.flatMap_cons] at hr
          exact hr
        | unreadable | unparsable =>
          obtain ⟨g, hg, hnone⟩ := hr
          exact ⟨g, List.mem_cons_of_mem f hg, hnone⟩
    | error fault =>
      rw [hinsert] at hf
      cases fault with
      | duplicateModule home first second =>
        rw [Registered, List.flatMap_singleton] at hf
        refine Clash.mono hf ?_
        rw [List.flatMap_cons]
        exact List.Sublist.append_left (List.sublist_append_left _ _) l
      | unreadable | unparsable =>
        obtain ⟨g, hg, hnone⟩ := hf
        rw [List.mem_singleton.1 hg] at hnone
        exact ⟨f, List.mem_cons_self, hnone⟩

/-- Linking globs changes neither the files nor the items of modules. -/
theorem linkGlobs (hc : c.MadeOf root l) : c.linkGlobs.MadeOf root l := by
  have hwidened := widened_linkTimes hopLimit c
  refine ⟨hwidened.root.trans hc.root, hc.nodup, ?_⟩
  intro x
  rw [← hc.module?_iff x]
  constructor
  · rintro ⟨m', hm', hfile, hitems⟩
    obtain ⟨m, hm, hsame⟩ := hwidened.exists_of_module hm'
    rw [hsame.same] at hfile hitems
    exact ⟨m, hm, hfile, hitems⟩
  · rintro ⟨m, hm, hfile, hitems⟩
    obtain ⟨m', hm', hsame⟩ := hwidened.exists_module hm
    refine ⟨m', hm', ?_⟩
    rw [hsame.same]
    exact ⟨hfile, hitems⟩

end MadeOf

variable {root : Namespace} {files : List SourceFile}

/-- What becomes of the files of a crate. -/
theorem registered_ofFiles (root : Namespace) (files : List SourceFile) :
    Registered root [] (crateFiles files) (ofFiles root files) := by
  have hfiles := (madeOf_empty root).foldlM_insertFile (crateFiles files)
  change Registered root [] (crateFiles files)
    ((crateFiles files).foldlM insertFile (empty root) >>= fun c => .ok c.linkGlobs)
  cases hfold : (crateFiles files).foldlM insertFile (empty root) with
  | ok c =>
    rw [hfold] at hfiles
    exact ⟨hfiles.1, hfiles.2.linkGlobs⟩
  | error fault =>
    rw [hfold] at hfiles
    exact hfiles

/-- Files make a crate when all that belong to it are read and bring in different namespaces. -/
theorem exists_ofFiles_iff : (∃ c, ofFiles root files = .ok c) ↔
    (∀ f ∈ crateFiles files, f.items? ≠ none) ∧
      (((crateFiles files).flatMap (modulesOf root)).map (·.home)).Nodup := by
  have hregistered := registered_ofFiles root files
  constructor
  · rintro ⟨c, hc⟩
    rw [hc] at hregistered
    exact ⟨hregistered.1, hregistered.2.nodup⟩
  · rintro ⟨hread, hnodup⟩
    cases hc : ofFiles root files with
    | ok c => exact ⟨c, rfl⟩
    | error fault =>
      rw [hc] at hregistered
      cases fault with
      | duplicateModule home first second => exact absurd hnodup (Clash.not_nodup hregistered)
      | unreadable | unparsable =>
        obtain ⟨f, hf, hnone⟩ := hregistered
        exact absurd hnone (hread f hf)

end Crate

end FieldBinder
