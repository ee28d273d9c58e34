import FieldBinder.Proofs.Crate.Imports
import Mathlib.Data.List.Basic

/-!
# Grouped `use` trees

A `use` item with groups can be written as items with one leaf each (`UseTree.singles`), which have
the same leaves in the same order (`UseTree.flatMap_leaves_singles`).  The names of an item are
imported before its globs, and the names of several items between their globs, so globs are read at
another time; that makes no difference where they are not read through a name (`ofItems_singles`).

A leaf `self` stands for the path in front of it.  It cannot be written on its own where that path
is empty or ends in `self` (`UseLeaf.isWritable`, `imports_singles_ne_selfTree`).
-/

namespace FieldBinder

/-! ### Trees with one leaf -/

namespace UseTree

/-- A tree behind a path. -/
def behind (path : List String) (t : UseTree) : UseTree := path.foldr .path t

/-- The tree with the one leaf that a path means under a last segment made into a tree. -/
def ofPath? (last : String → UseTree) (path : List String) : Option UseTree :=
  path.getLast?.map fun name => (last name).behind path.dropLast

mutual

/-- One tree for each leaf below a path, in the order in which they are written.  A leaf `self`
becomes the path in front of it, and a leaf renamed to `_` nothing. -/
def singles (before : List String) : UseTree → List UseTree
  | .path ident tree => tree.singles (before ++ [ident])
  | .name ident =>
    if ident = "self" then (ofPath? .name before).toList
    else [behind before (.name ident)]
  | .rename ident alias_ =>
    if alias_ = "_" then []
    else if ident = "self" then (ofPath? (.rename · alias_) before).toList
    else [behind before (.rename ident alias_)]
  | .glob => [behind before .glob]
  | .group trees => singlesList before trees

/-- One tree for each leaf of trees below a path. -/
def singlesList (before : List String) : List UseTree → List UseTree
  | [] => []
  | t :: r => t.singles before ++ singlesList before r

end

end UseTree

namespace UseLeaf

/-- The path of a leaf. -/
def path : UseLeaf → List String
  | .binding _ target => target
  | .glob target => target

/-- Whether a leaf that binds a name has a path that can be written with its last segment as the
leaf: it is not empty and does not end in `self`. -/
def isWritable : UseLeaf → Bool
  | .binding _ target => target.getLast?.any (· != "self")
  | .glob _ => true

end UseLeaf

namespace UseTree

theorem leaves_behind (path before : List String) (t : UseTree) :
    (t.behind path).leaves before = t.leaves (before ++ path) := by
  induction path generalizing before with
  | nil => rw [List.append_nil]; rfl
  | cons ident r ih =>
    rw [behind, List.foldr_cons, leaves, ← behind, ih, List.append_assoc]
    rfl

/-- A path with a last segment other than `self` can be written with that segment as the leaf. -/
theorem flatMap_leaves_ofPath? {last : String → UseTree} {name : String} {path : List String}
    (hpath : (UseLeaf.binding name path).isWritable = true)
    (hlast : ∀ ident before, ident ≠ "self" → path = before ++ [ident] →
      (last ident).leaves before = [.binding name path]) :
    (ofPath? last path).toList.flatMap (leaves []) = [.binding name path] := by
  rcases List.eq_nil_or_concat path with rfl | ⟨r, ident, rfl⟩
  · cases hpath
  · rw [List.concat_eq_append] at hpath hlast ⊢
    have hident : ident ≠ "self" := by simpa [UseLeaf.isWritable] using hpath
    simp only [ofPath?, List.getLast?_concat, Option.map_some, List.dropLast_concat,
      Option.toList_some, List.flatMap_singleton, leaves_behind, List.nil_append]
    exact hlast ident r hident rfl

mutual

/-- The single trees of a tree have its leaves, in its order. -/
theorem flatMap_leaves_singles : ∀ {t : UseTree} {before : List String},
    (∀ l ∈ t.leaves before, l.isWritable = true) →
    (t.singles before).flatMap (leaves []) = t.leaves before
  | .path ident tree, before, h => by
    rw [leaves] at h ⊢
    rw [singles]
    exact flatMap_leaves_singles h
  | .name ident, before, h => by
    rw [leaves] at h ⊢
    rw [singles]
    -- A last `self` names the path in front of it, so the single leaf is spelled without it.
    by_cases hself : ident = "self"
    · rw [if_pos hself] at h ⊢
      rw [if_pos hself]
      cases hlast : before.getLast? with
      | none =>
        rw [List.getLast?_eq_none_iff.1 hlast]
        rfl
      | some last =>
        rw [hlast] at h
        have hpath : (UseLeaf.binding last before).isWritable = true := h _ (by simp)
        refine flatMap_leaves_ofPath? hpath fun ident' r hident' hbefore => ?_
        rw [hbefore, List.getLast?_concat, Option.some.injEq] at hlast
        rw [leaves, if_neg hident', hbefore, hlast]
    · rw [if_neg hself, if_neg hself, List.flatMap_singleton, leaves_behind, leaves, if_neg hself]
      rfl
  | .rename ident alias_, before, h => by
    rw [leaves] at h ⊢
    rw [singles]
    -- A leaf renamed to `_` binds nothing and has no single spelling.
    by_cases halias : alias_ = "_"
    · rw [if_pos halias, if_pos halias, List.flatMap_nil]
    · rw [if_neg halias] at h ⊢
      rw [if_neg halias]
      by_cases hself : ident = "self"
      · rw [if_pos hself] at h ⊢
        rw [if_pos hself]
        refine flatMap_leaves_ofPath? (h _ (by simp)) fun ident' r hident' hbefore => ?_
        rw [leaves, if_neg halias, if_neg hident', hbefore]
      · rw [if_neg hself, if_neg hself, List.flatMap_singleton, leaves_behind, leaves,
          if_neg halias, if_neg hself]
        rfl
  | .glob, before, _ => by
    rw [singles, leaves, List.flatMap_singleton, leaves_behind, leaves, List.nil_append]
  | .group trees, before, h => by
    rw [leaves] at h ⊢
    rw [singles]
    exact flatMap_leaves_singlesList h

theorem flatMap_leaves_singlesList : ∀ {ts : List UseTree} {before : List String},
    (∀ l ∈ leavesList before ts, l.isWritable = true) →
    (singlesList before ts).flatMap (leaves []) = leavesList before ts
  | [], _, _ => by rw [singlesList, leavesList, List.flatMap_nil]
  | t :: r, before, h => by
    rw [leavesList, List.forall_mem_append] at h
    rw [singlesList, leavesList, List.flatMap_append, flatMap_leaves_singles h.1,
      flatMap_leaves_singlesList h.2]

end

end UseTree

namespace Scope

/-! ### Names -/

/-- A scope but for its globs. -/
def withoutGlobs (s : Scope) : Scope := { s with globs := [] }

/-- The imports of an item are read without looking at the globs. -/
theorem importItem_withoutGlobs (s : Scope) (i : Item) :
    (s.importItem i).withoutGlobs = i.bindings.foldl (importName i.isLeading) s.withoutGlobs := by
  have hname (s : Scope) (leaf : String × List String) :
      importName i.isLeading s.withoutGlobs leaf =
        (importName i.isLeading s leaf).withoutGlobs := by
    have hread : s.withoutGlobs.absolute? i.isLeading leaf.2 = s.absolute? i.isLeading leaf.2 := rfl
    unfold importName
    rw [hread]
    split <;> rfl
  rw [importItem_eq, foldl_kept (g := withoutGlobs) (importGlob_kept (fun _ _ => rfl) i.isLeading),
    List.foldl_hom withoutGlobs hname]

theorem foldl_importItem_withoutGlobs {s s' : Scope} (h : s.withoutGlobs = s'.withoutGlobs)
    (items : List Item) :
    (items.foldl importItem s).withoutGlobs = (items.foldl importItem s').withoutGlobs := by
  induction items generalizing s s' with
  | nil => exact h
  | cons i r ih =>
    apply ih
    rw [importItem_withoutGlobs, importItem_withoutGlobs, h]

/-- Several trees import the names of all their leaves one after the other. -/
theorem foldl_importItem_trees_withoutGlobs (s : Scope) (leading : Bool) (trees : List UseTree) :
    ((trees.map (.use leading)).foldl importItem s).withoutGlobs =
      ((trees.flatMap (UseTree.leaves [])).filterMap UseLeaf.binding?).foldl (importName leading)
        s.withoutGlobs := by
  induction trees generalizing s with
  | nil => rfl
  | cons t r ih =>
    rw [List.map_cons, List.foldl_cons, ih, importItem_withoutGlobs, List.flatMap_cons,
      List.filterMap_append, List.foldl_append]
    rfl

/-! ### Globs -/

theorem home_importItem (s : Scope) (i : Item) : (s.importItem i).home = s.home :=
  importItem_kept (fun _ _ _ => rfl) s i

theorem root_importItem (s : Scope) (i : Item) : (s.importItem i).root = s.root :=
  importItem_kept (fun _ _ _ => rfl) s i

/-- Globs that are not read through a name are read as before the item. -/
theorem globs_importItem_of_firstName? {i : Item}
    (h : ∀ path ∈ i.globPaths, firstName? i.isLeading path = none) (s : Scope) :
    (s.importItem i).globs = s.globs ++ i.globPaths.filterMap (s.absolute? i.isLeading) := by
  rw [globs_importItem]
  congr 1
  apply List.filterMap_congr
  intro path hpath
  apply absolute?_congr
  · exact foldl_kept (importName_kept (fun _ _ => rfl) i.isLeading) _ _
  · exact foldl_kept (importName_kept (fun _ _ => rfl) i.isLeading) _ _
  · intro name hname
    rw [h path hpath] at hname
    cases hname

/-- Several trees import all their globs one after the other, if these are not read through
names. -/
theorem globs_foldl_importItem_trees {leading : Bool} {trees : List UseTree}
    (h : ∀ path ∈ (trees.flatMap (UseTree.leaves [])).filterMap UseLeaf.glob?,
      firstName? leading path = none) (s : Scope) :
    ((trees.map (.use leading)).foldl importItem s).globs = s.globs ++
      ((trees.flatMap (UseTree.leaves [])).filterMap UseLeaf.glob?).filterMap
        (s.absolute? leading) := by
  induction trees generalizing s with
  | nil => simp
  | cons t r ih =>
    rw [List.flatMap_cons, List.filterMap_append, List.forall_mem_append] at h
    have ht : (s.importItem (.use leading t)).globs =
        s.globs ++ ((t.leaves []).filterMap UseLeaf.glob?).filterMap (s.absolute? leading) :=
      globs_importItem_of_firstName? (i := .use leading t) h.1 s
    -- No path left begins with a name bound here, so the imports of `t` change no reading.
    have hread : ((r.flatMap (UseTree.leaves [])).filterMap UseLeaf.glob?).filterMap
          ((s.importItem (.use leading t)).absolute? leading) =
        ((r.flatMap (UseTree.leaves [])).filterMap UseLeaf.glob?).filterMap
          (s.absolute? leading) := by
      apply List.filterMap_congr
      intro path hpath
      apply absolute?_congr (home_importItem s _) (root_importItem s _)
      intro name hname
      rw [h.2 path hpath] at hname
      cases hname
    rw [List.map_cons, List.foldl_cons, ih h.2, ht, hread, List.flatMap_cons,
      List.filterMap_append, List.filterMap_append, List.append_assoc]

/-! ### One item for each leaf -/

section

variable {leading : Bool} {tree : UseTree}

/-- Apart from the globs, importing the single trees comes to importing the tree. -/
theorem foldl_importItem_singles_withoutGlobs
    (htree : ∀ l ∈ tree.leaves [], l.isWritable = true) (s : Scope) :
    (((tree.singles []).map (.use leading)).foldl importItem s).withoutGlobs =
      (s.importItem (.use leading tree)).withoutGlobs := by
  rw [foldl_importItem_trees_withoutGlobs, UseTree.flatMap_leaves_singles htree,
    importItem_withoutGlobs]
  rfl

/-- Importing the single trees one after another comes to importing the tree, where no glob begins
with a name that it binds. -/
theorem foldl_importItem_singles (htree : ∀ l ∈ tree.leaves [], l.isWritable = true)
    (hglobs : ∀ path ∈ (tree.leaves []).filterMap UseLeaf.glob?, firstName? leading path = none)
    (s : Scope) :
    ((tree.singles []).map (.use leading)).foldl importItem s =
      s.importItem (.use leading tree) := by
  have hnames : (((tree.singles []).map (.use leading)).foldl importItem s).withoutGlobs =
      (s.importItem (.use leading tree)).withoutGlobs :=
    foldl_importItem_singles_withoutGlobs htree s
  have hleaves := UseTree.flatMap_leaves_singles htree
  have hsame : (((tree.singles []).map (.use leading)).foldl importItem s).globs =
      (s.importItem (.use leading tree)).globs := by
    rw [globs_foldl_importItem_trees (by rwa [hleaves]), hleaves,
      globs_importItem_of_firstName? (i := .use leading tree) hglobs]
    rfl
  have hfields (s : Scope) : s = { s.withoutGlobs with globs := s.globs } := rfl
  rw [hfields (((tree.singles []).map (.use leading)).foldl importItem s), hnames, hsame]
  rfl

/-- A `use` item can be replaced by one item for each of its leaves, if the paths of the leaves can
be written so.  Then the module imports the same names; and if no path of a glob starts with a name,
the same globs, so that the scope is the same. -/
theorem ofItems_singles {home root : Namespace} (before after : List Item)
    (htree : ∀ l ∈ tree.leaves [], l.isWritable = true) :
    let s := ofItems home root (before ++ .use leading tree :: after)
    let s' := ofItems home root (before ++ (tree.singles []).map (.use leading) ++ after)
    s'.imports = s.imports ∧
    ((leading = true ∨ ∀ path, .glob path ∈ tree.leaves [] →
        ∃ first ∈ ["crate", "self", "super"], path.head? = some first) → s' = s) := by
  intro s s'
  have hdeclared : (before ++ (tree.singles []).map (Item.use leading) ++ after).filterMap
      Item.declaration? = (before ++ .use leading tree :: after).filterMap Item.declaration? := by
    have hnone : ((tree.singles []).map (Item.use leading)).filterMap Item.declaration? = [] := by
      rw [List.filterMap_map, List.filterMap_eq_nil_iff]
      exact fun t _ => rfl
    rw [List.filterMap_append, List.filterMap_append, hnone, List.append_nil, List.filterMap_append,
      List.filterMap_cons_none (show Item.declaration? (.use leading tree) = none from rfl)]
  -- both scopes go on from the imports of the items before
  let s₀ := before.foldl importItem
    (ofDeclarations home root (before ++ .use leading tree :: after))
  have hs : s = after.foldl importItem (s₀.importItem (.use leading tree)) := by
    show ofItems _ _ _ = _
    rw [ofItems_eq, List.foldl_append, List.foldl_cons]
  have hs' : s' =
      after.foldl importItem (((tree.singles []).map (.use leading)).foldl importItem s₀) := by
    show ofItems _ _ _ = _
    rw [ofItems_eq, ofDeclarations, hdeclared, List.foldl_append, List.foldl_append]
    rfl
  constructor
  · have hsame : s'.withoutGlobs = s.withoutGlobs := by
      rw [hs, hs']
      exact foldl_importItem_withoutGlobs (foldl_importItem_singles_withoutGlobs htree s₀) after
    show s'.withoutGlobs.imports = s.withoutGlobs.imports
    rw [hsame]
  · intro hanchored
    rw [hs, hs', foldl_importItem_singles htree]
    intro path hpath
    obtain ⟨l, hl, hglob⟩ := List.mem_filterMap.1 hpath
    cases l with
    | binding name target => cases hglob
    | glob target =>
      cases hglob
      rcases hanchored with rfl | hkeywords
      · exact firstName?_eq_none_of_leading path
      · obtain ⟨first, hfirst, hhead⟩ := hkeywords path hl
        exact firstName?_eq_none_of_keyword hfirst hhead

end

/-- A tree with groups, renames and globs. -/
def ledgerTree : UseTree :=
  .path "crate" (.group [
    .path "geo" (.group [.name "self", .rename "Country" "Land", .glob]),
    .path "money" (.group [.rename "self" "cash", .rename "Amount" "_", .name "Currency"]),
    .glob])

theorem ofItems_singles_ledgerTree :
    (∀ l ∈ ledgerTree.leaves [], l.isWritable = true) ∧
    ofItems ⟨["crate", "sales"]⟩ ⟨["crate"]⟩ ([.mod "orders" none] ++
        (ledgerTree.singles []).map (.use false) ++ [.use false (.path "geo" (.name "Region"))]) =
      ofItems ⟨["crate", "sales"]⟩ ⟨["crate"]⟩ ([.mod "orders" none] ++
        .use false ledgerTree :: [.use false (.path "geo" (.name "Region"))]) := by
  have htree : ∀ l ∈ ledgerTree.leaves [], l.isWritable = true := by decide
  refine ⟨htree, (ofItems_singles [.mod "orders" none] _ htree).2 (.inr ?_)⟩
  intro path hpath
  have hglob : path = ["crate", "geo"] ∨ path = ["crate"] := by
    simpa [ledgerTree, UseTree.leaves, UseTree.leavesList] using hpath
  rcases hglob with rfl | rfl
  · exact ⟨"crate", by decide, rfl⟩
  · exact ⟨"crate", by decide, rfl⟩

/-- A tree with a leaf `self` below a path that ends in `self`. -/
def selfTree : UseTree := .path "crate" (.path "self" (.group [.name "self"]))

/-- The one leaf of this tree is the path `crate::self`.  Written as an item of its own, that is a
leaf `self` below `crate`. -/
theorem imports_singles_ne_selfTree :
    (∀ l ∈ selfTree.leaves [], l.path.head? = some "crate" ∧ l.path ≠ ["self"]) ∧
    selfTree.singles [] = [.path "crate" (.name "self")] ∧
    (ofItems ⟨["crate"]⟩ ⟨["crate"]⟩ [.use false selfTree]).imports.get? "crate" = none ∧
    (ofItems ⟨["crate"]⟩ ⟨["crate"]⟩ ((selfTree.singles []).map (.use false))).imports.get?
      "crate" = some ["crate"] := by
  refine ⟨by decide, rfl, ?_, ?_⟩
  all_goals decide +kernel

end Scope

end FieldBinder
