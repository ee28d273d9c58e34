import FieldBinder.Proofs.Crate.Built

/-!
# How imports are read

What a scope imports bears on a path only through the name that the path starts with, if it starts
with one (`firstName?`): the path goes on from what the name means
(`Scope.absolute?_of_firstName?`), and all other paths are read alike in scopes of one module
(`Scope.absolute?_congr`).

An item imports its names one after the other and then its globs (`Scope.importItem_eq`).  It binds
no other names (`Scope.get?_importItem_of_not_mem`), and its globs are read behind its names
(`Scope.globs_importItem`).
-/

namespace FieldBinder

/-! ### What an item imports -/

namespace Item

/-- Whether an item is an import. -/
def isUse : Item → Bool
  | .use _ _ => true
  | _ => false

/-- Whether the paths of an item start with `::`. -/
def isLeading : Item → Bool
  | .use leading _ => leading
  | _ => false

/-- The leaves of an item. -/
def leaves : Item → List UseLeaf
  | .use _ tree => tree.leaves []
  | _ => []

/-- The names that an item imports, with their paths. -/
def bindings (i : Item) : List (String × List String) := i.leaves.filterMap UseLeaf.binding?

/-- The paths of the globs of an item. -/
def globPaths (i : Item) : List (List String) := i.leaves.filterMap UseLeaf.glob?

/-- The names that an item imports. -/
def boundNames (i : Item) : List String := i.bindings.map (·.1)

/-- A `use` item declares nothing. -/
theorem declaration?_of_isUse {i : Item} (h : i.isUse = true) : i.declaration? = none := by
  cases i with
  | use => rfl
  | _ => cases h

/-- Only `use` items bind names. -/
theorem isUse_of_mem_bindings {i : Item} {leaf : String × List String} (h : leaf ∈ i.bindings) :
    i.isUse = true := by
  cases i with
  | use => rfl
  | _ => cases h

end Item

/-- The name that a path is looked up by: the first one, unless that is a keyword or the path starts
with `::`. -/
def firstName? : Bool → List String → Option String
  | false, first :: _ => if first ∈ ["crate", "self", "super"] then none else some first
  | _, _ => none

/-- The first word of a path behind colons is not looked up in the module. -/
theorem firstName?_eq_none_of_leading (path : List String) : firstName? true path = none := by
  cases path <;> rfl

/-- Nor is a keyword looked up. -/
theorem firstName?_eq_none_of_keyword {leading : Bool} {path : List String} {first : String}
    (hfirst : first ∈ ["crate", "self", "super"]) (hhead : path.head? = some first) :
    firstName? leading path = none := by
  obtain ⟨r, rfl⟩ := List.head?_eq_some_iff.1 hhead
  cases leading with
  | true => rfl
  | false => rw [firstName?, if_pos hfirst]

namespace Scope

/-! ### Paths -/

/-- What a name means at the start of a path: the target of its import, or else the declaration of
that name, or else the name as it stands. -/
def meaning (s : Scope) (name : String) : List String :=
  (s.imports.get? name).getD
    ((if s.declared.contains name then s.home else .root).segments ++ [name])

/-- A path that starts with a name leads where the name does, and on from there. -/
theorem absolute?_of_firstName? {s : Scope} {leading : Bool} {path : List String} {name : String}
    (h : firstName? leading path = some name) :
    s.absolute? leading path = some (s.meaning name ++ path.tail) := by
  cases leading with
  | true => cases h
  | false =>
    cases path with
    | nil => cases h
    | cons first r =>
      rw [firstName?] at h
      split at h
      · cases h
      · next hfirst =>
        obtain rfl := Option.some.inj h
        simp only [List.mem_cons, List.not_mem_nil, or_false, not_or] at hfirst
        obtain ⟨hcrate, hself, hsuper⟩ := hfirst
        simp only [absolute?, if_neg hcrate, if_neg hself, if_neg hsuper, meaning, List.tail_cons]
        cases s.imports.get? first with
        | some target => rfl
        | none => cases s.declared.contains first <;> simp [Namespace.root]

/-- In scopes of one module a path means the same if the name does that it starts with. -/
theorem absolute?_congr {s s' : Scope} {leading : Bool} {path : List String}
    (hhome : s.home = s'.home) (hroot : s.root = s'.root)
    (hname : ∀ name, firstName? leading path = some name → s.meaning name = s'.meaning name) :
    s.absolute? leading path = s'.absolute? leading path := by
  cases hfirst : firstName? leading path with
  | some name =>
    rw [absolute?_of_firstName? hfirst, absolute?_of_firstName? hfirst, hname name hfirst]
  | none =>
    cases leading with
    | true => rfl
    | false =>
      cases path with
      | nil => rfl
      | cons first r =>
        rw [firstName?] at hfirst
        split at hfirst
        · next hkeyword =>
          simp only [List.mem_cons, List.not_mem_nil, or_false] at hkeyword
          rcases hkeyword with rfl | rfl | rfl <;> simp [absolute?, hhome, hroot]
        · cases hfirst

/-! ### Names -/

/-- To import a leaf binds its name, if its path leads somewhere, and no other. -/
theorem get?_importName (leading : Bool) (s : Scope) (leaf : String × List String) (name : String) :
    (importName leading s leaf).imports.get? name =
      if name = leaf.1 then (s.absolute? leading leaf.2).or (s.imports.get? name)
      else s.imports.get? name := by
  unfold importName
  split
  · next target htarget =>
    rw [htarget, Option.some_or]
    exact SortedMap.get?_insert ..
  · next hnone => rw [hnone, Option.none_or, ite_self]

/-- What does not depend on imports, importing a name keeps. -/
theorem importName_kept {β : Type v} {g : Scope → β}
    (hg : ∀ (s : Scope) imports, g { s with imports } = g s) (leading : Bool) (s : Scope)
    (leaf : String × List String) : g (importName leading s leaf) = g s := by
  unfold importName
  split
  · exact hg s _
  · rfl

/-- So the other names mean what they meant. -/
theorem meaning_importName (leading : Bool) (s : Scope) (leaf : String × List String)
    (name : String) : (importName leading s leaf).meaning name =
      if name = leaf.1 then (s.absolute? leading leaf.2).getD (s.meaning name)
      else s.meaning name := by
  have hhome := importName_kept (g := Scope.home) (fun _ _ => rfl) leading s leaf
  have hdeclared := importName_kept (g := Scope.declared) (fun _ _ => rfl) leading s leaf
  rw [meaning, meaning, get?_importName, hhome, hdeclared]
  split
  · cases s.absolute? leading leaf.2 <;> rfl
  · rfl

/-- Leaves do not touch names that none of them binds. -/
theorem get?_foldl_importName_of_not_mem {name : String} {l : List (String × List String)}
    (h : name ∉ l.map (·.1)) (leading : Bool) (s : Scope) :
    (l.foldl (importName leading) s).imports.get? name = s.imports.get? name := by
  induction l generalizing s with
  | nil => rfl
  | cons leaf r ih =>
    rw [List.map_cons, List.mem_cons, not_or] at h
    rw [List.foldl_cons, ih h.2, get?_importName, if_neg h.1]

/-! ### Globs -/

/-- What does not depend on globs, importing one keeps. -/
theorem importGlob_kept {β : Type v} {g : Scope → β}
    (hg : ∀ (s : Scope) globs, g { s with globs } = g s) (leading : Bool) (s : Scope)
    (path : List String) : g (importGlob leading s path) = g s := by
  unfold importGlob
  split
  · exact hg s _
  · rfl

/-- Globs bind no names by themselves. -/
theorem imports_foldl_importGlob (leading : Bool) (l : List (List String)) (s : Scope) :
    (l.foldl (importGlob leading) s).imports = s.imports :=
  foldl_kept (importGlob_kept (fun _ _ => rfl) leading) l s

/-- Globs are noted with where their paths lead in the scope as it is. -/
theorem globs_foldl_importGlob (leading : Bool) (l : List (List String)) (s : Scope) :
    (l.foldl (importGlob leading) s).globs = s.globs ++ l.filterMap (s.absolute? leading) := by
  induction l generalizing s with
  | nil => simp
  | cons path r ih =>
    have hread : (importGlob leading s path).absolute? leading = s.absolute? leading :=
      importGlob_kept (g := fun s => s.absolute? leading) (fun _ _ => rfl) leading s path
    rw [List.foldl_cons, ih, hread, List.filterMap_cons, importGlob]
    cases s.absolute? leading path with
    | none => rfl
    | some target => simp

/-! ### Items -/

/-- The names of an item are imported in front of its globs. -/
theorem importItem_eq (s : Scope) (i : Item) :
    s.importItem i = i.globPaths.foldl (importGlob i.isLeading)
      (i.bindings.foldl (importName i.isLeading) s) := by
  cases i <;> rfl

/-- The globs of an item do not matter for the names that it binds. -/
theorem imports_importItem (s : Scope) (i : Item) :
    (s.importItem i).imports = (i.bindings.foldl (importName i.isLeading) s).imports := by
  rw [importItem_eq, imports_foldl_importGlob]

/-- The globs of an item are read with its names already bound. -/
theorem globs_importItem (s : Scope) (i : Item) :
    (s.importItem i).globs = s.globs ++ i.globPaths.filterMap
      ((i.bindings.foldl (importName i.isLeading) s).absolute? i.isLeading) := by
  rw [importItem_eq, globs_foldl_importGlob, foldl_kept (g := Scope.globs)
    (importName_kept (fun _ _ => rfl) i.isLeading)]

/-- An item does not touch names that it does not bind. -/
theorem get?_importItem_of_not_mem {i : Item} {name : String} (h : name ∉ i.boundNames)
    (s : Scope) : (s.importItem i).imports.get? name = s.imports.get? name := by
  rw [imports_importItem]
  exact get?_foldl_importName_of_not_mem h i.isLeading s

/-- Items do not touch names that none of them binds. -/
theorem get?_foldl_importItem_of_not_mem {items : List Item} {name : String}
    (h : name ∉ items.flatMap Item.boundNames) (s : Scope) :
    (items.foldl importItem s).imports.get? name = s.imports.get? name := by
  induction items generalizing s with
  | nil => rfl
  | cons i r ih =>
    rw [List.flatMap_cons, List.mem_append, not_or] at h
    rw [List.foldl_cons, ih h.2, get?_importItem_of_not_mem h.1]

/-- The scope of a module before its imports. -/
def ofDeclarations (home root : Namespace) (items : List Item) : Scope :=
  { home, root, declared := .ofList (items.filterMap Item.declaration?), imports := .empty,
    globs := [] }

/-- A scope is its declarations with the items imported one after the other. -/
theorem ofItems_eq (home root : Namespace) (items : List Item) :
    ofItems home root items = items.foldl importItem (ofDeclarations home root items) :=
  rfl

end Scope
end FieldBinder
