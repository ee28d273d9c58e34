import FieldBinder.Name.TypeName
import FieldBinder.Source.TypeText
import FieldBinder.SortedMap

/-
  The names that are visible inside one module.

  A scope holds what the module declares, what its `use` items import, already
  as absolute paths, and the modules whose names it imports with a glob.  A path
  is made absolute by its first segment (`Scope.absolute?`): `crate`, `self` and
  `super` lead to a module, an imported name to its target, a declared name to
  the module itself; any other path stays as it is written, so that the names of
  the language survive.
-/
namespace FieldBinder

/-- The kinds of declarations. -/
inductive DeclKind
  | enum
  | module
  | struct
  | trait
  | typeAlias
  | union
deriving DecidableEq, Repr, Inhabited

namespace DeclKind

/-- The name of a kind in messages. -/
def label : DeclKind → String
  | enum => "Enum"
  | module => "Module"
  | struct => "Struct"
  | trait => "Trait"
  | typeAlias => "TypeAlias"
  | union => "Union"

/-- Whether there are values of a type of this kind, as opposed to traits and aliases. -/
def isConcrete : DeclKind → Bool
  | struct | enum | union => true
  | _ => false

end DeclKind

/-- The name that an item declares, and its kind. -/
def Item.declaration? : Item → Option (String × DeclKind)
  | .struct name _ => some (name, .struct)
  | .enum name => some (name, .enum)
  | .union name => some (name, .union)
  | .trait name _ => some (name, .trait)
  | .typeAlias name => some (name, .typeAlias)
  | .mod name _ => some (name, .module)
  | _ => none

/-! ### The leaves of `use` trees -/

/-- What one leaf of a `use` tree imports. -/
inductive UseLeaf
  /-- The target under a name. -/
  | binding (name : String) (target : List String)
  /-- All names of the target. -/
  | glob (target : List String)
deriving DecidableEq, Repr

mutual

/-- The leaves of a tree below a path, in the order in which they are written.  A leaf
`self` means the path itself, and a leaf renamed to `_` binds nothing. -/
def UseTree.leaves (before : List String) : UseTree → List UseLeaf
  | .path ident tree => tree.leaves (before ++ [ident])
  | .name ident =>
    if ident = "self" then (before.getLast?.map (.binding · before)).toList
    else [.binding ident (before ++ [ident])]
  | .rename ident alias_ =>
    if alias_ = "_" then []
    else if ident = "self" then [.binding alias_ before]
    else [.binding alias_ (before ++ [ident])]
  | .glob => [.glob before]
  | .group trees => UseTree.leavesList before trees

/-- The leaves of trees below a path. -/
def UseTree.leavesList (before : List String) : List UseTree → List UseLeaf
  | [] => []
  | t :: r => t.leaves before ++ UseTree.leavesList before r

end

namespace UseLeaf

/-- The name and the target of a leaf that binds a name. -/
def binding? : UseLeaf → Option (String × List String)
  | .binding name target => some (name, target)
  | .glob _ => none

/-- The target of a glob. -/
def glob? : UseLeaf → Option (List String)
  | .binding _ _ => none
  | .glob target => some target

end UseLeaf

/-! ### Scopes -/

/-- The names of a module. -/
structure Scope where
  home : Namespace
  /-- The namespace that `crate` means. -/
  root : Namespace
  declared : SortedMap String DeclKind
  imports : SortedMap String (List String)
  /-- The modules whose names are imported with `*`. -/
  globs : List (List String)
deriving Inhabited

namespace Scope

/-- Climb one module for every `super` and go on with the rest; none above the root. -/
def climb (root base : Namespace) : List String → Option (List String)
  | [] => some base.segments
  | s :: r =>
    if s = "super" then
      if base.segments.length ≤ root.segments.length then none
      else climb root ⟨base.segments.dropLast⟩ r
    else some (base.segments ++ s :: r)

/-- The absolute form of a path in a scope; none if it climbs above the root. -/
def absolute? (s : Scope) (leading : Bool) (segments : List String) : Option (List String) :=
  match leading, segments with
  | true, _ => some segments
  | false, [] => some []
  | false, first :: r =>
    if first = "crate" then some (s.root.segments ++ r)
    else if first = "self" then some (s.home.segments ++ r)
    else if first = "super" then climb s.root s.home segments
    else
      -- an import hides a declaration of the same name
      match s.imports.get? first with
      | some target => some (target ++ r)
      | none =>
        if s.declared.contains first then some (s.home.segments ++ segments)
        else some segments

/-- Whether a name is declared or imported. -/
def binds (s : Scope) (name : String) : Bool :=
  s.declared.contains name || s.imports.contains name

/-- The names that are declared, then those that are imported. -/
def visibleNames (s : Scope) : List String := s.declared.keys ++ s.imports.keys

/-- A scope that imports one more name, if the path stays in the crate. -/
def importName (leading : Bool) (s : Scope) (leaf : String × List String) : Scope :=
  match s.absolute? leading leaf.2 with
  | some target => { s with imports := s.imports.insert leaf.1 target }
  | none => s

/-- A scope with one more glob, if the path stays in the crate. -/
def importGlob (leading : Bool) (s : Scope) (target : List String) : Scope :=
  match s.absolute? leading target with
  | some target => { s with globs := s.globs ++ [target] }
  | none => s

/-- A scope with the imports of an item: first the names, one after the other, then the
globs. -/
def importItem (s : Scope) : Item → Scope
  | .use leading tree =>
    let leaves := tree.leaves []
    (leaves.filterMap UseLeaf.glob?).foldl (importGlob leading)
      ((leaves.filterMap UseLeaf.binding?).foldl (importName leading) s)
  | _ => s

/-- The scope of a module with the given items. -/
def ofItems (home root : Namespace) (items : List Item) : Scope :=
  items.foldl importItem
    { home, root, declared := .ofList (items.filterMap Item.declaration?),
      imports := .empty, globs := [] }

/-! ### Resolution -/

/-- Why a path names no type. -/
inductive PathFault
  | genericArguments (path : String)
  | outsideCrate (path : String)
deriving DecidableEq, Repr

/-- The words for a path that names no type. -/
def PathFault.message : PathFault → String
  | genericArguments path =>
    "type reference '" ++ path ++ "' must not carry generic arguments"
  | outsideCrate path => "type reference '" ++ path ++ "' climbs above the crate root"

/-- The type that a path means in a scope. -/
def resolve (s : Scope) (p : Path) : Except PathFault TypeName :=
  if !p.isPlain then .error (.genericArguments p.display)
  else
    match (s.absolute? p.isLeading p.idents).bind TypeName.ofSegments? with
    | some t => .ok t
    | none => .error (.outsideCrate p.display)

end Scope

end FieldBinder
