import FieldBinder.Crate.Scope
import FieldBinder.FileTree.FilePath
import FieldBinder.FileTree.Fault

/-
  The modules of a crate.

  A crate holds its modules by namespace.  A file brings in the module that it
  is and all modules that stand in place inside it (`inlineModules`).  A name is
  followed through imports to its declaration by `canonical?`.
-/
namespace FieldBinder

/-- A module: a file, or a block inside one. -/
structure Module where
  home : Namespace
  file : FilePath
  items : List Item
  scope : Scope
deriving Inhabited

/-- The modules of a crate. -/
structure Crate where
  root : Namespace
  modules : SortedMap Namespace Module
deriving Inhabited

/-- Why sources make no crate. -/
inductive SourceFault
  | duplicateModule (home : Namespace) (first second : FilePath)
  | unreadable (path : FilePath) (fault : FileTree.Fault)
  | unparsable (path : FilePath)
deriving DecidableEq, Repr

/-- The words for a source fault; what does not parse has no words of its own. -/
def SourceFault.message : SourceFault → String
  | duplicateModule home first second =>
    "module '" ++ home.display ++ "' is declared by both " ++ first.text ++ " and " ++ second.text
  | unreadable path fault => "failed to read " ++ path.text ++ ": " ++ fault.message
  | unparsable path => "failed to parse " ++ path.text

namespace Crate

/-- A crate without modules. -/
def empty (root : Namespace) : Crate := ⟨root, .empty⟩

/-- The module of a namespace. -/
def module? (c : Crate) (home : Namespace) : Option Module := c.modules.get? home

/-- The modules in the order of their namespaces. -/
def moduleList (c : Crate) : List Module := c.modules.values

/-! ### Registering modules -/

mutual

/-- The modules that stand in place inside an item of a module, each before its own. -/
def inlineModulesOf (home : Namespace) : Item → List (Namespace × List Item)
  | .mod name (some items) =>
    (home.child name, items) :: inlineModules (home.child name) items
  | _ => []

/-- The modules that stand in place inside the items of a module. -/
def inlineModules (home : Namespace) : List Item → List (Namespace × List Item)
  | [] => []
  | i :: r => inlineModulesOf home i ++ inlineModules home r

end

/-- The crate with one more module, which replaces a former one. -/
def put (c : Crate) (file : FilePath) (home : Namespace) (items : List Item) : Crate :=
  { c with
    modules := c.modules.insert home ⟨home, file, items, Scope.ofItems home c.root items⟩ }

/-- Register modules of a file one by one; the first namespace that is taken stops it. -/
def putAll (c : Crate) (file : FilePath) :
    List (Namespace × List Item) → Crate × Option SourceFault
  | [] => (c, none)
  | (home, items) :: r =>
    match c.module? home with
    | some m => (c, some (.duplicateModule home m.file file))
    | none => (c.put file home items).putAll file r

/-- Register a file and the modules inside it.  With a fault the crate keeps what was
registered before. -/
def insert (c : Crate) (home : Namespace) (file : FilePath) (items : List Item) :
    Crate × Option SourceFault :=
  c.putAll file ((home, items) :: inlineModules home items)

/-! ### Following names -/

/-- The most rounds of linking globs; fewer imports than this are followed. -/
def hopLimit : Nat := 16

/-- The kind of the declaration that a name is, if it is one. -/
def lookup? (c : Crate) (t : TypeName) : Option DeclKind :=
  (c.module? t.home).bind fun m => m.scope.declared.get? t.name

/-- The name that a name is an import of, if it is one and no declaration. -/
def importStep? (c : Crate) (t : TypeName) : Option TypeName :=
  (c.module? t.home).bind fun m =>
    -- a declaration is no import, whatever is imported beside it
    if m.scope.declared.contains t.name then none
    else (m.scope.imports.get? t.name).bind TypeName.ofSegments?

/-- Follow fewer than `n` imports to a declaration. -/
def follow (c : Crate) : Nat → TypeName → Option (TypeName × DeclKind)
  | 0, _ => none
  | n + 1, t =>
    match c.lookup? t with
    | some kind => some (t, kind)
    | none => (c.importStep? t).bind (c.follow n)

/-- The declaration that a name leads to. -/
def canonical? (c : Crate) (t : TypeName) : Option (TypeName × DeclKind) := c.follow hopLimit t

/-! ### Globs -/

/-- The names that the globs of a scope offer and that it does not bind, with their
targets. -/
def globOffers (c : Crate) (s : Scope) : List (String × List String) :=
  s.globs.flatMap fun g =>
    match c.module? ⟨g⟩ with
    | some m => (m.scope.visibleNames.filter (!s.binds ·)).map fun name => (name, g ++ [name])
    | none => []

/-- A scope that imports an offered name unless it binds the name. -/
def accept (s : Scope) (offer : String × List String) : Scope :=
  if s.binds offer.1 then s else { s with imports := s.imports.insert offer.1 offer.2 }

/-- One round of linking: every module accepts what its globs offered before the round. -/
def linkOnce (c : Crate) : Crate :=
  { c with
    modules := c.modules.mapValues fun _ m =>
      { m with scope := (c.globOffers m.scope).foldl accept m.scope } }

/-- Whether no glob has anything to offer. -/
def isLinked (c : Crate) : Bool := c.moduleList.all fun m => (c.globOffers m.scope).isEmpty

/-- At most `n` rounds of linking. -/
def linkTimes : Nat → Crate → Crate
  | 0, c => c
  | n + 1, c => if c.isLinked then c else linkTimes n c.linkOnce

/-- Bind the names behind globs, and behind the globs of their targets. -/
def linkGlobs (c : Crate) : Crate := linkTimes hopLimit c

end Crate

end FieldBinder
