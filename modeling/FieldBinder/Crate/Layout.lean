import FieldBinder.Crate.Basic
import FieldBinder.Grammar.Text

/-
  From files to modules.

  A file below the source root is a module by its path: `a/b.rs` is `a::b`,
  `a/mod.rs` is `a`, and `lib.rs` is the root.  `main.rs` is the root where there
  is no `lib.rs`; what lies in `bin` belongs to other crates.
-/
namespace FieldBinder.Crate

/-- A source file: its path below the source root, its path in messages, and its text. -/
structure SourceFile where
  relative : FilePath
  path : FilePath
  text : Except FileTree.Fault String

/-- Whether a file is the root of a library. -/
def isLibraryRoot (p : FilePath) : Bool := p.same ⟨"lib.rs"⟩

/-- Whether a file belongs to the crate; `hasLibrary` says whether there is a `lib.rs`. -/
def belongs (hasLibrary : Bool) (p : FilePath) : Bool :=
  p.components.head? != some (.normal "bin") && !(hasLibrary && p.same ⟨"main.rs"⟩)

/-- The names of the modules that lead to a file from the root. -/
def moduleSegments (p : FilePath) : List String :=
  p.parentComponents.map Component.text ++
    match p.stem? with
    | some stem => if ["lib", "main", "mod"].contains stem then [] else [stem]
    | none => []

/-- Register a file under the namespace of its path. -/
def insertFile (c : Crate) (f : SourceFile) : Except SourceFault Crate :=
  match f.text with
  | .error fault => .error (.unreadable f.path fault)
  | .ok text =>
    match Item.parseFile? text with
    | none => .error (.unparsable f.path)
    | some items =>
      match c.insert ⟨c.root.segments ++ moduleSegments f.relative⟩ f.path items with
      | (c', none) => .ok c'
      | (_, some fault) => .error fault

/-- The crate of the files, which are registered in the given order. -/
def ofFiles (root : Namespace) (files : List SourceFile) : Except SourceFault Crate := do
  let hasLibrary := files.any fun f => isLibraryRoot f.relative
  let c ← (files.filter fun f => belongs hasLibrary f.relative).foldlM insertFile (empty root)
  return c.linkGlobs

/-- The crate of sources, given as paths below the source root with their texts; they are
registered in the order of their paths. -/
def ofSources (root : Namespace) (sources : List (FilePath × String)) :
    Except SourceFault Crate :=
  let sorted := sources.mergeSort fun a b => (compare a.1 b.1).isLE
  ofFiles root (sorted.map fun s => ⟨s.1, s.1, .ok s.2⟩)

end FieldBinder.Crate
