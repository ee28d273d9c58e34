import FieldBinder.Crate.Layout
import FieldBinder.FileTree.Basic

/-
  The crate of a directory.

  Every file below the directory with the extension `rs` is a source.  They are
  found directory by directory, in the order of the names.
-/
namespace FieldBinder.Crate

/-- The source files below a directory, whose path below the source root is `relative`.
The number bounds how deep directories lie in one another. -/
def sourceFiles (t : FileTree) : Nat → (path : FilePath) → (relative : FilePath) →
    Except SourceFault (List SourceFile)
  | 0, _, _ => .ok []
  | n + 1, path, relative =>
    match t.list path with
    | .error fault => .error (.unreadable path fault)
    | .ok names => do
      let found ← names.mapM fun name => do
        let path := path.join ⟨name⟩
        let relative := relative.join ⟨name⟩
        if t.isDirectory path then sourceFiles t n path relative
        else if path.extension? = some "rs" then return [⟨relative, path, t.readText path⟩]
        else return []
      return found.flatten

/-- The crate of the sources below a directory. -/
def load (t : FileTree) (path : FilePath) (root : Namespace) : Except SourceFault Crate := do
  ofFiles root (← sourceFiles t (t.entries.size + 1) path ⟨""⟩)

end FieldBinder.Crate
