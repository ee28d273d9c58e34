import FieldBinder.FileTree.Basic
import FieldBinder.Round

/-
  Units written below a directory of a file tree.

  A commit has two passes.  The first writes every unit whose file differs to a
  temporary file beside its target; the second renames the temporary files.
  When a rename fails, the renames before it are undone, newest first, and the
  temporary files are removed; directories that were made stay.
-/
namespace FieldBinder

/-- An output directory, with the lists of the last commit. -/
structure DiskSink where
  out : FilePath
  /-- The files that the last commit wrote. -/
  written : List FilePath := []
  /-- The files that had the right contents before. -/
  unchanged : List FilePath := []
deriving DecidableEq, Repr, Inhabited

namespace DiskSink

/-- A unit in a temporary file beside its target. -/
structure Staged where
  temporary : FilePath
  target : FilePath

/-- What the first pass has done. -/
structure Staging where
  tree : FileTree
  staged : List Staged := []
  unchanged : List FilePath := []

/-! ### Temporary names -/

/-- The names that the targets of units are made of. -/
def targetNames (out : FilePath) (units : List BinderUnit) : List String :=
  units.flatMap fun u => (out.join u.path).components.map Component.text

/-- The first temporary name that is not in use; among as many as there are names in use,
and one more, there is one. -/
def temporaryName (inUse : List String) : String :=
  let names := (List.range (inUse.length + 1)).map fun k => ".tmp" ++ toString k
  (names.find? fun name => !inUse.contains name).getD ".tmp"

/-! ### Staging -/

/-- Whether a file holds a text. -/
def holds (t : FileTree) (p : FilePath) (text : String) : Bool :=
  match t.readText p with
  | .ok found => found == text
  | .error _ => false

/-- Stage one unit; no temporary file takes one of the names that are `reserved`.  With a fault
goes what was staged before it. -/
def stageUnit (out : FilePath) (reserved : List String) (s : Staging) (u : BinderUnit) :
    Except (Staging × EmissionFault) Staging :=
  let target := out.join u.path
  if holds s.tree target u.contents then .ok { s with unchanged := s.unchanged ++ [target] }
  else
    let dir := target.parent?.getD ⟨"."⟩
    match s.tree.makeDirectories dir with
    | (tree, some fault) => .error ({ s with tree }, .unwritable dir fault)
    | (tree, none) =>
      let temporary := dir.join ⟨temporaryName (tree.entries.keys.flatten ++ reserved)⟩
      match tree.write temporary u.contents.toUTF8 with
      | .error fault => .error ({ s with tree }, .unwritable target fault)
      | .ok tree => .ok { s with tree, staged := s.staged ++ [⟨temporary, target⟩] }

/-- Stage units until one fails. -/
def stageUnits (out : FilePath) (units : List BinderUnit) (tree : FileTree) :
    Except (Staging × EmissionFault) Staging :=
  units.foldlM (stageUnit out (targetNames out units)) { tree }

/-- Remove temporary files. -/
def discardStaged (t : FileTree) (staged : List Staged) : FileTree :=
  staged.foldl (fun t s => (t.removeFile s.temporary).toOption.getD t) t

/-! ### Renaming -/

/-- A target that was renamed to, with what it held before. -/
structure Persisted where
  target : FilePath
  previous : Option ByteArray

/-- Put back what a target held before. -/
def undo (t : FileTree) (p : Persisted) : FileTree :=
  let restored := match p.previous with
    | some bytes => t.write p.target bytes
    | none => t.removeFile p.target
  restored.toOption.getD t

/-- Rename temporary files until one fails; `done` are the targets so far, newest first.
After a failure the tree holds what it held before. -/
def persist (t : FileTree) (done : List Persisted) :
    List Staged → FileTree × Except EmissionFault (List FilePath)
  | [] => (t, .ok (done.reverse.map Persisted.target))
  | s :: r =>
    let previous := (t.read s.target).toOption
    match t.rename s.temporary s.target with
    | .ok t' => persist t' (⟨s.target, previous⟩ :: done) r
    | .error fault =>
      (discardStaged (done.foldl undo t) (s :: r), .error (.unwritable s.target fault))

/-! ### Commit -/

/-- Commit units to the output directory: all of them, or none. -/
def commit (units : List BinderUnit) (state : DiskSink × FileTree) :
    Except EmissionFault Unit × DiskSink × FileTree :=
  let (sink, tree) := state
  -- first pass: nothing that is in use changes
  match stageUnits sink.out units tree with
  | .error (s, fault) =>
    (.error fault, { sink with written := [], unchanged := s.unchanged },
      discardStaged s.tree s.staged)
  | .ok s =>
    -- second pass: every step can be undone
    match persist s.tree [] s.staged with
    | (tree, .ok targets) =>
      (.ok (), { sink with written := targets, unchanged := s.unchanged }, tree)
    | (tree, .error fault) =>
      (.error fault, { sink with written := [], unchanged := s.unchanged }, tree)

end DiskSink

end FieldBinder
