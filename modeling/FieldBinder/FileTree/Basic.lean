import FieldBinder.FileTree.Fault
import FieldBinder.FileTree.FilePath
import FieldBinder.SortedMap

/-
  A tree of directories and files.

  Every directory and file has a location, the names that lead to it from the
  root; the root itself is a directory and no entry.  A path is followed name by
  name through directories (`FileTree.locate`).  Names and paths have a greatest
  length.  Nobody else writes to a tree, and everything in it can be read and
  written.
-/
namespace FieldBinder

/-- What a location of a file tree holds. -/
inductive FileTree.Entry
  | directory
  | file (bytes : ByteArray)
deriving Inhabited

/-- Whether an entry is a directory. -/
def FileTree.Entry.isDirectory : FileTree.Entry → Bool
  | .directory => true
  | .file _ => false

/-- The directories and files by location. -/
structure FileTree where
  entries : SortedMap (List String) FileTree.Entry
deriving Inhabited

namespace FileTree

/-- The tree that holds its root only. -/
def empty : FileTree := ⟨.empty⟩

/-! ### Locations -/

/-- The entry of a location. -/
def get? (t : FileTree) (loc : List String) : Option Entry :=
  if loc.isEmpty then some .directory else t.entries.get? loc

/-- The entry of a location, or that there is none. -/
def entry (t : FileTree) (loc : List String) : Except Fault Entry :=
  match t.get? loc with
  | some e => .ok e
  | none => .error .notFound

/-- The tree with another entry at a location. -/
def put (t : FileTree) (loc : List String) (e : Entry) : FileTree :=
  ⟨t.entries.insert loc e⟩

/-- The tree without a location and what lies below it. -/
def erase (t : FileTree) (loc : List String) : FileTree :=
  ⟨t.entries.filterKeys fun l => !loc.isPrefixOf l⟩

/-- The most bytes that a name can have. -/
def nameLimit : Nat := 255

/-- The most bytes that a path can have. -/
def pathLimit : Nat := 4095

/-- The location that a component leads to from a directory. -/
def step (t : FileTree) (loc : List String) (c : Component) : Except Fault (List String) :=
  match t.get? loc with
  | none => .error .notFound
  | some (.file _) => .error .notADirectory
  | some .directory =>
    match c with
    | .root => .ok []
    | .current => .ok loc
    | .parent => .ok loc.dropLast
    | .normal name =>
      if name.utf8ByteSize ≤ nameLimit then .ok (loc ++ [name]) else .error .nameTooLong

/-- The location that components lead to from the root; the directories on the way exist. -/
def follow (t : FileTree) (cs : List Component) : Except Fault (List String) :=
  cs.foldlM t.step []

/-- What is wrong with a path wherever it leads, if anything is. -/
def accept (p : FilePath) : Except Fault Unit :=
  if p.text.toList.contains '\x00' then .error .nullInName
  else if pathLimit < p.text.utf8ByteSize then .error .nameTooLong
  else .ok ()

/-- The location that a path leads to; the directories on the way exist, and so does the
one that a path with a slash at its end leads to. -/
def locate (t : FileTree) (p : FilePath) : Except Fault (List String) := do
  accept p
  t.follow (if p.endsInSlash then p.steps ++ [.current] else p.steps)

/-- The names in a directory. -/
def names (t : FileTree) (loc : List String) : List String :=
  t.entries.keys.filterMap fun l =>
    match l.getLast? with
    | some name => if l.dropLast = loc then some name else none
    | none => none

/-! ### Reading -/

/-- Whether a path leads to something. -/
def contains (t : FileTree) (p : FilePath) : Bool :=
  match t.locate p with
  | .ok loc => (t.get? loc).isSome
  | .error _ => false

/-- Whether a path leads to a directory. -/
def isDirectory (t : FileTree) (p : FilePath) : Bool :=
  match t.locate p with
  | .ok loc => (t.get? loc).any Entry.isDirectory
  | .error _ => false

/-- The bytes of a file. -/
def read (t : FileTree) (p : FilePath) : Except Fault ByteArray := do
  match ← t.entry (← t.locate p) with
  | .directory => throw .isADirectory
  | .file bytes => return bytes

/-- The text of a file. -/
def readText (t : FileTree) (p : FilePath) : Except Fault String := do
  match String.fromUTF8? (← t.read p) with
  | some s => return s
  | none => throw .notText

/-- The names in a directory, in ascending order. -/
def list (t : FileTree) (p : FilePath) : Except Fault (List String) := do
  let loc ← t.locate p
  match ← t.entry loc with
  | .directory => return t.names loc
  | .file _ => throw .notADirectory

/-! ### Writing -/

/-- Make a directory unless it exists; the directory above it exists. -/
def makeDirectory (t : FileTree) (cs : List Component) : Except Fault FileTree := do
  let loc ← t.follow cs
  match t.get? loc with
  | some .directory => return t
  | some (.file _) => throw .exists_
  | none => return t.put loc .directory

/-- Make the first of the directories; when the way to it is missing, make the others
first.  What was made before a fault stays. -/
def makeFirst (t : FileTree) : List (List Component) → FileTree × Option Fault
  | [] => (t, none)
  | cs :: above =>
    match t.makeDirectory cs with
    | .ok t' => (t', none)
    | .error .notFound =>
      match t.makeFirst above with
      | (t', none) =>
        match t'.makeDirectory cs with
        | .ok t'' => (t'', none)
        | .error fault => (t', some fault)
      | failed => failed
    | .error fault => (t, some fault)

/-- Make a directory and the directories above it, as far as they are missing. -/
def makeDirectories (t : FileTree) (p : FilePath) : FileTree × Option Fault :=
  match accept p with
  | .ok () => t.makeFirst (p.steps :: p.above)
  | .error fault => (t, some fault)

/-- Write a file, new or not; its directory exists. -/
def write (t : FileTree) (p : FilePath) (bytes : ByteArray) : Except Fault FileTree := do
  let loc ← t.locate p
  match t.get? loc with
  | some .directory => throw .isADirectory
  | _ => return t.put loc (.file bytes)

/-- Remove a file. -/
def removeFile (t : FileTree) (p : FilePath) : Except Fault FileTree := do
  let loc ← t.locate p
  match ← t.entry loc with
  | .directory => throw .isADirectory
  | .file _ => return t.erase loc

/-- The location that a path gives to a file: the last component is a name, and no slash
comes after it. -/
def place (t : FileTree) (p : FilePath) : Except Fault (List String) := do
  if p.text.toList.contains '\x00' then throw .invalidArgument
  accept p
  let loc ← t.follow p.steps
  match p.steps.getLast? with
  | some (.normal _) => if p.endsInSlash then throw .notADirectory else return loc
  | _ => throw .busy

/-- Move a file to another place, where it replaces a file but no directory. -/
def rename (t : FileTree) (source target : FilePath) : Except Fault FileTree := do
  let bytes ← t.read source
  let loc ← t.place target
  match t.get? loc with
  | some .directory => throw .isADirectory
  | _ => (t.put loc (.file bytes)).removeFile source

end FileTree

end FieldBinder
