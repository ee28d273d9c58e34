/-
  File paths as they are written, and the components they are made of.

  Two paths are the same place when their components agree: repeated slashes,
  a trailing slash and a `.` inside a path make no difference, while a leading
  `.` and every `..` are components of their own.  Paths are displayed as they
  were written and ordered by their components.
-/
namespace FieldBinder

/-- One step of a path. -/
inductive Component
  | root
  | current
  | parent
  | normal (name : String)
deriving DecidableEq, Repr, Inhabited

namespace Component

/-- The kind of a component, in the order of paths. -/
def rank : Component → Nat
  | root => 0
  | current => 1
  | parent => 2
  | normal _ => 3

/-- The written form of a component. -/
def text : Component → String
  | root => "/"
  | current => "."
  | parent => ".."
  | normal name => name

instance : Ord Component := ⟨compareLex (compareOn rank) (compareOn text)⟩

instance : Std.TransOrd Component :=
  (inferInstance : Std.TransCmp (compareLex (compareOn rank) (compareOn text)))

theorem eq_of_rank_text {a b : Component} (hr : a.rank = b.rank) (ht : a.text = b.text) :
    a = b := by
  cases a <;> cases b <;> simp_all [rank, text]

instance : Std.LawfulEqOrd Component where
  compare_self {a} :=
    (inferInstance : Std.ReflCmp (compareLex (compareOn rank) (compareOn text))).compare_self
  eq_of_compare {a b} h := by
    rw [show compare a b = (compare a.rank b.rank).then (compare a.text b.text) from rfl,
      Ordering.then_eq_eq] at h
    exact eq_of_rank_text (Std.LawfulEqOrd.eq_of_compare h.1)
      (Std.LawfulEqOrd.eq_of_compare h.2)

end Component

/-- A path, kept as it was written. -/
structure FilePath where
  text : String
deriving DecidableEq, Repr, Inhabited

namespace FilePath

/-! ### Components -/

/-- The pieces of a text between slashes. -/
def cutAtSlashes : List Char → List (List Char)
  | [] => [[]]
  | '/' :: r => [] :: cutAtSlashes r
  | c :: r =>
    match cutAtSlashes r with
    | [] => [[c]]
    | p :: ps => (c :: p) :: ps

/-- The component that a piece inside a path stands for, if it stands for one. -/
def componentOf? (piece : List Char) : Option Component :=
  if piece = [] ∨ piece = ['.'] then none
  else if piece = ['.', '.'] then some .parent
  else some (.normal (String.ofList piece))

/-- Whether a path starts at the root. -/
def isAbsolute (p : FilePath) : Bool := p.text.toList.head? == some '/'

/-- The components of a path. -/
def components (p : FilePath) : List Component :=
  let pieces := cutAtSlashes p.text.toList
  let lead : List Component :=
    if p.isAbsolute then [.root]
    else if pieces.head? == some ['.'] then [.current]
    else []
  lead ++ pieces.filterMap componentOf?

/-- Whether a slash ends a path. -/
def endsInSlash (p : FilePath) : Bool := p.text.toList.getLast? == some '/'

/-- The components of a path, among which a `.` at its end counts. -/
def steps (p : FilePath) : List Component :=
  match ((cutAtSlashes p.text.toList).filter (!·.isEmpty)).getLast? with
  | some ['.'] => p.components ++ [.current]
  | _ => p.components

/-- The components of the directories above the place of a path, the nearest first. -/
def above (p : FilePath) : List (List Component) :=
  (List.range p.components.length).reverse.map fun k => p.components.take k

/-- Whether two paths name the same place. -/
def same (p q : FilePath) : Bool := p.components == q.components

instance : Ord FilePath := ⟨compareOn components⟩

/-! ### Joining -/

/-- The path `q` seen from the directory `p`; an absolute path stays as it is. -/
def join (p q : FilePath) : FilePath :=
  if q.isAbsolute then q
  else
    match p.text.toList.getLast? with
    | none => q
    | some c => if c = '/' then ⟨p.text ++ q.text⟩ else ⟨p.text ++ "/" ++ q.text⟩

/-- The path that leads through the segments, one directory each. -/
def ofSegments (segments : List String) : FilePath :=
  segments.foldl (fun p s => p.join ⟨s⟩) ⟨""⟩

/-! ### Names -/

/-- The name of the file that a path leads to; a path that ends in `..`, the root and
the empty path lead to none. -/
def fileName? (p : FilePath) : Option String :=
  match p.components.getLast? with
  | some (.normal name) => some name
  | _ => none

/-- The parts of a file name before and after its last dot, a dot at the start not counting. -/
def cutAtLastDot (name : String) : List Char × Option (List Char) :=
  let cs := name.toList
  let tail := cs.reverse.takeWhile (· != '.')
  match cs.reverse.dropWhile (· != '.') with
  | [] | [_] => (cs, none)
  -- `..` has dots and no extension
  | _ :: stem => if cs = ['.', '.'] then (cs, none) else (stem.reverse, some tail.reverse)

/-- The file name without its extension. -/
def stem? (p : FilePath) : Option String :=
  p.fileName?.map fun name => String.ofList (cutAtLastDot name).1

/-- The part of the file name after its last dot. -/
def extension? (p : FilePath) : Option String :=
  p.fileName?.bind fun name => (cutAtLastDot name).2.map String.ofList

/-! ### Parts of a path -/

/-- The components of the directory that a path lies in. -/
def parentComponents (p : FilePath) : List Component :=
  match p.components.getLast? with
  | none | some .root => []
  | some _ => p.components.dropLast

/-- The pieces without the last ones that stand for no component. -/
def dropIdle (pieces : List (List Char)) : List (List Char) :=
  (pieces.reverse.dropWhile fun q => (componentOf? q).isNone).reverse

/-- The pieces without the last one that stands for a component. -/
def dropLastPiece (pieces : List (List Char)) : List (List Char) :=
  dropIdle (dropIdle pieces).dropLast

/-- The directory that a path lies in, written as in the path. -/
def parent? (p : FilePath) : Option FilePath :=
  let write (pieces : List (List Char)) : FilePath :=
    ⟨String.ofList (List.intercalate ['/'] pieces)⟩
  match p.components.getLast?, cutAtSlashes p.text.toList with
  | none, _ | some .root, _ => none
  | some .current, _ | _, [] => some ⟨""⟩
  | some _, lead :: body =>
    if p.isAbsolute then
      match dropLastPiece body with
      | [] => some ⟨"/"⟩
      | rest => some (write (lead :: rest))
    else if lead = ['.'] then some (write (lead :: dropLastPiece body))
    else some (write (dropLastPiece (lead :: body)))

end FilePath

end FieldBinder
