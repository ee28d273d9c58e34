import FieldBinder.Text.Blank

/-
  Module paths.

  A namespace is the list of module names that leads from the outside to a
  module, such as `crate::geo`.  It is written with `::` between the segments
  (`Namespace.display`) and read back by `Namespace.parse?`, which forgives
  blanks around the segments but no empty segment.
-/
namespace FieldBinder

/-- A module path; the empty one holds the names that no module qualifies. -/
structure Namespace where
  segments : List String
deriving DecidableEq, Repr, Inhabited

namespace Namespace

/-- Namespaces are ordered segment by segment, a module before what it contains. -/
instance : Ord Namespace := ⟨compareOn segments⟩

instance : Std.TransOrd Namespace :=
  (inferInstance : Std.TransCmp (compareOn segments))

instance : Std.LawfulEqOrd Namespace where
  compare_self {a} := Std.ReflOrd.compare_self (a := a.segments)
  eq_of_compare {a b} h := by
    have := Std.LawfulEqOrd.eq_of_compare (show compare a.segments b.segments = .eq from h)
    cases a; cases b; simp_all

/-- The namespace without segments. -/
def root : Namespace := ⟨[]⟩

/-! ### Text -/

/-- The pieces between the separators `::`, searched from the left. -/
def cutAtColons : List Char → List (List Char)
  | [] => [[]]
  | ':' :: ':' :: r => [] :: cutAtColons r
  | c :: r =>
    match cutAtColons r with
    | [] => [[c]]
    | p :: ps => (c :: p) :: ps

/-- The segments of a path text: its pieces between `::`, without blanks around them. -/
def cutPath (cs : List Char) : List String :=
  (cutAtColons cs).map fun p => String.ofList (Text.trimChars p)

/-- Read a path text.  A blank text is the empty namespace; a path with an empty
segment is none. -/
def parse? (s : String) : Option Namespace :=
  match Text.trimChars s.toList with
  | [] => some root
  | c :: r =>
    let segments := cutPath (c :: r)
    if segments.contains "" then none else some ⟨segments⟩

/-- The segments with `::` between them. -/
def display (n : Namespace) : String := "::".intercalate n.segments

/-! ### Position -/

/-- The namespace of a module directly below. -/
def child (n : Namespace) (segment : String) : Namespace := ⟨n.segments ++ [segment]⟩

/-- The namespace of the enclosing module; the empty namespace has none. -/
def parent? (n : Namespace) : Option Namespace :=
  if n.segments.isEmpty then none else some ⟨n.segments.dropLast⟩

/-- Whether a namespace equals another one or lies below it. -/
def isWithin (n outer : Namespace) : Bool := outer.segments.isPrefixOf n.segments

/-- The segments below an enclosing namespace; all segments if it does not enclose. -/
def relativeTo (n outer : Namespace) : List String :=
  if n.isWithin outer then n.segments.drop outer.segments.length else n.segments

theorem isWithin_iff {n outer : Namespace} :
    n.isWithin outer = true ↔ outer.segments <+: n.segments := by
  simp [isWithin]

theorem append_relativeTo {n outer : Namespace} (h : n.isWithin outer = true) :
    outer.segments ++ n.relativeTo outer = n.segments := by
  obtain ⟨t, ht⟩ := isWithin_iff.1 h
  simp [relativeTo, h, ← ht]

end Namespace

end FieldBinder
