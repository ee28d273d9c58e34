import FieldBinder.Field.Basic

/-
  Diagnostics: what a round has to say about the sources.
-/
namespace FieldBinder

/-- A complaint, possibly about a field. -/
structure Diagnostic where
  message : String
  origin : Option Origin := none
  element : Option String := none
deriving DecidableEq, Repr, Inhabited

namespace Diagnostic

/-- A complaint about a field. -/
def onField (f : MarkedField) (message : String) : Diagnostic :=
  ⟨message, some f.origin, some f.qualifiedName⟩

/-- The text of a diagnostic: what it is, where it belongs, what it says. -/
def display (d : Diagnostic) : String :=
  "error: " ++ (d.origin.elim "" fun o => o.display ++ ": ") ++
    (d.element.elim "" fun e => e ++ ": ") ++ d.message

end Diagnostic

end FieldBinder
