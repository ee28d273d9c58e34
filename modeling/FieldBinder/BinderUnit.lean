import FieldBinder.Field.Basic
import FieldBinder.Text.SnakeCase

/-
  Units: the text that is generated for a struct.

  A unit names its struct, and has a stub line for every field whose directive
  is complete.  It is written to a file below the output directory, in one
  directory per module below the root.
-/
namespace FieldBinder

/-- A generated text and the file that it is for. -/
structure BinderUnit where
  enclosing : TypeName
  name : String
  path : FilePath
  lines : List String
deriving DecidableEq, Repr, Inhabited

namespace BinderUnit

/-- The text of a unit: its lines, each with a line break. -/
def contents (u : BinderUnit) : String := "\n".intercalate u.lines ++ "\n"

/-- The name of the unit of a type. -/
def nameOf (suffix : String) (t : TypeName) : String := t.name ++ suffix

/-- The file of the unit of a type, below the output directory. -/
def pathOf (root : Namespace) (suffix : String) (t : TypeName) : FilePath :=
  (FilePath.ofSegments (t.home.relativeTo root)).join
    ⟨Text.snakeCase (nameOf suffix t) ++ ".rs"⟩

/-- The stub line of a field. -/
def stubLine (f : MarkedField) (d : Directive.Meaning) : String :=
  "    // pub const " ++ f.name ++ "_binder: BinderFn<[" ++
    joinTexts ", " (d.parameters.map TypeName.display) ++ "], " ++ d.base.display ++ ", " ++
    f.type ++ "> = |u, b| None;"

/-- The lines of a unit in front of its stubs. -/
def opening (suffix : String) (t : TypeName) : List String :=
  ["// @generated by country-binder-build. Do not edit.",
    "// namespace: " ++ t.home.display,
    "// source: " ++ t.display,
    "",
    "pub struct " ++ nameOf suffix t ++ ";",
    "",
    "impl " ++ nameOf suffix t ++ " \x7b"]

/-- The unit of a type with the given stub lines. -/
def ofStubs (root : Namespace) (suffix : String) (t : TypeName) (stubs : List String) :
    BinderUnit where
  enclosing := t
  name := nameOf suffix t
  path := pathOf root suffix t
  lines := opening suffix t ++ stubs ++ ["\x7d"]

end BinderUnit

end FieldBinder
