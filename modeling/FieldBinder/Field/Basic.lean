import FieldBinder.Crate.Basic
import FieldBinder.Directive.Basic

/-
  Marked fields: the fields of structs that carry a directive.
-/
namespace FieldBinder

/-- Where something stands in the sources. -/
structure Origin where
  file : FilePath
  line : Nat
deriving DecidableEq, Repr, Inhabited

/-- A place in messages. -/
def Origin.display (o : Origin) : String := o.file.text ++ ":" ++ toString o.line

/-- A field with a directive. -/
structure MarkedField where
  enclosing : TypeName
  name : String
  /-- The type of the field, as it is written. -/
  type : String
  directive : Directive
  origin : Origin

namespace MarkedField

/-- The name of the field behind the name of its struct. -/
def qualifiedName (f : MarkedField) : String := f.enclosing.display ++ "::" ++ f.name

/-- The marked field that a field of a struct is: its first attribute of the given name
is the directive. -/
def ofField? (marker : String) (m : Module) (enclosing : TypeName) (f : NamedField) :
    Option MarkedField :=
  (f.attributes.find? fun a => a.path.isIdent marker).map fun a =>
    { enclosing, name := f.name, type := f.type.render
      directive := .load m.scope a, origin := ⟨m.file, f.line⟩ }

/-- The marked fields of an item. -/
def ofItem (marker : String) (m : Module) : Item → List MarkedField
  | .struct name (.named fields) => fields.filterMap (ofField? marker m (.qualify m.home name))
  | _ => []

/-- The marked fields of a crate, in the order of the modules and of the declarations. -/
def scan (marker : String) (c : Crate) : List MarkedField :=
  c.moduleList.flatMap fun m => m.items.flatMap (ofItem marker m)

end MarkedField

/-! ### Groups -/

/-- Marked fields by enclosing type, in each group in the order in which they came. -/
abbrev FieldGroups := SortedMap TypeName (List MarkedField)

namespace FieldGroups

/-- The groups with one more field. -/
def add (g : FieldGroups) (f : MarkedField) : FieldGroups :=
  SortedMap.insert g f.enclosing ((SortedMap.get? g f.enclosing).getD [] ++ [f])

/-- The groups of a list of fields. -/
def ofFields (fields : List MarkedField) : FieldGroups := fields.foldl add SortedMap.empty

end FieldGroups

end FieldBinder
