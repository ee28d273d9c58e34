import FieldBinder.Directive.Basic
import FieldBinder.Text.Quoted

/-
  The check of the directives in a struct, for a compiler that has no scope.

  Every directive of every field is checked, not only the first of a field.  The
  answer is a list of complaints, which is written as calls of the macro that
  makes a compiler report them.
-/
namespace FieldBinder

/-- What is wrong with a struct or with a directive in it. -/
inductive Complaint
  | notAStruct
  | unnamedField
  | arguments (fault : ArgumentFault)
  | missing (key : String)
  | path (fault : Scope.PathFault)

namespace Complaint

/-- The attribute that is checked. -/
def marker : String := "country_field_binder"

/-- The words of a complaint. -/
def message : Complaint → String
  | notAStruct => "CountryFieldBinders can only be derived for structs"
  | unnamedField => marker ++ " is only supported on named fields"
  | arguments fault => fault.message
  | missing key => marker ++ ": " ++ key ++ " is not set"
  | path fault => fault.message

/-- The complaint about a path with arguments. -/
def ofPath? (p : Path) : Option Complaint :=
  if p.isPlain then none else some (.path (.genericArguments p.display))

/-- The complaint about a directive of a field with a name. -/
def ofDirective? (a : Attribute) : Option Complaint :=
  match Arguments.ofAttribute a with
  | .error fault => some (.arguments fault)
  | .ok args =>
    match args.parameters, args.base with
    | none, _ => some (.missing "constructor_parameters")
    | some _, none => some (.missing "country_parameterized_class")
    | some ps, some base => (ps ++ [base]).findSome? ofPath?

/-- The directives among attributes. -/
def directives (attributes : List Attribute) : List Attribute :=
  attributes.filter fun a => a.path.isIdent marker

/-- The complaints about the fields of a struct, in order. -/
def ofFields : Fields → List Complaint
  | .named fields => fields.flatMap fun f => (directives f.attributes).filterMap ofDirective?
  | .tuple attributes => attributes.flatMap fun l => (directives l).map fun _ => .unnamedField
  | .unit => []

/-- The complaints about an item. -/
def ofItem : Item → List Complaint
  | .struct _ fields => ofFields fields
  | _ => [.notAStruct]

/-- A complaint as the macro call that reports it. -/
def macroCall (c : Complaint) : String :=
  ":: core :: compile_error ! \x7b " ++ Text.quote c.message ++ " \x7d"

/-- Complaints as macro calls. -/
def macroCalls (cs : List Complaint) : String := joinTexts " " (cs.map macroCall)

end Complaint

end FieldBinder
