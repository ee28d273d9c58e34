import FieldBinder.Crate.Scope
import FieldBinder.Directive.Arguments

/-
  Directives: what is written at a field, and the types that it means.

  Loading a directive never fails; each of its two symbols is a type (or types)
  or the reason why there is none.  Arguments that cannot be read are the reason
  for both.
-/
namespace FieldBinder

/-- Why a symbol of a directive has no type. -/
inductive SymbolFault
  | malformed (fault : ArgumentFault)
  | missing
  | path (fault : Scope.PathFault)

namespace SymbolFault

/-- The words for a symbol without a type. -/
def message : SymbolFault → String
  | malformed fault => "malformed directive: " ++ fault.message
  | missing => "attribute is not set"
  | path fault => fault.message

end SymbolFault

/-- A directive: its arguments as written, and the types that they mean. -/
structure Directive where
  args : Arguments
  parameters : Except SymbolFault (List TypeName)
  base : Except SymbolFault TypeName

namespace Directive

/-- The type that a path means in a scope. -/
def resolvePath (s : Scope) (p : Path) : Except SymbolFault TypeName :=
  (s.resolve p).mapError .path

/-- The directive with the given arguments in a scope. -/
def ofArguments (s : Scope) (args : Arguments) : Directive where
  args := args
  parameters := match args.parameters with
    | some ps => ps.mapM (resolvePath s)
    | none => .error .missing
  base := match args.base with
    | some p => resolvePath s p
    | none => .error .missing

/-- The directive of an attribute in a scope. -/
def load (s : Scope) (a : Attribute) : Directive :=
  match Arguments.ofAttribute a with
  | .ok args => ofArguments s args
  | .error f => ⟨{}, .error (.malformed f), .error (.malformed f)⟩

/-! ### Extraction -/

/-- The types of the parameters, if they are known. -/
def parameters? (d : Directive) : Option (List TypeName) := d.parameters.toOption

/-- The base, if it is known. -/
def base? (d : Directive) : Option TypeName := d.base.toOption

/-- The types that a complete directive means. -/
structure Meaning where
  parameters : List TypeName
  base : TypeName
deriving DecidableEq, Repr

/-- The symbol of a directive that has no type, and why. -/
structure Gap where
  key : String
  fault : SymbolFault

/-- The words for an incomplete directive. -/
def Gap.message (g : Gap) : String := g.key ++ ": " ++ g.fault.message

/-- The types of a directive, or the first symbol without one. -/
def extract (d : Directive) : Except Gap Meaning := do
  let parameters ← d.parameters.mapError fun f => ⟨"constructor_parameters", f⟩
  let base ← d.base.mapError fun f => ⟨"country_parameterized_class", f⟩
  return ⟨parameters, base⟩

end Directive

end FieldBinder
