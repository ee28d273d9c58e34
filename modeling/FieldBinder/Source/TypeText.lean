import FieldBinder.Source.Tree

/-
  The written form of types and paths.

  A type is written compactly, as people write it (`Ty.render`): `Vec<String>`
  and not `Vec < String >`.  What the tree holds as tokens is written as tokens.
  Of a bound only the path is written, and of a binding `Name = Type` the name
  and the type.
-/
namespace FieldBinder

/-- Texts with a separator in between. -/
def joinTexts (sep : String) : List String → String
  | [] => ""
  | [s] => s
  | s :: s' :: r => s ++ sep ++ joinTexts sep (s' :: r)

mutual

/-- The written form of a type. -/
def Ty.render : Ty → String
  | .path p => p.render
  | .reference lifetime isMut elem =>
    "&" ++ (match lifetime with | .none => "" | .some l => l ++ " ") ++
      (if isMut then "mut " else "") ++ elem.render
  | .pointer isMut elem => (if isMut then "*mut " else "*const ") ++ elem.render
  | .slice elem => "[" ++ elem.render ++ "]"
  | .array elem len => "[" ++ elem.render ++ "; " ++ Token.textList len ++ "]"
  | .tuple elems _ =>
    "(" ++ joinTexts ", " (Ty.renderList elems) ++ (if elems.length = 1 then "," else "") ++ ")"
  | .traitObject isDyn bounds _ =>
    (if isDyn then "dyn " else "") ++ joinTexts " + " (Bound.renderList bounds)
  | .implTrait bounds _ => "impl " ++ joinTexts " + " (Bound.renderList bounds)
  | .group elem => elem.render
  | .paren elem => "(" ++ elem.render ++ ")"
  | .never => "!"
  | .infer => "_"
  | .other tokens => Token.textList tokens

/-- The written forms of types. -/
def Ty.renderList : List Ty → List String
  | [] => []
  | t :: r => t.render :: Ty.renderList r

/-- The written form of a bound. -/
def Bound.render : Bound → String
  | .trait _ _ _ path => path.render
  | .lifetime name => name
  | .other tokens => Token.textList tokens

/-- The written forms of bounds. -/
def Bound.renderList : List Bound → List String
  | [] => []
  | b :: r => b.render :: Bound.renderList r

/-- The written form of a path. -/
def Path.render : Path → String
  | .mk leading segments =>
    (if leading then "::" else "") ++ joinTexts "::" (Segment.renderList segments)

/-- The written forms of segments. -/
def Segment.renderList : List Segment → List String
  | [] => []
  | s :: r => s.render :: Segment.renderList r

/-- The written form of a segment. -/
def Segment.render : Segment → String
  | .mk ident args => ident ++ args.render

/-- The written form of the arguments of a segment. -/
def Args.render : Args → String
  | .none => ""
  | .angle turbofish args _ =>
    (if turbofish then "::" else "") ++ "<" ++ joinTexts ", " (GenericArg.renderList args) ++ ">"
  | .paren inputs _ output =>
    "(" ++ joinTexts ", " (Ty.renderList inputs) ++ ")" ++
      match output with
      | .none => ""
      | .some t => " -> " ++ t.render

/-- The written forms of generic arguments. -/
def GenericArg.renderList : List GenericArg → List String
  | [] => []
  | a :: r => a.render :: GenericArg.renderList r

/-- The written form of a generic argument. -/
def GenericArg.render : GenericArg → String
  | .lifetime name => name
  | .type t => t.render
  | .assocType name _ t => name ++ " = " ++ t.render
  | .other tokens => Token.textList tokens

end

namespace Segment

/-- The name of a segment and its arguments as tokens without blanks. -/
def display (s : Segment) : String :=
  s.ident ++ String.ofList ((Token.textList s.args.tokens).toList.filter (· != ' '))

end Segment

/-- A path in messages: its arguments are written without any blank. -/
def Path.display (p : Path) : String :=
  (if p.isLeading then "::" else "") ++ joinTexts "::" (p.segments.map Segment.display)

end FieldBinder
