import FieldBinder.Grammar.Phrase

/-
  Attributes, and the plain paths that name them.
-/
namespace FieldBinder.Grammar

/-- The words of a path without arguments; `accepts` says which words it may hold. -/
def plainSegments (accepts : List Token → Bool) : Nat → Parser (List Segment × Bool)
  | 0 => return ([], false)
  | n + 1 => do
    unless accepts (← rest) do return ([], true)
    let s := Segment.mk (← anyWord) .none
    if ← op? "::" then
      let (r, trailing) ← plainSegments accepts n
      return (s :: r, trailing)
    else return ([s], false)

/-- Whether the tokens start with a name or a word that stands for a module. -/
def isPathWord (ts : List Token) : Bool :=
  isName ts || isOneOf ["super", "self", "Self", "crate"] ts

/-- A path without arguments. -/
def plainPath : Parser Path := do
  let leading ← op? "::"
  let (segments, trailing) ← plainSegments isPathWord ((← rest).length + 1)
  if segments.isEmpty then return .mk leading [.mk (← name) .none]
  if trailing then expected "path segment after `::`"
  return .mk leading segments

/-- The value after an equals sign: a literal and nothing else, or an expression. -/
def attributeValue (g : Rules) : Parser Expr := do
  let whole ← attempt? do
    let t ← literal
    unless (← rest).isEmpty do expected "end"
    return t
  match whole with
  | some t => return .literal t
  | none =>
    let ts ← rest
    if isOp "#" ts && isGroup .bracket (ts.drop 1) then fail .nestedAttribute
    g (.expr true)

/-- What stands in the brackets of an attribute. -/
def attributeBody (g : Rules) : Parser Attribute := do
  let path ← if ← word? "unsafe" then pure (Path.ofIdent "unsafe") else plainPath
  match ← rest with
  | .group _ _ :: _ => return ⟨path, .list (← anyGroup).2⟩
  | ts =>
    if isOp "=" ts && !isOp "==" ts && !isOp "=>" ts then
      op "="
      return ⟨path, .value (← attributeValue g)⟩
    else return ⟨path, .none⟩

/-- An attribute of what follows it. -/
def outerAttribute (g : Rules) : Parser Attribute := do
  op "#"
  inside .bracket (attributeBody g)

/-- The attributes of what follows them. -/
def outerAttributes (g : Rules) : Parser (List Attribute) :=
  many do if isOp "#" (← rest) then some <$> outerAttribute g else return none

/-- The attributes of what they stand in. -/
def innerAttributes (g : Rules) : Parser (List Attribute) :=
  many do
    let ts ← rest
    if isOp "#" ts && isOp "!" (ts.drop 1) then
      op "#"
      op "!"
      some <$> inside .bracket (attributeBody g)
    else return none

/-- Statements in braces, behind the attributes of the block. -/
def bracedBlock (g : Rules) : Parser Unit :=
  inside .brace do
    discard (innerAttributes g)
    g .statements

end FieldBinder.Grammar
