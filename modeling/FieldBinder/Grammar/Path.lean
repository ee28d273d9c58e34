import FieldBinder.Grammar.Attribute

/-
  Paths with arguments.

  In an expression the arguments of a segment stand after `::`, since `<` alone
  is a comparison there; elsewhere the two may be written together.
-/
namespace FieldBinder.Grammar

/-! ### Arguments -/

/-- A value as a generic argument. -/
def constArgument (g : Rules) : Parser Unit := do
  let ts ← rest
  if isLiteral ts then discard literal
  else if isName ts then discard name
  else if isGroup .brace ts then bracedBlock g
  else expectedOneOf []

/-- Whether the tokens start with a value that needs no parentheses. -/
def isConstStart (ts : List Token) : Bool := isLiteral ts || isGroup .brace ts

/-- An argument that is a name with something after it. -/
def namedArgument (g : Rules) (ident : String) (args : Args) : Parser GenericArg := do
  let head := Token.word ident :: args.tokens
  if ← op? "=" then
    if isConstStart (← rest) then
      let (_, value) ← captured (constArgument g)
      return .other (head ++ .punct '=' false :: value)
    else return .assocType ident args (← g (.type true))
  else if ← op? ":" then
    let stop (ts : List Token) := isOp "," ts || isOp ">" ts
    let ((bounds, trailing)) ← joined "+" stop (g (.bound false true))
    return .other (head ++ .punct ':' false ::
      Token.separate '+' trailing (bounds.map Bound.tokens))
  else return .type (.path (.mk false [.mk ident args]))

/-- An argument in angle brackets. -/
def genericArg (g : Rules) : Parser GenericArg :=
  printed (fun a => a.tokens.2) do
    let ts ← rest
    if isLifetime ts && !isOp "+" (ts.drop 1) then return .lifetime (← lifetime)
    if isConstStart ts then
      let (_, value) ← captured (constArgument g)
      return .other value
    match ← g (.type true) with
    | .path (.mk false [.mk ident args]) => namedArgument g ident args
    | t => return .type t

/-- Arguments in angle brackets. -/
def angleArgs (g : Rules) (turbofish : Bool) : Parser Args := do
  if turbofish then op "::"
  op "<"
  let (args, trailing) ← separated "," (isOp ">") (genericArg g)
  op ">"
  return .angle turbofish args trailing

/-- The type of a result after an arrow. -/
def returnType (g : Rules) (plus : Bool) : Parser (Option Ty) := do
  if ← op? "->" then some <$> g (.type plus) else return none

/-- Parameters in parentheses, and the type of the result. -/
def parenArgs (g : Rules) : Parser Args := do
  let (inputs, trailing) ← inside .paren (commas (g (.type true)))
  return .paren inputs trailing (← returnType g false)

/-! ### Paths -/

/-- A segment of a path. -/
def segment (g : Rules) (inExpr : Bool) : Parser Segment :=
  printed Segment.tokens do
    if isOneOf ["super", "self", "crate", "try"] (← rest) then return .mk (← anyWord) .none
    let ident ← if isWord "Self" (← rest) then anyWord else name
    let ts ← rest
    if isOp "::" ts && isOp "<" (ts.drop 2) then return .mk ident (← angleArgs g true)
    else if !inExpr && isOp "<" ts && !isOp "<=" ts && !isOp "<<=" ts then
      return .mk ident (← angleArgs g false)
    else return .mk ident .none

/-- The segments after `::`. -/
def furtherSegments (g : Rules) (inExpr : Bool) : Parser (List Segment) :=
  many do
    let ts ← rest
    if isOp "::" ts && !isGroup .paren (ts.drop 2) then
      op "::"
      some <$> segment g inExpr
    else return none

/-- A path. -/
def path (g : Rules) (inExpr : Bool) : Parser Path := do
  let leading ← op? "::"
  let first ← segment g inExpr
  return .mk leading (first :: (← furtherSegments g inExpr))

/-- A path through a type, as in `<T as Trait>::Name`. -/
def traitPath (g : Rules) (inExpr : Bool) : Parser Unit := do
  op "<"
  discard (g (.type true))
  if ← word? "as" then discard (path g false)
  op ">"
  op "::"
  discard (joined "::" (fun _ => false) (segment g inExpr))

/-- A path, or none if it goes through a type. -/
def anyPath (g : Rules) (inExpr : Bool) : Parser (Option Path) := do
  if isOp "<" (← rest) then
    traitPath g inExpr
    return none
  else some <$> path g inExpr

end FieldBinder.Grammar
