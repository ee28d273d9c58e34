import FieldBinder.Grammar.Path

/-
  Generic parameters, `for` binders and `where` clauses.

  Parameters are printed with the lifetimes in front.  A colon without bounds, a
  `where` without predicates and angle brackets without parameters are not
  printed.
-/
namespace FieldBinder.Grammar

/-! ### Parameters -/

/-- Lifetimes with `+` in between. -/
def lifetimeSum (stop : List Token → Bool) : Parser Unit :=
  discard (joined "+" stop lifetime)

/-- Bounds with `+` in between. -/
def boundSum (g : Rules) (constant : Bool) (stop : List Token → Bool) : Parser Unit :=
  discard (joined "+" stop (g (.bound false constant)))

/-- Bounds behind a colon, if there is one. -/
def optionalBounds (bounds : Parser Unit) : Parser Unit := do
  if isOp ":" (← rest) then
    introduced do
      op ":"
      bounds

/-- A generic lifetime. -/
def lifetimeParam : Parser Unit := do
  discard lifetime
  optionalBounds (lifetimeSum fun ts => ts.isEmpty || isOp "," ts || isOp ">" ts)

/-- A generic type. -/
def typeParam (g : Rules) : Parser Unit := do
  discard name
  optionalBounds (boundSum g true fun ts => isOp "," ts || isOp ">" ts || isOp "=" ts)
  if ← op? "=" then discard (g (.type true))

/-- A generic value. -/
def constParam (g : Rules) : Parser Unit := do
  word "const"
  discard name
  op ":"
  discard (g (.type true))
  if ← op? "=" then constArgument g

/-- A parameter in angle brackets; whether it is a lifetime. -/
def genericParam (g : Rules) : Parser Bool := do
  discard (outerAttributes g)
  let ts ← rest
  if isLifetime ts then lifetimeParam
  else if isName ts then typeParam g
  else if isWord "const" ts then constParam g
  else if isWord "_" ts then discard anyWord
  else expectedOneOf [.lifetime, .identifier, .word "const"]
  return isLifetime ts

/-- Generic parameters in angle brackets, if there are any. -/
structure Generics where
  /-- Whether there are brackets. -/
  brackets : Bool
  count : Nat

/-- Generic parameters in angle brackets, if there are any. -/
def generics (g : Rules) : Parser Generics := do
  unless isOp "<" (← rest) do return ⟨false, 0⟩
  let ((params, trailing), _) ← captured do
    op "<"
    let params ← separated "," (isOp ">") (captured (genericParam g))
    op ">"
    return params
  unless params.isEmpty do
    note (.punct '<' false :: (Token.lifetimesFirst trailing params ++ [.punct '>' false]))
  return ⟨true, params.length⟩

/-! ### Binders -/

/-- A parameter of a `for` binder. -/
def binderParam (g : Rules) : Parser Unit := do
  discard (outerAttributes g)
  let ts ← rest
  if isName ts then typeParam g
  else if isLifetime ts then lifetimeParam
  else if isWord "const" ts then constParam g
  else expectedOneOf [.identifier, .lifetime, .word "const"]

/-- A `for` binder, with what it prints. -/
def binder (g : Rules) : Parser (List Token) := do
  let ((), tokens) ← captured do
    word "for"
    op "<"
    discard (separated "," (isOp ">") (binderParam g))
    op ">"
  note tokens
  return tokens

/-- A `for` binder if one comes next. -/
def binder? (g : Rules) : Parser (Option (List Token)) := do
  if isWord "for" (← rest) then some <$> binder g else return none

/-- Whether `<` starts generic parameters rather than a path through a type. -/
def startsGenerics (ts : List Token) : Bool :=
  let second := ts.drop 1
  let third := ts.drop 2
  isOp "<" ts &&
    (isOp ">" second || isOp "#" second ||
      ((isLifetime second || isName second) &&
        (isOp ">" third || isOp "," third || (isOp ":" third && !isOp "::" third) ||
          isOp "=" third)) ||
      isWord "const" second)

/-! ### Where clauses -/

/-- Whether a list of predicates, or of bounds in it, ends. -/
def isWhereEnd (ts : List Token) : Bool :=
  ts.isEmpty || isGroup .brace ts || isOp "," ts || isOp ";" ts ||
    (isOp ":" ts && !isOp "::" ts) || isOp "=" ts

/-- What a `where` clause asks for. -/
def wherePredicate (g : Rules) : Parser Unit := do
  let ts ← rest
  if isLifetime ts && isOp ":" (ts.drop 1) then
    discard lifetime
    op ":"
    lifetimeSum fun ts => isWhereEnd ts || isOp ":" ts
  else
    discard (binder? g)
    discard (g (.type true))
    op ":"
    boundSum g true isWhereEnd

/-- A `where` clause, if there is one; whether there is. -/
def whereClause (g : Rules) : Parser Bool := do
  unless isWord "where" (← rest) do return false
  introduced do
    word "where"
    if startsGenerics (← rest) then
      fail (.refused "generic parameters on `where` clauses are reserved for future use")
    discard (joined "," isWhereEnd (wherePredicate g))
  return true

end FieldBinder.Grammar
