import FieldBinder.Grammar.Generics

/-
  Types and bounds.

  A sum of bounds is a type of its own, `Ty.traitObject`; where `plus` is false
  only its first part is read, as after `&` and `*const`.  Arguments in
  parentheses are read in bounds alone.
-/
namespace FieldBinder.Grammar

/-! ### Bounds -/

/-- The `const` in front of the path of a bound, in brackets or without; whether there is
one. -/
def constMark (constant : Bool) : Parser Bool := do
  if isGroup .bracket (← rest) then
    inside .bracket (word "const")
    unless constant do refuse "`[const]` is not allowed here"
    return true
  else if ← word? "const" then
    unless constant do refuse "`const` is not allowed here"
    return true
  else return false

/-- The path of a bound, which can have arguments in parentheses at its end. -/
def boundPath (g : Rules) : Parser Path :=
  printed Path.tokens do
    let .mk leading segments ← path g false
    let ts ← rest
    match segments.getLast? with
    | some (.mk ident args) =>
      if args.isEmpty &&
          (isGroup .paren ts || (isOp "::" ts && isGroup .paren (ts.drop 2))) then
        discard (op? "::")
        return .mk leading (segments.dropLast ++ [.mk ident (← parenArgs g)])
      else return .mk leading segments
    | none => return .mk leading segments

/-- A trait with what stands in front of it, or none if it is `const`. -/
def traitBound (g : Rules) (constant parens : Bool) : Parser (Option Bound) := do
  let binder ← binder? g
  let isConst ← constMark constant
  let isMaybe ← op? "?"
  let binder ← if binder.isNone && isMaybe then binder? g else pure binder
  let p ← boundPath g
  if binder.isSome && isMaybe then
    refuse "`for<...>` binder not allowed with `?` trait polarity modifier"
  if isConst then return none
  return some (.trait parens isMaybe binder p)

/-- A parameter in a `use` bound; whether it is a lifetime. -/
def capturedParam : Parser Bool := do
  let ts ← rest
  if isLifetime ts then discard lifetime
  else if isName ts || isWord "Self" ts then discard anyWord
  else expectedOneOf [.lifetime, .identifier, .op ">"]
  return isLifetime ts

/-- A `use` bound, as it is printed: with the lifetimes in front. -/
def capturedParams : Parser (List Token) := do
  let ((params, trailing), _) ← captured do
    word "use"
    op "<"
    let params ← separated "," (isOp ">") do
      let param ← captured capturedParam
      let ts ← rest
      unless isOp "," ts || isOp ">" ts do expectedOneOf [.op ",", .op ">"]
      return param
    op ">"
    return params
  return .word "use" :: .punct '<' false ::
    (Token.lifetimesFirst trailing params ++ [.punct '>' false])

/-- A bound. -/
def bound (g : Rules) (captures constant : Bool) : Parser Bound :=
  printed Bound.tokens do
    let ts ← rest
    if isLifetime ts then return .lifetime (← lifetime)
    if isWord "use" ts then
      let tokens ← capturedParams
      unless captures do
        refuse "`use<...>` precise capturing syntax is not allowed here"
      return .other tokens
    let (b, tokens) ← verbatim <|
      if isGroup .paren ts then inside .paren (traitBound g constant true)
      else traitBound g constant false
    return b.getD (.other tokens)

/-- Whether a bound can follow a `+`. -/
def isBoundStart (constant : Bool) (ts : List Token) : Bool :=
  isAnyWord ts || isOp "::" ts || isOp "?" ts || isLifetime ts || isGroup .paren ts ||
    (constant && isGroup .bracket ts)

/-- Bounds with `+` in between, one at least; only one if `plus` is false. -/
def bounds (g : Rules) (plus captures constant : Bool) : Parser (List Bound × Bool) := do
  let first ← g (.bound captures constant)
  if !plus then return ([first], false)
  if ← op? "+" then
    let stop ts := !isBoundStart constant ts
    let (more, trailing) ← joined "+" stop (g (.bound captures constant))
    return (first :: more, trailing)
  else return ([first], false)

/-- Whether a bound is a trait, or one that is left as it stands. -/
def namesTrait : Bound → Bool
  | .trait _ _ _ _ => true
  | .lifetime _ => false
  | .other tokens => !isWord "use" tokens

/-- The bounds of a trait object; one of them is a trait. -/
def objectBounds (g : Rules) (plus : Bool) : Parser (List Bound × Bool) := do
  let (bs, trailing) ← bounds g plus false false
  unless bs.any namesTrait do
    refuse "at least one trait is required for an object type"
  return (bs, trailing)

/-- The bounds after a first one, each behind a `+`. -/
def furtherBounds (g : Rules) : Parser (List Bound) :=
  many do
    if ← op? "+" then some <$> g (.bound false false) else return none

/-! ### Types -/

/-- The bound that a type in parentheses stands for in a sum. -/
def parenBound? : Ty → Option Bound
  | .path p => some (.trait true false none p)
  | .traitObject false [.trait _ isMaybe binder p] false => some (.trait true isMaybe binder p)
  | .traitObject false [b] false => some b
  | _ => none

/-- What stands in the parentheses of a type. -/
inductive Parenthesised
  | tuple (elems : List Ty) (trailing : Bool)
  /-- A bound with `?`, which starts a sum. -/
  | bound (b : Bound)
  /-- Lifetimes that start a sum. -/
  | object (bounds : List Bound) (trailing : Bool)
  | single (t : Ty)

/-- The inside of parentheses in a type. -/
def parenthesised (g : Rules) : Parser Parenthesised := do
  let ts ← rest
  if ts.isEmpty then return .tuple [] false
  if isLifetime ts then
    let (bs, trailing) ← objectBounds g true
    return .object bs trailing
  if isOp "?" ts then
    match ← traitBound g false true with
    | some b => return .bound b
    | none => expected "trait"
  let first ← g (.type true)
  if ← op? "," then
    let (more, trailing) ← commas (g (.type true))
    return .tuple (first :: more) (more.isEmpty || trailing)
  else return .single first

/-- A type that starts with parentheses. -/
def parenType (g : Rules) (plus : Bool) : Parser Ty := do
  match ← inside .paren (parenthesised g) with
  | .tuple elems trailing => return .tuple elems trailing
  | .object bs trailing => return .paren (.traitObject false bs trailing)
  | .bound b => return .traitObject false (b :: (← furtherBounds g)) false
  | .single t =>
    if plus && isOp "+" (← rest) then
      match parenBound? t with
      | some b => return .traitObject false (b :: (← furtherBounds g)) false
      | none => return .paren t
    else return .paren t

/-- The foreign interface of a function, if one is named. -/
def abi : Parser Unit := do
  if ← word? "extern" then
    if isString (← rest) then discard literal

/-- A parameter of a function type; the first one may be `self`.  One that holds
`mut self` is kept as it stands. -/
def fnTypeParam (g : Rules) (isFirst : Bool) : Parser Unit :=
  discard <| asWrittenIf id do
    let isMutSelf (ts : List Token) := isFirst && isWord "mut" ts && isWord "self" (ts.drop 1)
    let startsMut := isMutSelf (← rest)
    if startsMut then word "mut"
    let ts ← rest
    let isSelf := isFirst && isWord "self" ts
    let isNamed := (isName ts || isWord "_" ts || isSelf) &&
      isOp ":" (ts.drop 1) && !isOp "::" (ts.drop 1)
    if isNamed then
      discard anyWord
      op ":"
    if !(isNamed && isSelf) && isMutSelf (← rest) then
      word "mut"
      word "self"
      return true
    else if startsMut && !isNamed then
      word "self"
      return true
    else
      discard (g (.type true))
      return startsMut

/-- The dots of a function type, possibly with a name, and whether more may follow. -/
def fnTypeDots : Parser Unit := do
  if isName (← rest) || isWord "_" (← rest) then
    discard anyWord
    op ":"
  op "..."
  discard (op? ",")

/-- Whether the tokens start with the dots of a function type. -/
def isDots (ts : List Token) : Bool :=
  isOp "..." ts ||
    ((isName ts || isWord "_" ts) && isOp ":" (ts.drop 1) && isOp "..." (ts.drop 2))

/-- At most `n` parameters of a function type. -/
def fnTypeParams (g : Rules) (isFirst : Bool) : Nat → Parser Unit
  | 0 => return
  | n + 1 => do
    if (← rest).isEmpty then return
    discard (outerAttributes g)
    if isDots (← rest) then fnTypeDots
    else
      fnTypeParam g isFirst
      unless (← rest).isEmpty do
        op ","
        fnTypeParams g false n

/-- A function type after its binder. -/
def fnType (g : Rules) : Parser Unit := do
  discard (word? "unsafe")
  abi
  word "fn"
  inside .paren do fnTypeParams g true ((← rest).length + 1)
  discard (returnType g false)

/-- What can follow a `for` binder in a type. -/
def binderTypeStarts : List Start :=
  [.identifier, .word "fn", .word "unsafe", .word "extern", .word "super", .word "self",
    .word "Self", .word "crate"]

/-- A type that starts with a path. -/
def pathType (g : Rules) (plus : Bool) (binder : Option (List Token)) : Parser Ty := do
  let (p, tokens) ← captured (anyPath g false)
  match p with
  | none => return .other tokens
  | some p =>
    let ts ← rest
    if isOp "!" ts && !isOp "!=" ts && p.isPlain then
      let ((), call) ← captured do
        op "!"
        discard anyGroup
      return .other (tokens ++ call)
    let first := Bound.trait false false binder p
    if plus && isOp "+" ts then
      op "+"
      let (more, trailing) ←
        joined "+" (fun ts => !isBoundStart false ts) (g (.bound false false))
      return .traitObject false (first :: more) trailing
    else if binder.isSome then return .traitObject false [first] false
    else return .path p

/-- What can start a type; a path through a module is not named. -/
def typeStarts : List Start :=
  [.word "for", .group .paren, .word "fn", .word "unsafe", .word "extern", .identifier,
    .op "::", .op "<", .word "dyn", .group .bracket, .op "*", .op "&", .op "!", .word "impl",
    .word "_", .lifetime]

/-- A trait object after `dyn`. -/
def dynType (g : Rules) (plus : Bool) : Parser Ty := do
  let ((star, bs, trailing), tokens) ← verbatim do
    word "dyn"
    let star ← op? "*"
    let (bs, trailing) ← objectBounds g plus
    return (star, bs, trailing)
  if star then return .other tokens else return .traitObject true bs trailing

/-- A slice or an array. -/
def bracketType (g : Rules) : Parser Ty :=
  inside .bracket do
    let elem ← g (.type true)
    if ← op? ";" then
      let (_, len) ← captured (g (.expr true))
      return .array elem len
    else return .slice elem

/-- A type. -/
def type (g : Rules) (plus : Bool) : Parser Ty :=
  printed Ty.tokens do
    let before ← rest
    let binder ← binder? g
    let ts ← rest
    if binder.isSome && !binderTypeStarts.any (·.holds ts) then
      expectedOneOf binderTypeStarts
    if isGroup .paren ts then parenType g plus
    else if isOneOf ["fn", "unsafe", "extern"] ts then
      let ((), tokens) ← captured (fnType g)
      return .other (binder.getD [] ++ tokens)
    else if isBuiltin ts then
      builtin
      return .other (before.take (before.length - (← rest).length))
    else if isName ts || isOneOf ["super", "self", "Self", "crate"] ts || isOp "::" ts ||
        isOp "<" ts then
      pathType g plus binder
    else if isWord "dyn" ts then dynType g plus
    else if isGroup .bracket ts then bracketType g
    else if ← op? "*" then
      if ← word? "const" then return .pointer false (← g (.type false))
      else if ← word? "mut" then return .pointer true (← g (.type false))
      else expectedOneOf [.word "const", .word "mut"]
    else if ← op? "&" then
      let l ← lifetime?
      let isMut ← word? "mut"
      return .reference l isMut (← g (.type false))
    -- `!` is the type without values
    else if isOp "!" ts && !isOp "=" ts then
      op "!"
      return .never
    else if ← word? "impl" then
      let (bs, trailing) ← bounds g plus true true
      unless bs.any namesTrait do refuse "at least one trait must be specified"
      return .implTrait bs trailing
    else if isWord "_" ts then
      discard anyWord
      return .infer
    else if isLifetime ts then
      let (bs, trailing) ← objectBounds g true
      return .traitObject false bs trailing
    else expectedOneOf typeStarts

end FieldBinder.Grammar
