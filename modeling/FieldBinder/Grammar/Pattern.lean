import FieldBinder.Grammar.Type

/-
  Patterns.

  Nobody takes a pattern apart; a reader of patterns says only whether one is
  `..` or a range that is open at one end, since these two cannot stand
  everywhere.
-/
namespace FieldBinder.Grammar

/-! ### Alternatives -/

/-- Whether the tokens start with `|` as a separator of alternatives. -/
def isBar (ts : List Token) : Bool := isOp "|" ts && !isOp "||" ts && !isOp "|=" ts

/-- A pattern with alternatives, and with a `|` in front if it likes. -/
def alternatives (g : Rules) : Parser PatternForm := do
  let bar ← op? "|"
  let first ← g .pattern
  let more ← many do
    if isBar (← rest) then
      op "|"
      some <$> g .pattern
    else return none
  return if bar || !more.isEmpty then .other else first

/-! ### Ranges -/

/-- The sign of a range, and whether it includes the upper end; `...` is an old spelling of
`..=`, which `dots` admits. -/
def rangeSign (dots : Bool) : Parser Bool := do
  if ← op? "..=" then return true
  if isOp "..." (← rest) then
    unless dots do expectedOneOf [.op "..="]
    -- the old sign prints as the new one
    advance 3 (Token.operator ['.', '.', '='])
    return true
  op ".."
  return false

/-- Whether a pattern ends here, so that a range in it has no upper end. -/
def isRangeEnd (ts : List Token) : Bool :=
  ts.isEmpty || isOp "|" ts || isOp "=" ts || (isOp ":" ts && !isOp "::" ts) || isOp "," ts ||
    isOp ";" ts || isWord "if" ts

/-- What can be an end of a range apart from a literal and a block: a path. -/
def pathBoundStarts : List Start :=
  [.identifier, .op "::", .op "<", .word "self", .word "Self", .word "super", .word "crate"]

/-- An end of a range; whether there is one. -/
def rangeBound (g : Rules) : Parser Bool := do
  let ts ← rest
  if isRangeEnd ts then return false
  if isLiteral ts then discard literal
  else if pathBoundStarts.any (·.holds ts) then discard (anyPath g true)
  else if isWord "const" ts then
    word "const"
    bracedBlock g
  else expectedOneOf (.literal :: pathBoundStarts ++ [.word "const"])
  return true

/-- The rest of a range after its lower end. -/
def rangeRest (g : Rules) : Parser PatternForm := do
  let closed ← rangeSign true
  let bounded ← rangeBound g
  if closed && !bounded then expected "range upper bound"
  return .range (!bounded)

/-- A range without a lower end, or `..` alone. -/
def halfOpenRange (g : Rules) : Parser PatternForm := do
  let closed ← rangeSign false
  if ← rangeBound g then return .range true
  if closed then expected "range upper bound"
  return .rest

/-! ### Patterns in groups -/

/-- The number of a field: a whole number below 2³² without suffix and minus sign. -/
def fieldNumber (negative : Bool) (text : String) : Parser Nat := do
  if Literal.kind text != .int then refuse "expected integer literal"
  let (value, suffix) := Literal.wholeValue text
  unless suffix = "" do refuse "expected unsuffixed integer"
  if negative then refuse "invalid digit found in string"
  unless value ≤ 0xFFFFFFFF do refuse "number too large to fit in target type"
  return value

/-- The number or the name of a field; whether it is a name. -/
def member : Parser Bool := do
  let ts ← rest
  if isName ts then
    discard name
    return true
  match isNumberOf .int ts, ts with
  | true, .literal t :: _ =>
    let value ← fieldNumber false t
    advance 1 [.literal (toString value)]
    return false
  | true, _ :: .literal t :: _ =>
    discard (fieldNumber true t)
    return false
  | _, _ => expected "identifier or integer"

/-- A field in a struct pattern.  One that is boxed is kept as it stands. -/
def fieldPattern (g : Rules) : Parser Unit :=
  discard <| asWrittenIf id do
    let isBoxed ← word? "box"
    let isRef ← word? "ref"
    let isMut ← word? "mut"
    -- after one of these words a field has only its short form
    let isShort := isBoxed || isRef || isMut
    let isNamed ← if isShort then do discard name; pure true else member
    if (!isShort && isOp ":" (← rest)) || !isNamed then
      op ":"
      discard (alternatives g)
    return isBoxed

/-- At most `n` fields of a struct pattern, the last one possibly `..`. -/
def fieldPatterns (g : Rules) : Nat → Parser Unit
  | 0 => return
  | n + 1 => do
    if (← rest).isEmpty then return
    discard (outerAttributes g)
    if isOp ".." (← rest) then op ".."
    else
      fieldPattern g
      unless (← rest).isEmpty do
        op ","
        fieldPatterns g n

/-- A pattern that starts with a path. -/
def pathPattern (g : Rules) : Parser PatternForm := do
  let p ← anyPath g true
  let ts ← rest
  if isOp "!" ts && !isOp "!=" ts && (p.any Path.isPlain) then
    op "!"
    discard anyGroup
    return .other
  else if isGroup .brace ts then
    inside .brace do fieldPatterns g ((← rest).length + 1)
    return .other
  else if isGroup .paren ts then
    discard (inside .paren (commas (alternatives g)))
    return .other
  else if isOp ".." ts then rangeRest g
  else return .other

/-- An element of a slice pattern. -/
def slicePart (g : Rules) : Parser Unit := do
  if (← alternatives g) = .range true then
    refuse "range pattern is not allowed unparenthesized inside slice pattern"

/-! ### Single patterns -/

/-- Whether a path starts here that is more than a name. -/
def isPathPattern (ts : List Token) : Bool :=
  let second := ts.drop 1
  (isName ts && (isOp "::" second || isOp "!" second || isGroup .brace second ||
      isGroup .paren second || isOp ".." second)) ||
    (isWord "self" ts && isOp "::" second) || isOp "::" ts || isOp "<" ts ||
    isOneOf ["Self", "super", "crate"] ts

/-- A name that is bound, possibly to what a further pattern matches. -/
def namePattern (g : Rules) : Parser PatternForm := do
  discard (word? "ref")
  discard (word? "mut")
  if isWord "self" (← rest) then discard anyWord else discard name
  if ← op? "@" then discard (g .pattern)
  return .other

/-- What can start a pattern; a block of a constant is looked for twice. -/
def patternStarts : List Start :=
  [.identifier, .op "::", .op "<", .word "_", .literal, .word "const", .word "ref",
    .word "mut", .op "&", .group .paren, .group .bracket, .op "..", .word "const"]

/-- A pattern without alternatives. -/
def pattern (g : Rules) : Parser PatternForm :=
  asWrittenIf (· == .verbatim) do
    let ts ← rest
    if isPathPattern ts then pathPattern g
    else if isWord "_" ts then
      discard anyWord
      return .other
    else if ← word? "box" then
      discard (g .pattern)
      return .verbatim
    else if isOp "-" ts || isLiteral ts || isWord "const" ts then
      discard (rangeBound g)
      if isOp ".." (← rest) then rangeRest g else return .other
    else if isOneOf ["ref", "mut", "self"] ts || isName ts then namePattern g
    else if ← op? "&" then
      discard (word? "mut")
      discard (g .pattern)
      return .other
    else if isGroup .paren ts then
      discard (inside .paren (commas (alternatives g)))
      return .other
    else if isGroup .bracket ts then
      discard (inside .bracket (commas (slicePart g)))
      return .other
    else if isOp ".." ts && !isOp "..." ts then halfOpenRange g
    else expectedOneOf patternStarts

end FieldBinder.Grammar
