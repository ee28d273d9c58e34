import FieldBinder.Grammar.Pattern

/-
  Expressions.

  An expression is read as an operand (`operand`: prefix operators, an atom,
  and what is written behind the atom) and the operators that follow it
  (`operators`), which take their right operands by precedence.  Where `braces`
  is false a brace ends the expression, as in the condition of an `if`.
-/
namespace FieldBinder.Grammar

/-! ### Blocks and macro calls -/

/-- Statements in braces. -/
def plainBlock (g : Rules) : Parser Unit := inside .brace (g .statements)

/-- The `!` of a macro call and its argument. -/
def macroCall : Parser Expr := do
  op "!"
  let (d, _) ← anyGroup
  return .other (.macroCall (d == .brace))

/-- Whether a macro call follows a path. -/
def isMacroBang (ts : List Token) : Bool := isOp "!" ts && !isOp "!=" ts

/-! ### What can start an expression -/

/-- Whether the tokens start with an expression. -/
def isExprStart (ts : List Token) : Bool :=
  (isAnyWord ts && !isWord "as" ts) || isGroup .paren ts || isGroup .bracket ts ||
    isGroup .brace ts || isLiteral ts || (isOp "!" ts && !isOp "!=" ts) ||
    (isOp "-" ts && !isOp "-=" ts && !isOp "->" ts) || (isOp "*" ts && !isOp "*=" ts) ||
    (isOp "|" ts && !isOp "|=" ts) || (isOp "&" ts && !isOp "&=" ts) || isOp ".." ts ||
    (isOp "<" ts && !isOp "<=" ts && !isOp "<<=" ts) || isOp "::" ts || isLifetime ts ||
    isOp "#" ts

/-- Whether the tokens start with `for` and a binder, rather than with a loop. -/
def isBinder (ts : List Token) : Bool := isWord "for" ts && startsGenerics (ts.drop 1)

/-- Whether the tokens start with a closure. -/
def isClosure (ts : List Token) : Bool :=
  let second := ts.drop 1
  isOp "|" ts || isWord "move" ts || isBinder ts ||
    (isWord "const" ts && !isGroup .brace second) || isWord "static" ts ||
    (isWord "async" ts && (isOp "|" second || isWord "move" second))

/-- Whether the tokens start with an `async` block. -/
def isAsyncBlock (ts : List Token) : Bool :=
  isWord "async" ts &&
    (isGroup .brace (ts.drop 1) || (isWord "move" (ts.drop 1) && isGroup .brace (ts.drop 2)))

/-- Whether the tokens start with a path as an operand. -/
def isPathStart (ts : List Token) : Bool :=
  isName ts || isOp "::" ts || isOp "<" ts || isOneOf ["self", "Self", "super", "crate"] ts ||
    (isWord "try" ts && (isOp "!" (ts.drop 1) || isOp "::" (ts.drop 1)))

/-- Whether the tokens start with an expression that can end with its braces where one
stands by itself, as a statement or as the body of an arm. -/
def isStandingStart (ts : List Token) : Bool :=
  isOneOf ["if", "while", "loop", "match", "unsafe"] ts || (isWord "for" ts && !isBinder ts) ||
    (isOneOf ["try", "const"] ts && isGroup .brace (ts.drop 1)) || isGroup .brace ts ||
    isLifetime ts

/-- Whether something is written behind an atom that goes on with it in any case. -/
def isPostfix (ts : List Token) : Bool := (isOp "." ts && !isOp ".." ts) || isOp "?" ts

/-! ### Attributes -/

/-- What prints with attributes in front: a range is put in parentheses, and tokens that
are kept as they stand lose the attributes. -/
def withAttributes (attributes : List Token) (isRange isVerbatim : Bool)
    (tokens : List Token) : List Token :=
  if attributes.isEmpty || isVerbatim then tokens
  else if isRange then attributes ++ [.group .paren tokens]
  else attributes ++ tokens

/-- What an expression prints with attributes in front; they belong to the operand at its
left end. -/
def attributed (e : Expr) (attributes tokens : List Token) : List Token :=
  withAttributes attributes e.leftmost.isRange e.leftmost.isVerbatim tokens

/-! ### Operators -/

/-- The operators between two operands; of two that fit, the first one is meant. -/
def binaryOps : List (String × Precedence) :=
  [("+=", .assign), ("-=", .assign), ("*=", .assign), ("/=", .assign), ("%=", .assign),
    ("^=", .assign), ("&=", .assign), ("|=", .assign), ("<<=", .assign), (">>=", .assign),
    ("&&", .conjunction), ("||", .disjunction), ("<<", .shift), (">>", .shift),
    ("==", .comparison), ("<=", .comparison), ("!=", .comparison), (">=", .comparison),
    ("+", .sum), ("-", .sum), ("*", .product), ("/", .product), ("%", .product),
    ("^", .bitXor), ("&", .bitAnd), ("|", .bitOr), ("<", .comparison), (">", .comparison)]

/-- The operator that the tokens start with. -/
def binaryOp? (ts : List Token) : Option (String × Precedence) :=
  binaryOps.find? fun o => isOp o.1 ts

/-- Whether the tokens start with an assignment. -/
def isAssign (ts : List Token) : Bool := isOp "=" ts && !isOp "=>" ts

/-- How tightly the operator binds that comes next. -/
def nextPrecedence (ts : List Token) : Precedence :=
  match binaryOp? ts with
  | some (_, p) => p
  | none =>
    if isAssign ts then .assign
    else if isOp ".." ts then .range
    else if isWord "as" ts then .cast
    else .jump

/-- Give a right operand the operators that bind tighter than the one to its left. -/
def extendRight (g : Rules) (braces : Bool) (p : Precedence) : Nat → Expr → Parser Expr
  | 0, right => return right
  | n + 1, right => do
    let ts ← rest
    let next := nextPrecedence ts
    if p.rank < next.rank || (next = p && p = .assign) then
      let right ← g (.operators braces next right)
      -- nothing was taken, so nothing will be
      if (← rest).length = ts.length then return right
      extendRight g braces p n right
    else return right

/-- The right operand of an operator. -/
def rightOperand (g : Rules) (braces : Bool) (p : Precedence) : Parser Expr := do
  let first ← g (.operand braces)
  extendRight g braces p ((← rest).length + 1) first

/-- Whether a range ends here without an upper end. -/
def endsRange (braces : Bool) (ts : List Token) : Bool :=
  ts.isEmpty || isOp "," ts || isOp ";" ts || (isOp "." ts && !isOp ".." ts) || isOp "?" ts ||
    isOp "=>" ts || (!braces && isGroup .brace ts) || isOp "=" ts || isOp "+" ts ||
    isOp "/" ts || isOp "%" ts || isOp "^" ts || isOp ">" ts || isOp "<=" ts || isOp "!=" ts ||
    isOp "-=" ts || isOp "*=" ts || isOp "&=" ts || isOp "|=" ts || isOp "<<=" ts ||
    isWord "as" ts

/-- A range from its sign on. -/
def rangeFromSign (g : Rules) (braces : Bool) : Parser Expr := do
  let closed ← rangeSign false
  unless !closed && endsRange braces (← rest) do discard (rightOperand g braces .range)
  return .other .range

/-- What comes after a cast, if it cannot stand there. -/
def castObstacle? (ts : List Token) : Option String :=
  let second := ts.drop 1
  let third := ts.drop 2
  if isOp "." ts && !isOp ".." ts then
    if isWord "await" second then some "`.await`"
    else if isName second && (isGroup .paren third || isOp "::" third) then some "a method call"
    else some "a field access"
  else if isOp "?" ts then some "`?`"
  else if isGroup .bracket ts then some "indexing"
  else if isGroup .paren ts then some "a function call"
  else none

/-- One more operator that binds no weaker than `base`, with its right operand. -/
def operatorStep (g : Rules) (braces : Bool) (base : Precedence) (left : Expr) :
    Parser (Option Expr) := do
  let ts ← rest
  -- a range is no left operand
  if left.isRange then return none
  match binaryOp? ts with
  | some (o, p) =>
    if p.rank < base.rank then return none
    if p = .comparison && left.isComparison then fail .comparisonChain
    op o
    discard (rightOperand g braces p)
    return some (.operation (.binary (p = .comparison)) left)
  | none =>
    if base.rank ≤ Precedence.assign.rank && isAssign ts then
      op "="
      discard (rightOperand g braces .assign)
      return some (.operation .assign left)
    else if base.rank ≤ Precedence.range.rank && isOp ".." ts then
      some <$> rangeFromSign g braces
    else if isWord "as" ts then
      word "as"
      discard (g (.type false))
      match castObstacle? (← rest) with
      | some what => fail (.afterCast what)
      | none => return some (.operation .cast left)
    else return none

/-- At most `n` operators after a left operand. -/
def operatorsTimes (g : Rules) (braces : Bool) (base : Precedence) : Nat → Expr → Parser Expr
  | 0, left => return left
  | n + 1, left => do
    match ← operatorStep g braces base left with
    | some e => operatorsTimes g braces base n e
    | none => return left

/-- The operators after a left operand that bind no weaker than `base`. -/
def operators (g : Rules) (braces : Bool) (base : Precedence) (left : Expr) : Parser Expr := do
  operatorsTimes g braces base ((← rest).length + 1) left

/-- An expression. -/
def expr (g : Rules) (braces : Bool) : Parser Expr := do
  let left ← g (.operand braces)
  g (.operators braces .jump left)

/-! ### Behind an atom -/

/-- Numbers of fields that were read as one number with a point, and whether the point of
a further field is at its end. -/
def fieldNumbers (negative : Bool) (text : String) : Parser Bool := do
  let cs := text.toList
  let trailing := cs.getLast? = some '.'
  let parts := (if trailing then cs.dropLast else cs).splitOn '.'
  -- a minus sign belongs to the first number, which is refused for it
  let numbers ← parts.mapM fun part =>
    match Literal.number? part with
    | some (_, []) => fieldNumber negative (String.ofList part)
    | _ => refuse "cannot parse string into token stream"
  let tokens := numbers.map fun v => [Token.literal (toString v)]
  advance 1 (Token.separate '.' trailing tokens)
  return trailing

/-- What follows the point behind an atom, unless it is a number with a point. -/
def afterPoint (g : Rules) : Parser Expr := do
  if ← word? "await" then return .other .await
  let isNamed ← member
  let turbofish := isNamed && isOp "::" (← rest)
  if turbofish then discard (printed Args.tokens (angleArgs g true))
  if turbofish || (isNamed && isGroup .paren (← rest)) then
    discard (inside .paren (commas (g (.expr true))))
    return .other .methodCall
  else return .other .field

/-- One thing behind an atom: a call, an index, a field, a `?`. -/
def postfixStep (g : Rules) (e : Expr) : Parser (Option Expr) := do
  let ts ← rest
  if isGroup .paren ts then
    discard (inside .paren (commas (g (.expr true))))
    return some (.other .call)
  else if isOp "." ts && !isOp ".." ts && !e.isRange then
    op "."
    let after ← rest
    let more ← match isNumberOf .float after, after with
      -- in `x.0.1` the fields were read as one number
      | true, .literal t :: _ => fieldNumbers false t
      | true, _ :: .literal t :: _ => fieldNumbers true t
      | _, _ => pure true
    if more then some <$> afterPoint g else return some (.other .field)
  else if isGroup .bracket ts then
    discard (inside .bracket (g (.expr true)))
    return some (.other .index)
  else if isOp "?" ts && !e.isRange then
    op "?"
    return some (.other .try_)
  else return none

/-- At most `n` things behind an atom. -/
def postfixTimes (g : Rules) : Nat → Expr → Parser Expr
  | 0, e => return e
  | n + 1, e => do
    match ← postfixStep g e with
    | some e' => postfixTimes g n e'
    | none => return e

/-- What is written behind an atom. -/
def postfixes (g : Rules) (e : Expr) : Parser Expr := do
  postfixTimes g ((← rest).length + 1) e

/-! ### Atoms -/

/-- At most `n` fields of a struct literal, the last one possibly `..` and a base. -/
def structFields (g : Rules) : Nat → Parser Unit
  | 0 => return
  | n + 1 => do
    if (← rest).isEmpty then return
    if ← op? ".." then
      unless (← rest).isEmpty do discard (g (.expr true))
    else
      discard (outerAttributes g)
      let isNamed ← member
      -- a field by number has no short form
      if isOp ":" (← rest) || !isNamed then
        op ":"
        discard (g (.expr true))
      unless (← rest).isEmpty do
        op ","
        structFields g n

/-- A path, a macro call or a struct literal. -/
def pathAtom (g : Rules) (braces : Bool) : Parser Expr := do
  let p ← anyPath g true
  let ts ← rest
  if isMacroBang ts && p.any Path.isPlain then macroCall
  else if braces && isGroup .brace ts then
    inside .brace do structFields g ((← rest).length + 1)
    return .other .struct
  else match p with
    | some p => return .path p
    | none => return .other .path

/-- What stands in parentheses. -/
def parenAtom (g : Rules) : Parser Expr :=
  inside .paren do
    if (← rest).isEmpty then return .other .tuple
    discard (g (.expr true))
    if (← rest).isEmpty then return .other .paren
    op ","
    discard (commas (g (.expr true)))
    return .other .tuple

/-- What stands in brackets. -/
def bracketAtom (g : Rules) : Parser Expr :=
  inside .bracket do
    if (← rest).isEmpty then return .array []
    let first ← g (.expr true)
    let ts ← rest
    if ts.isEmpty || isOp "," ts then
      discard (op? ",")
      let (more, _) ← commas (g (.expr true))
      return .array (first :: more)
    else if ← op? ";" then
      discard (g (.expr true))
      return .other .repeat_
    else expected "`,` or `;`"

/-- A parameter of a closure. -/
def closureParam (g : Rules) : Parser Unit := do
  let (_, attributes) ← captured (outerAttributes g)
  let (form, tokens) ← captured (g .pattern)
  if isOp ":" (← rest) then
    note (attributes ++ tokens)
    op ":"
    discard (g (.type true))
  else
    let isRange := match form with
      | .range _ => true
      | _ => false
    note (withAttributes attributes isRange (form == .verbatim) tokens)

/-- A closure. -/
def closure (g : Rules) (braces : Bool) : Parser Expr := do
  discard (binder? g)
  for w in ["const", "static", "async", "move"] do discard (word? w)
  op "|"
  discard (separated "," (isOp "|") (closureParam g))
  op "|"
  if ← op? "->" then
    discard (g (.type true))
    plainBlock g
  else discard (expr g braces)
  return .other .closure

/-- The branches of an `if`. -/
def conditional (g : Rules) : Parser Expr := do
  let branch := do
    word "if"
    discard (g (.expr false))
    plainBlock g
  branch
  discard <| many do
    let ts ← rest
    if isWord "else" ts && isWord "if" (ts.drop 1) then
      word "else"
      some <$> branch
    else return none
  if ← word? "else" then
    unless isGroup .brace (← rest) do expectedOneOf [.word "if", .group .brace]
    plainBlock g
  return .other .if_

/-- An arm of a `match`. -/
def arm (g : Rules) : Parser Unit := do
  discard (outerAttributes g)
  discard (alternatives g)
  if ← word? "if" then discard (g (.expr true))
  op "=>"
  let body ← g .standing
  if !body.isBlockLike && !(← rest).isEmpty then op "," else discard (op? ",")

/-- A loop, with or without a label in front of it. -/
def loopOrBlock (g : Rules) : Parser Expr := do
  let ts ← rest
  if ← word? "while" then
    discard (g (.expr false))
    bracedBlock g
    return .other .while_
  else if ← word? "for" then
    discard (alternatives g)
    word "in"
    discard (g (.expr false))
    bracedBlock g
    return .other .forLoop
  else if ← word? "loop" then
    bracedBlock g
    return .other .loop
  else if isGroup .brace ts then
    bracedBlock g
    return .other .block
  else expected "loop or block expression"

/-- A value after `break`, `return` or `yield`, if there is one. -/
def jumpValue (g : Rules) (braces : Bool) : Parser Unit := do
  let ts ← rest
  if isExprStart ts && (braces || !isGroup .brace ts) then discard (g (.expr true))

/-- The label and the value of a `break`. -/
def breakRest (g : Rules) (braces : Bool) : Parser Unit := do
  let ts ← rest
  if isLifetime ts && isOp ":" (ts.drop 1) then
    discard (g (.expr true))
    refuse "parentheses required"
  discard lifetime?
  jumpValue g braces

/-- An atom: an operand without operators in front of it and anything behind it. -/
def atom (g : Rules) (braces : Bool) : Parser Expr := do
  let ts ← rest
  let second := ts.drop 1
  if isLiteral ts then return .literal (← literal)
  else if isAsyncBlock ts then
    word "async"
    discard (word? "move")
    plainBlock g
    return .other .asyncBlock
  else if isWord "try" ts && isGroup .brace second then
    word "try"
    plainBlock g
    return .other .tryBlock
  else if isClosure ts then closure g braces
  else if isBuiltin ts then
    builtin
    return .other .verbatim
  else if isPathStart ts then pathAtom g braces
  else if isGroup .paren ts then parenAtom g
  else if ← word? "break" then
    breakRest g braces
    return .other .break_
  else if ← word? "continue" then
    discard lifetime?
    return .other .continue_
  else if ← word? "return" then
    jumpValue g true
    return .other .return_
  else if ← word? "become" then
    discard (g (.expr true))
    return .other .verbatim
  else if isGroup .bracket ts then bracketAtom g
  else if ← word? "let" then
    discard (alternatives g)
    op "="
    let left ← g (.operand braces)
    -- `&&` and `||` end the scrutinee
    discard (g (.operators braces .comparison left))
    return .other .let_
  else if isWord "if" ts then conditional g
  else if isOneOf ["while", "for", "loop"] ts || isGroup .brace ts then loopOrBlock g
  else if ← word? "match" then
    discard (g (.expr false))
    inside .brace do
      discard (innerAttributes g)
      discard (untilEnd (arm g))
    return .other .match_
  else if ← word? "yield" then
    jumpValue g true
    return .other .yield_
  else if ← word? "unsafe" then
    bracedBlock g
    return .other .unsafeBlock
  else if ← word? "const" then
    bracedBlock g
    return .other .constBlock
  else if isOp ".." ts then rangeFromSign g braces
  else if isWord "_" ts then
    discard anyWord
    return .other .infer
  else if isLifetime ts then
    discard lifetime
    op ":"
    loopOrBlock g
  else expected "an expression"

/-! ### Operands -/

/-- An operand: an atom with what is written behind it, or an operator in front of an
operand. -/
def operand (g : Rules) (braces : Bool) : Parser Expr :=
  asWrittenIf Expr.isVerbatim do
    let attributes ← outerAttributes g
    if ← op? "&" then
      let ts ← rest
      let isRaw := isWord "raw" ts && isOneOf ["mut", "const"] (ts.drop 1)
      if isRaw then
        word "raw"
        unless ← word? "mut" do word "const"
      else discard (word? "mut")
      discard (g (.operand braces))
      return .other (if isRaw then .rawAddress else .reference)
    else if ← op? "*" <||> op? "!" <||> op? "-" then
      discard (g (.operand braces))
      return .other .unary
    else
      let e ← postfixes g (← atom g braces)
      if e.isRange && !attributes.isEmpty then
        refuse "attributes are not allowed on range expressions starting with `..`"
      return e

/-- The first operand of an expression that stands by itself, and whether operators can
follow it: they cannot if it ends with its braces and nothing is written behind these. -/
def standingOperand (g : Rules) : Parser (Expr × Bool) := do
  let e ← if isStandingStart (← rest) then atom g true else g (.operand true)
  if !e.isBlockLike then return (e, true)
  -- `match x {} - 1` is two statements, `match x {}.f()` is one
  else if isPostfix (← rest) then return (← postfixes g e, true)
  else return (e, false)

/-- An expression that stands by itself. -/
def standing (g : Rules) : Parser Expr := do
  let (_, attributes) ← captured (outerAttributes g)
  let ((e, goesOn), tokens) ← captured (standingOperand g)
  note (attributed e attributes tokens)
  if goesOn then g (.operators true .jump e) else return e

end FieldBinder.Grammar
