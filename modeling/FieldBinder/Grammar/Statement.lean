import FieldBinder.Grammar.Expr

/-
  Statements.
-/
namespace FieldBinder.Grammar

/-- Whether the tokens start with an item, as far as the first words tell. -/
def isItemStart (ts : List Token) : Bool :=
  let second := ts.drop 1
  let third := ts.drop 2
  isOneOf ["pub", "extern", "use", "fn", "mod", "type", "struct", "enum", "trait", "impl",
      "macro"] ts ||
    (isWord "crate" ts && !isOp "::" second) ||
    (isWord "static" ts && (isWord "mut" second || isName second)) ||
    (isWord "const" ts &&
      !(isGroup .brace second || isWord "static" second ||
        (isWord "async" second && !isOneOf ["unsafe", "extern", "fn"] third) ||
        isWord "move" second || isOp "|" second)) ||
    (isWord "unsafe" ts && !isGroup .brace second) ||
    (isWord "async" ts && isOneOf ["unsafe", "extern", "fn"] second) ||
    (isWord "union" ts && isName second) ||
    (isWord "auto" ts && isWord "trait" second) ||
    (isWord "default" ts && isOneOf ["unsafe", "impl"] second)

/-- What a statement is that starts with a plain path and a `!`. -/
inductive BangStatement
  /-- A macro call that defines a name. -/
  | item
  /-- A macro call in braces that nothing is done with. -/
  | call
  | neither
deriving DecidableEq

/-- Look for a macro call at the start of a statement. -/
def bangStatement : Parser BangStatement :=
  foresee do
    match ← attempt? plainPath with
    | none => return .neither
    | some _ =>
      let ts ← rest
      let second := ts.drop 1
      let third := ts.drop 2
      if !isOp "!" ts then return .neither
      else if isName second || isWord "try" second then return .item
      else if isGroup .brace second &&
          !((isOp "." third && !isOp "." (third.drop 1)) || isOp "?" third) then
        return .call
      else return .neither

/-- A `let` statement. -/
def letStatement (g : Rules) : Parser Unit := do
  word "let"
  discard (g .pattern)
  if ← op? ":" then discard (g (.type true))
  if ← op? "=" then
    discard (g (.expr true))
    let endsInBrace := match (← get).written with
      | .group .brace _ :: _ => true
      | _ => false
    if !endsInBrace then
      if ← word? "else" then plainBlock g
  op ";"

/-- A statement; whether a semicolon is due between it and another one. -/
def statement (g : Rules) : Parser Bool := do
  let start ← get
  let (_, attributes) ← captured (outerAttributes g)
  let bang ← bangStatement
  let ts ← rest
  if bang = .call then
    note attributes
    discard plainPath
    discard macroCall
    discard (op? ";")
    return false
  else if isWord "let" ts then
    note attributes
    letStatement g
    return false
  else if isItemStart ts || bang = .item then
    -- an item takes its attributes with it
    set start
    discard (g .item)
    return false
  else
    let (e, tokens) ← captured (g .standing)
    note (attributed e attributes tokens)
    let ended ← op? ";"
    return !ended && !e.isBlockLike && !e.isBraceCall

/-- At most `n` statements. -/
def statementsTimes (g : Rules) : Nat → Parser Unit
  | 0 => return
  | n + 1 => do
    discard (many do if ← op? ";" then return some () else return none)
    if (← rest).isEmpty then return
    let due ← statement g
    if (← rest).isEmpty then return
    if due then fail (.refused "unexpected token, expected `;`")
    statementsTimes g n

/-- The statements of a block. -/
def statements (g : Rules) : Parser Unit := do statementsTimes g ((← rest).length + 1)

end FieldBinder.Grammar
