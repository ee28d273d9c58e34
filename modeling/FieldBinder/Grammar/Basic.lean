import FieldBinder.Source.Literal
import FieldBinder.Source.Tree

/-
  Readers of token lists.

  A reader (`Parser`) takes tokens from the front of a list and notes what it
  has read in the form in which it is printed (`Cursor.written`): most tokens
  print as they were read, and a reader that knows better says so (`printed`).
  Tokens that are left over inside delimiters do not stop a reader; the first
  of them is remembered (`Cursor.stray`) and refused at the end (`finish`).
-/
namespace FieldBinder.Grammar

/-! ### Failures -/

/-- What is wrong with a text. -/
inductive Fault
  | expected (what : String)
  /-- Something else than one of the things that can stand there. -/
  | noneOf (names : List String)
  /-- A keyword where a name is due. -/
  | keyword (name : String)
  /-- A token that is left over, possibly in front of a closing delimiter. -/
  | leftOver (before : Option Delimiter)
  | comparisonChain
  /-- Something that cannot follow a cast. -/
  | afterCast (what : String)
  | nestedAttribute
  /-- Something that is well formed and yet refused where it stands. -/
  | refused (why : String)
  /-- Deeper nesting than there are tokens, which no text reaches. -/
  | depth
deriving DecidableEq, Repr

/-- A fault, and whether the tokens ended there. -/
structure Failure where
  atEnd : Bool
  fault : Fault
deriving DecidableEq, Repr

/-- The words for things of which one is due. -/
def alternativesText : List String → String
  | [] => "unexpected token"
  | [a] => "expected " ++ a
  | [a, b] => "expected " ++ a ++ " or " ++ b
  | names => "expected one of: " ++ ", ".intercalate names

/-- The words for a fault. -/
def Fault.message : Fault → String
  | expected what => "expected " ++ what
  | noneOf names => alternativesText names
  | keyword name => "expected identifier, found keyword `" ++ name ++ "`"
  | leftOver none => "unexpected token"
  | leftOver (some .paren) => "unexpected token, expected `)`"
  | leftOver (some .bracket) => "unexpected token, expected `]`"
  | leftOver (some .brace) => "unexpected token, expected `\x7d`"
  | comparisonChain => "comparison operators cannot be chained"
  | afterCast what => "casts cannot be followed by " ++ what
  | nestedAttribute => "unexpected attribute inside of attribute"
  | refused why => why
  | depth => "nesting too deep"

/-- The words for a failure. -/
def Failure.message (f : Failure) : String :=
  if f.atEnd then
    if f.fault = .noneOf [] then "unexpected end of input"
    else "unexpected end of input, " ++ f.fault.message
  else f.fault.message

/-! ### Looking ahead -/

/-- Whether the tokens start with the given punctuation. -/
def startsWith : List Char → List Token → Bool
  | [], _ => true
  | [c], .punct d _ :: _ => c == d
  | c :: cs, .punct d joint :: r => c == d && joint && startsWith cs r
  | _, _ => false

/-- Whether the tokens start with an operator. -/
def isOp (op : String) (ts : List Token) : Bool := startsWith op.toList ts

/-- Whether the tokens start with the given word. -/
def isWord (w : String) : List Token → Bool
  | .ident name _ :: _ => name == w
  | _ => false

/-- Whether the tokens start with one of the given words. -/
def isOneOf (ws : List String) : List Token → Bool
  | .ident name _ :: _ => ws.contains name
  | _ => false

/-- Whether the tokens start with a word, keywords included. -/
def isAnyWord : List Token → Bool
  | .ident _ _ :: _ => true
  | _ => false

/-- The words that are no names. -/
def keywords : List String :=
  ["_", "abstract", "as", "async", "await", "become", "box", "break", "const", "continue",
    "crate", "do", "dyn", "else", "enum", "extern", "false", "final", "fn", "for", "if", "impl",
    "in", "let", "loop", "macro", "match", "mod", "move", "mut", "override", "priv", "pub",
    "ref", "return", "Self", "self", "static", "struct", "super", "trait", "true", "try",
    "type", "typeof", "unsafe", "unsized", "use", "virtual", "where", "while", "yield"]

/-- Whether a word is a name. -/
def isNameText (w : String) : Bool := !keywords.contains w

/-- Whether the tokens start with a name. -/
def isName : List Token → Bool
  | .ident name _ :: _ => isNameText name
  | _ => false

/-- Whether the tokens start with a lifetime. -/
def isLifetime : List Token → Bool
  | .lifetime _ :: _ => true
  | _ => false

/-- Whether the tokens start with a group. -/
def isGroup (d : Delimiter) : List Token → Bool
  | .group d' _ :: _ => d' == d
  | _ => false

/-- Whether a literal is a number. -/
def isNumber (text : String) : Bool :=
  Literal.kind text == .int || Literal.kind text == .float

/-- Whether the tokens start with a literal: one as such, a truth value, or a number with
a minus sign. -/
def isLiteral : List Token → Bool
  | .literal _ :: _ => true
  | .ident name _ :: _ => name == "true" || name == "false"
  | .punct '-' _ :: .literal t :: _ => isNumber t
  | _ => false

/-- Whether the tokens start with a string literal. -/
def isString : List Token → Bool
  | .literal t :: _ => Literal.kind t == .string
  | _ => false

/-- Whether the tokens start with a number of the given kind, possibly with a minus sign. -/
def isNumberOf (kind : Literal.Kind) : List Token → Bool
  | .literal t :: _ | .punct '-' _ :: .literal t :: _ => Literal.kind t == kind
  | _ => false

/-! ### What can come next -/

/-- The name of a kind of delimiters. -/
def delimiterName : Delimiter → String
  | .paren => "parentheses"
  | .bracket => "square brackets"
  | .brace => "curly braces"

/-- Something that can come next: what it is called, and whether tokens start with it. -/
structure Start where
  name : String
  holds : List Token → Bool

namespace Start

/-- A certain word. -/
def word (w : String) : Start := ⟨"`" ++ w ++ "`", isWord w⟩

/-- A certain operator. -/
def op (o : String) : Start := ⟨"`" ++ o ++ "`", isOp o⟩

/-- A group in certain delimiters. -/
def group (d : Delimiter) : Start := ⟨delimiterName d, isGroup d⟩

/-- A name. -/
def identifier : Start := ⟨"identifier", isName⟩

/-- A lifetime. -/
def lifetime : Start := ⟨"lifetime", isLifetime⟩

/-- A literal. -/
def literal : Start := ⟨"literal", isLiteral⟩

/-- A string literal. -/
def string : Start := ⟨"string literal", isString⟩

end Start

/-! ### Readers -/

/-- The state of a reader. -/
structure Cursor where
  rest : List Token
  /-- The printed form of what was read, last token first. -/
  written : List Token
  /-- The delimiter in front of which the first token was left over. -/
  stray : Option Delimiter

/-- A reader of tokens. -/
abbrev Parser := StateT Cursor (Except Failure)

/-- The tokens that are left. -/
def rest : Parser (List Token) := return (← get).rest

/-- Give up at the next token. -/
def fail (fault : Fault) : Parser α := do throw ⟨(← rest).isEmpty, fault⟩

/-- Give up on something that was read. -/
def refuse (why : String) : Parser α := throw ⟨false, .refused why⟩

/-- Give up because something else is due. -/
def expected (what : String) : Parser α := fail (.expected what)

/-- Give up because nothing that can come next is taken.  What does come next is not named:
it was refused for what follows it. -/
def expectedOneOf (starts : List Start) : Parser α := do
  let ts ← rest
  fail (.noneOf ((starts.filter fun s => !s.holds ts).map Start.name))

/-- Pass over tokens and note what they print. -/
def advance (count : Nat) (print : List Token) : Parser Unit :=
  modify fun s => { s with rest := s.rest.drop count, written := print.reverse ++ s.written }

/-- Note tokens as printed. -/
def note (tokens : List Token) : Parser Unit :=
  modify fun s => { s with written := tokens.reverse ++ s.written }

/-- Note what was read by the printed form of the result. -/
def printed (print : α → List Token) (p : Parser α) : Parser α := do
  let before := (← get).written
  let a ← p
  modify fun s => { s with written := (print a).reverse ++ before }
  return a

/-- Note nothing, but give the printed form of what was read. -/
def captured (p : Parser α) : Parser (α × List Token) := do
  let before := (← get).written
  modify fun s => { s with written := [] }
  let a ← p
  let tokens := (← get).written.reverse
  modify fun s => { s with written := before }
  return (a, tokens)

/-- What a reader gives, together with the tokens that it took, as they stood. -/
def verbatim (p : Parser α) : Parser (α × List Token) := do
  let before ← rest
  let a ← p
  return (a, before.take (before.length - (← rest).length))

/-- Note what was read as it stood, and not as it is printed, if the result says so. -/
def asWrittenIf (raw : α → Bool) (p : Parser α) : Parser α := do
  let before := (← get).written
  let (a, tokens) ← verbatim p
  if raw a then modify fun s => { s with written := tokens.reverse ++ before }
  return a

/-- Read a mark and what it introduces.  A mark that introduces nothing is not printed. -/
def introduced (p : Parser α) : Parser α := do
  let (a, tokens) ← captured p
  unless tokens.length ≤ 1 do note tokens
  return a

/-- Read, or go back to where reading started. -/
def attempt? (p : Parser α) : Parser (Option α) := fun s =>
  match p s with
  | .ok (a, s') => .ok (some a, s')
  | .error _ => .ok (none, s)

/-- What would be read, without reading it. -/
def foresee (p : Parser α) : Parser α := fun s =>
  match p s with
  | .ok (a, _) => .ok (a, s)
  | .error e => .error e

/-! ### Single tokens -/

/-- Read an operator if it comes next. -/
def op? (op : String) : Parser Bool := do
  if isOp op (← rest) then
    advance op.length (Token.operator op.toList)
    return true
  else return false

/-- Read an operator.  That it is missing is said in the same words where the tokens end. -/
def op (op : String) : Parser Unit := do
  unless ← op? op do throw ⟨false, .expected ("`" ++ op ++ "`")⟩

/-- Read any word. -/
def anyWord : Parser String := do
  match ← rest with
  | .ident name line :: _ => advance 1 [.ident name line]; return name
  | _ => expected "identifier"

/-- Read a word if it comes next. -/
def word? (w : String) : Parser Bool := do
  if isWord w (← rest) then
    discard anyWord
    return true
  else return false

/-- Read a word. -/
def word (w : String) : Parser Unit := do
  unless ← word? w do expected ("`" ++ w ++ "`")

/-- Read a name. -/
def name : Parser String := do
  match ← rest with
  | .ident w _ :: _ => if isNameText w then anyWord else fail (.keyword w)
  | _ => expected "identifier"

/-- Read a name or `_`. -/
def nameOrBlank : Parser String := do
  let ts ← rest
  if isName ts || isWord "_" ts then anyWord else expected "identifier or `_`"

/-- Read a lifetime. -/
def lifetime : Parser String := do
  match ← rest with
  | .lifetime l :: _ => advance 1 [.lifetime l]; return l
  | _ => expected "lifetime"

/-- Read a lifetime if one comes next. -/
def lifetime? : Parser (Option String) := do
  if isLifetime (← rest) then some <$> lifetime else return none

/-- Read a literal. -/
def literal : Parser String := do
  match ← rest with
  | .literal t :: _ => advance 1 [.literal t]; return t
  | .punct '-' _ :: .literal t :: _ =>
    if isNumber t then
      advance 2 [.punct '-' false, .literal t]
      return "-" ++ t
    else expected "literal"
  | .ident w _ :: _ => if w == "true" || w == "false" then anyWord else expected "literal"
  | _ => expected "literal"

/-- Read any token, or group of tokens, as it stands. -/
def anyTree : Parser Token := do
  match ← rest with
  | t :: _ => advance 1 [t]; return t
  | [] => expected "token"

/-- Read a group of tokens in any delimiters, as it stands. -/
def anyGroup : Parser (Delimiter × List Token) := do
  match ← rest with
  | .group d body :: _ => advance 1 [.group d body]; return (d, body)
  | _ => expected "delimiter"

/-- Whether the tokens start with a call of something built in. -/
def isBuiltin (ts : List Token) : Bool := isWord "builtin" ts && isOp "#" (ts.drop 1)

/-- Read a call of something built in, whose arguments can be any tokens. -/
def builtin : Parser Unit := do
  word "builtin"
  op "#"
  discard name
  unless isGroup .paren (← rest) do expected (delimiterName .paren)
  discard anyGroup

/-! ### Groups and repetition -/

/-- Read the inside of a group. -/
def inside (d : Delimiter) (p : Parser α) : Parser α := do
  let outer ← get
  match outer.rest with
  | .group d' body :: r =>
    if d' = d then
      -- what the inside prints becomes the body of the printed group
      set { outer with rest := body, written := [] }
      let a ← p
      let inner ← get
      set { rest := r, written := .group d inner.written.reverse :: outer.written,
            stray := inner.stray <|> (if inner.rest.isEmpty then none else some d) : Cursor }
      return a
    else expected (delimiterName d)
  | _ => expected (delimiterName d)

/-- Read at most `n` times, until there is nothing more to read. -/
def repeated (p : Parser (Option α)) : Nat → Parser (List α)
  | 0 => return []
  | n + 1 => do
    match ← p with
    | some a => return a :: (← repeated p n)
    | none => return []

/-- Read until there is nothing more to read; every turn takes a token. -/
def many (p : Parser (Option α)) : Parser (List α) := do repeated p ((← rest).length + 1)

/-- Read until the tokens end. -/
def untilEnd (p : Parser α) : Parser (List α) :=
  many do if (← rest).isEmpty then return none else some <$> p

/-- Read at most `n` times with a separator in between, until `stop` holds; also tell
whether the last thing read was a separator. -/
def separatedTimes (sep : String) (stop : List Token → Bool) (p : Parser α) :
    Nat → Parser (List α × Bool)
  | 0 => return ([], true)
  | n + 1 => do
    if stop (← rest) then return ([], true)
    let a ← p
    if stop (← rest) then return ([a], false)
    op sep
    let (r, trailing) ← separatedTimes sep stop p n
    return (a :: r, trailing)

/-- Read with a separator in between until `stop` holds. -/
def separated (sep : String) (stop : List Token → Bool) (p : Parser α) :
    Parser (List α × Bool) := do
  separatedTimes sep stop p ((← rest).length + 1)

/-- Read with commas in between until the tokens end. -/
def commas (p : Parser α) : Parser (List α × Bool) := separated "," List.isEmpty p

/-- Read at most `n` times as long as a separator follows and `stop` does not hold; also
tell whether the last thing read was a separator. -/
def joinedTimes (sep : String) (stop : List Token → Bool) (p : Parser α) :
    Nat → Parser (List α × Bool)
  | 0 => return ([], true)
  | n + 1 => do
    if stop (← rest) then return ([], true)
    let a ← p
    if ← op? sep then
      let (r, trailing) ← joinedTimes sep stop p n
      return (a :: r, trailing)
    else return ([a], false)

/-- Read as long as a separator follows and `stop` does not hold. -/
def joined (sep : String) (stop : List Token → Bool) (p : Parser α) :
    Parser (List α × Bool) := do
  joinedTimes sep stop p ((← rest).length + 1)

/-! ### Whole texts -/

/-- Read all of the tokens. -/
def finish (p : Parser α) (ts : List Token) : Except Failure α := do
  let (a, s) ← p.run { rest := ts, written := [], stray := none }
  match s.stray with
  | some d => throw ⟨false, .leftOver (some d)⟩
  | none => if s.rest.isEmpty then return a else throw ⟨false, .leftOver none⟩

end FieldBinder.Grammar
