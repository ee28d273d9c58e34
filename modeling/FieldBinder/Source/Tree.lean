import FieldBinder.Source.Token

/-
  Syntax trees: types, attributes, expressions and items.

  A tree holds what the rest of the library asks about.  Types and paths are
  held in full and can be printed again as tokens (`Ty.tokens`, `Path.tokens`);
  function types, macro calls and other forms that nobody takes apart are held
  as the tokens they print.  Of an expression only paths, literals and arrays
  are kept, and the form of all others.
-/
namespace FieldBinder

/-! ### Types and paths -/

mutual

/-- A type. -/
inductive Ty
  | path (p : Path)
  | reference (lifetime : Option String) (isMut : Bool) (elem : Ty)
  | pointer (isMut : Bool) (elem : Ty)
  | slice (elem : Ty)
  /-- An array; the length is an expression. -/
  | array (elem : Ty) (len : List Token)
  | tuple (elems : List Ty) (trailing : Bool)
  /-- A trait object, written with `dyn` or without. -/
  | traitObject (isDyn : Bool) (bounds : List Bound) (trailing : Bool)
  | implTrait (bounds : List Bound) (trailing : Bool)
  /-- A type in invisible delimiters. -/
  | group (elem : Ty)
  | paren (elem : Ty)
  | never
  | infer
  /-- Any other type: a function, a macro call, a path through a trait. -/
  | other (tokens : List Token)

/-- What a bound list asks for. -/
inductive Bound
  /-- A trait, possibly in parentheses, with `?`, and with a `for` binder. -/
  | trait (parens : Bool) (maybe : Bool) (binder : Option (List Token)) (path : Path)
  | lifetime (name : String)
  | other (tokens : List Token)

/-- A path; a leading one starts with `::`. -/
inductive Path
  | mk (leading : Bool) (segments : List Segment)

/-- A name in a path with its arguments. -/
inductive Segment
  | mk (ident : String) (args : Args)

/-- The arguments of a path segment. -/
inductive Args
  | none
  /-- Arguments in angle brackets, after `::` or directly after the name. -/
  | angle (turbofish : Bool) (args : List GenericArg) (trailing : Bool)
  /-- Parameters in parentheses and the type of the result. -/
  | paren (inputs : List Ty) (trailing : Bool) (output : Option Ty)

/-- An argument in angle brackets. -/
inductive GenericArg
  | lifetime (name : String)
  | type (t : Ty)
  /-- A type for a name that the trait declares. -/
  | assocType (name : String) (args : Args) (t : Ty)
  /-- Any other argument: a value, a value for a name, bounds for a name. -/
  | other (tokens : List Token)

end

instance : Inhabited Path := ⟨.mk false []⟩
instance : Inhabited Ty := ⟨.never⟩

/-! ### Printing types as tokens -/

namespace Token

/-- Lists of tokens with a punctuation character between them, and after the last one
if `trailing` is set. -/
def separate (c : Char) (trailing : Bool) : List (List Token) → List Token
  | [] => []
  | [x] => x ++ (if trailing then [punct c false] else [])
  | x :: y :: r => x ++ punct c false :: separate c trailing (y :: r)

/-- The tokens of arguments, each with its separator except for the last one. -/
def punctuate (c : Char) (trailing : Bool) :
    List (α × List Token) → List (α × List Token × Bool)
  | [] => []
  | [x] => [(x.1, x.2, trailing)]
  | x :: y :: r => (x.1, x.2, true) :: punctuate c trailing (y :: r)

/-- Arguments as they are printed in angle brackets: the ones that are lifetimes come
first, and every argument keeps the comma that it was written with. -/
def lifetimesFirst (trailing : Bool) (args : List (Bool × List Token)) : List Token :=
  let args := punctuate ',' trailing args
  let write (ts : List Token) (comma : Bool) := ts ++ (if comma then [punct ',' false] else [])
  let lifetimes := args.filter (·.1)
  let closed := match lifetimes.getLast? with
    | none => true
    | some a => a.2.2
  let rest := (args.filter (!·.1)).foldl
    (fun (acc : List Token × Bool) a =>
      (acc.1 ++ (if acc.2 then [] else [punct ',' false]) ++ write a.2.1 a.2.2, a.2.2))
    (([], closed) : List Token × Bool)
  (lifetimes.flatMap fun a => write a.2.1 a.2.2) ++ rest.1

end Token

open Token (separate operator word)

mutual

/-- The tokens that a type prints. -/
def Ty.tokens : Ty → List Token
  | .path p => p.tokens
  | .reference lifetime isMut elem =>
    .punct '&' false :: (lifetime.toList.map .lifetime ++
      ((if isMut then [word "mut"] else []) ++ elem.tokens))
  | .pointer isMut elem =>
    .punct '*' false :: word (if isMut then "mut" else "const") :: elem.tokens
  | .slice elem => [.group .bracket elem.tokens]
  | .array elem len => [.group .bracket (elem.tokens ++ .punct ';' false :: len)]
  | .tuple elems trailing =>
    [.group .paren (separate ',' (trailing || elems.length == 1) (Ty.tokensList elems))]
  | .traitObject isDyn bounds trailing =>
    (if isDyn then [word "dyn"] else []) ++ separate '+' trailing (Bound.tokensList bounds)
  | .implTrait bounds trailing =>
    word "impl" :: separate '+' trailing (Bound.tokensList bounds)
  | .group elem => elem.tokens
  | .paren elem => [.group .paren elem.tokens]
  | .never => [.punct '!' false]
  | .infer => [word "_"]
  | .other tokens => tokens

/-- The tokens that types print, one after the other. -/
def Ty.tokensList : List Ty → List (List Token)
  | [] => []
  | t :: r => t.tokens :: Ty.tokensList r

/-- The tokens that a bound prints. -/
def Bound.tokens : Bound → List Token
  | .trait parens isMaybe binder path =>
    let body := (if isMaybe then [.punct '?' false] else []) ++ binder.getD [] ++ path.tokens
    if parens then [.group .paren body] else body
  | .lifetime name => [.lifetime name]
  | .other tokens => tokens

/-- The tokens that bounds print, one after the other. -/
def Bound.tokensList : List Bound → List (List Token)
  | [] => []
  | b :: r => b.tokens :: Bound.tokensList r

/-- The tokens that a path prints. -/
def Path.tokens : Path → List Token
  | .mk leading segments =>
    (if leading then operator [':', ':'] else []) ++ Segment.tokensList segments

/-- The tokens of segments with `::` between them. -/
def Segment.tokensList : List Segment → List Token
  | [] => []
  | [s] => s.tokens
  | s :: s' :: r => s.tokens ++ (operator [':', ':'] ++ Segment.tokensList (s' :: r))

/-- The tokens that a segment prints. -/
def Segment.tokens : Segment → List Token
  | .mk ident args => word ident :: args.tokens

/-- The tokens that the arguments of a segment print. -/
def Args.tokens : Args → List Token
  | .none => []
  | .angle turbofish args trailing =>
    (if turbofish then operator [':', ':'] else []) ++ .punct '<' false ::
      (Token.lifetimesFirst trailing (GenericArg.tokensList args) ++ [.punct '>' false])
  | .paren inputs trailing output =>
    .group .paren (separate ',' trailing (Ty.tokensList inputs)) ::
      match output with
      | .none => []
      | .some t => operator ['-', '>'] ++ t.tokens

/-- The tokens of generic arguments, each with a mark whether it is a lifetime. -/
def GenericArg.tokensList : List GenericArg → List (Bool × List Token)
  | [] => []
  | a :: r => a.tokens :: GenericArg.tokensList r

/-- The tokens that a generic argument prints, and whether it is a lifetime. -/
def GenericArg.tokens : GenericArg → Bool × List Token
  | .lifetime name => (true, [.lifetime name])
  | .type t => (false, t.tokens)
  | .assocType name args t =>
    (false, word name :: (args.tokens ++ .punct '=' false :: t.tokens))
  | .other tokens => (false, tokens)

end

namespace Path

/-- Whether a path starts with `::`. -/
def isLeading : Path → Bool
  | .mk leading _ => leading

/-- The segments of a path. -/
def segments : Path → List Segment
  | .mk _ segments => segments

/-- The path that is a single name. -/
def ofIdent (name : String) : Path := .mk false [.mk name .none]

end Path

namespace Segment

/-- The name of a segment. -/
def ident : Segment → String
  | .mk ident _ => ident

/-- The arguments of a segment. -/
def args : Segment → Args
  | .mk _ args => args

end Segment

/-- Whether a segment has no arguments. -/
def Args.isNone : Args → Bool
  | .none => true
  | _ => false

/-- Whether a segment has no arguments, or only the brackets for them. -/
def Args.isEmpty : Args → Bool
  | .none => true
  | .angle _ args _ => args.isEmpty
  | .paren _ _ _ => false

namespace Path

/-- The names of the segments. -/
def idents (p : Path) : List String := p.segments.map Segment.ident

/-- Whether no segment has arguments. -/
def isPlain (p : Path) : Bool := p.segments.all (·.args.isNone)

/-- Whether the path is the given name and nothing else. -/
def isIdent (p : Path) (name : String) : Bool :=
  !p.isLeading && p.isPlain && p.idents == [name]

end Path

/-! ### Expressions and attributes -/

/-- The forms of expressions that are not taken apart. -/
inductive ExprForm
  | assign | asyncBlock | await | binary (comparison : Bool) | block | break_ | call | cast
  | closure | constBlock | continue_ | field | forLoop | if_ | index | infer | let_ | loop
  | macroCall (braces : Bool) | match_ | methodCall | paren | path | range | rawAddress
  | reference | repeat_ | return_ | struct | try_ | tryBlock | tuple | unary | unsafeBlock
  | verbatim | while_ | yield_
deriving DecidableEq, Repr

/-- An expression. -/
inductive Expr
  /-- A path that goes through no trait. -/
  | path (p : Path)
  /-- A literal or a truth value, as written. -/
  | literal (text : String)
  | array (elems : List Expr)
  /-- An expression in invisible delimiters. -/
  | group (e : Expr)
  /-- An assignment, an operator between two operands, or a cast. -/
  | operation (form : ExprForm) (left : Expr)
  | other (form : ExprForm)

instance : Inhabited Expr := ⟨.other .verbatim⟩

namespace Expr

/-- Whether an expression is a range, which takes part in no operation unparenthesised. -/
def isRange : Expr → Bool
  | .other .range => true
  | _ => false

/-- Whether an expression is a comparison, which cannot be compared unparenthesised. -/
def isComparison : Expr → Bool
  | .operation (.binary comparison) _ => comparison
  | _ => false

/-- Whether an expression is kept as the tokens that it was written with. -/
def isVerbatim : Expr → Bool
  | .other .verbatim => true
  | _ => false

/-- The operand at the left end of an expression. -/
def leftmost : Expr → Expr
  | .operation _ left => left.leftmost
  | e => e

/-- Whether an expression ends with a block of its own, so that no separator is due. -/
def isBlockLike : Expr → Bool
  | .other form =>
    [.if_, .match_, .block, .unsafeBlock, .while_, .loop, .forLoop, .tryBlock,
      .constBlock].contains form
  | _ => false

/-- Whether an expression is a macro call in braces. -/
def isBraceCall : Expr → Bool
  | .other (.macroCall braces) => braces
  | _ => false

end Expr

/-- What follows the path of an attribute. -/
inductive AttrArgs
  | none
  /-- Tokens in delimiters. -/
  | list (tokens : List Token)
  /-- A value after an equals sign. -/
  | value (e : Expr)

instance : Inhabited AttrArgs := ⟨.none⟩

/-- An attribute of an item or a field. -/
structure Attribute where
  path : Path
  args : AttrArgs
deriving Inhabited

/-! ### Items -/

/-- What a `use` item imports. -/
inductive UseTree
  | path (ident : String) (tree : UseTree)
  | name (ident : String)
  | rename (ident alias_ : String)
  | glob
  | group (trees : List UseTree)
deriving Inhabited

/-- A field with a name, which stands on the given line. -/
structure NamedField where
  attributes : List Attribute
  name : String
  line : Nat
  type : Ty
deriving Inhabited

/-- The fields of a struct. -/
inductive Fields
  | named (fields : List NamedField)
  /-- Fields without names, of which only the attributes are kept. -/
  | tuple (attributes : List (List Attribute))
  | unit
deriving Inhabited

/-- An item of a file or a module. -/
inductive Item
  | use (leading : Bool) (tree : UseTree)
  | struct (name : String) (fields : Fields)
  | enum (name : String)
  | union (name : String)
  | trait (name : String) (supertraits : List Bound)
  | typeAlias (name : String)
  /-- A module, with its items if they stand in place. -/
  | mod (name : String) (items : Option (List Item))
  /-- An implementation, for a trait or not. -/
  | impl (negative generic : Bool) (trait : Option Path) (self : Ty)
  /-- An item that is kept as the tokens that it was written with. -/
  | verbatim
  | other
deriving Inhabited

/-- Whether an item is kept as the tokens that it was written with. -/
def Item.isVerbatim : Item → Bool
  | .verbatim => true
  | _ => false

end FieldBinder
