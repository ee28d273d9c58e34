import FieldBinder.Grammar.Item
import FieldBinder.Source.Lexer

/-
  Reading whole texts.

  `rules` gives every phrase its reader.  A reader calls itself only for what
  stands inside what it reads, so that the nesting of calls is bounded by the
  number of tokens; `rulesFor` takes a bound that is large enough.
-/
namespace FieldBinder

namespace Grammar

/-- The reader for a phrase, in terms of the readers for the phrases inside it. -/
def step (g : Rules) : Rules
  | .type plus => type g plus
  | .bound captures constant => bound g captures constant
  | .expr braces => expr g braces
  | .operand braces => operand g braces
  | .operators braces base left => operators g braces base left
  | .standing => standing g
  | .pattern => pattern g
  | .statements => statements g
  | .useTree root => useTree g root
  | .fields => namedFields g
  | .item => item g

/-- The readers for phrases in which calls are nested less than `n` deep. -/
def rules : Nat → Rules
  | 0 => fun _ => fail .depth
  | n + 1 => step (rules n)

/-- The readers for phrases among the given tokens. -/
def rulesFor (ts : List Token) : Rules := rules (6 * Token.sizeList ts + 16)

/-- What is wrong with a text as a whole. -/
inductive TextFault
  /-- The text is no sequence of tokens. -/
  | tokens
  | grammar (f : Failure)
deriving DecidableEq, Repr

/-- The words for what is wrong with a text. -/
def TextFault.message : TextFault → String
  | tokens => "cannot parse string into token stream"
  | grammar f => f.message

/-- Read all of a text. -/
def readAll (p : Rules → Parser α) (text : String) : Except TextFault α :=
  match Token.lex? text with
  | none => .error .tokens
  | some ts => (finish (p (rulesFor ts)) ts).mapError .grammar

/-- What is left of a file when a first line that names its interpreter is cut off; the
line break stays. -/
def withoutInterpreter (cs : List Char) : List Char :=
  let rec skipGaps : Nat → List Char → List Char
    | 0, cs => cs
    | n + 1, cs =>
      match Lexeme.gap? cs with
      | some (_, r) => skipGaps n r
      | none => cs
  match cs with
  | '#' :: '!' :: r =>
    if (skipGaps r.length r).head? = some '[' then cs else cs.dropWhile (· != '\n')
  | _ => cs

end Grammar

open Grammar

/-- The type that a text is. -/
def Ty.parse? (text : String) : Option Ty :=
  (readAll (fun g => g (.type true)) text).toOption

/-- The path that a text is. -/
def Path.parse (text : String) : Except TextFault Path :=
  readAll (fun g => path g false) text

/-- The expression that a text is. -/
def Expr.parse? (text : String) : Option Expr :=
  (readAll (fun g => g (.expr true)) text).toOption

/-- The one attribute that a text is. -/
def Attribute.parse? (text : String) : Option Attribute :=
  match readAll outerAttributes text with
  | .ok [a] => some a
  | _ => none

namespace Item

/-- The struct, enum or union that a text is. -/
def parseData (text : String) : Except TextFault Item := readAll dataItem text

/-- The items of a file. -/
def parseFile? (text : String) : Option (List Item) :=
  let cs := match text.toList with
    | '\uFEFF' :: r => r
    | cs => cs
  (readAll items (String.ofList (withoutInterpreter cs))).toOption

end Item

end FieldBinder
