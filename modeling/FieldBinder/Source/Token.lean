/-
  Token trees and the text they are printed as.

  A source text is a forest of tokens: names, lifetimes, literals, punctuation
  characters, and groups in matching delimiters.  A punctuation character that is
  `joint` belongs together with the character after it.  In printed form tokens
  are separated by single blanks, except after joint punctuation; parentheses
  and brackets hug what they hold, braces do not.
-/
namespace FieldBinder

/-- The three kinds of delimiters. -/
inductive Delimiter
  | paren
  | bracket
  | brace
deriving DecidableEq, Repr, Inhabited

/-- A token, or a group of tokens in delimiters. -/
inductive Token
  /-- A name, with the line it stands on; a raw name keeps its `r#`. -/
  | ident (name : String) (line : Nat)
  /-- A lifetime, with its apostrophe. -/
  | lifetime (name : String)
  /-- A literal as it was written. -/
  | literal (text : String)
  /-- A punctuation character, and whether it belongs to the one after it. -/
  | punct (c : Char) (joint : Bool)
  | group (delimiter : Delimiter) (body : List Token)
deriving Repr, Inhabited

namespace Delimiter

/-- The opening text of a printed group. -/
def opening : Delimiter → String
  | paren => "("
  | bracket => "["
  | brace => "\x7b "

/-- The closing text of a printed group, after its contents. -/
def closing : Delimiter → String
  | paren => ")"
  | bracket => "]"
  | brace => "\x7d"

end Delimiter

namespace Token

mutual

/-- The printed form of a token. -/
def text : Token → String
  | ident name _ => name
  | lifetime name => name
  | literal t => t
  | punct c _ => c.toString
  | group d body =>
    d.opening ++ textList body ++
      (if d = .brace ∧ body.isEmpty = false then " " else "") ++ d.closing

/-- The printed form of a list of tokens. -/
def textList : List Token → String
  | [] => ""
  | [t] => t.text
  | t :: u :: r => t.text ++ (if t.isJoint then "" else " ") ++ textList (u :: r)

/-- Whether a token is printed directly in front of the next one. -/
def isJoint : Token → Bool
  | punct _ joint => joint
  | _ => false

end

mutual

/-- The number of tokens in a token tree, groups included. -/
def size : Token → Nat
  | group _ body => sizeList body + 1
  | _ => 1

/-- The number of tokens in a list of token trees. -/
def sizeList : List Token → Nat
  | [] => 0
  | t :: r => t.size + sizeList r

end

/-- The characters of an operator as punctuation, all but the last of them joint. -/
def operator : List Char → List Token
  | [] => []
  | [c] => [punct c false]
  | c :: d :: r => punct c true :: operator (d :: r)

/-- A name that stands on no line of a source. -/
def word (name : String) : Token := ident name 0

end Token

end FieldBinder
