import FieldBinder.Grammar.Basic

/-
  The phrases of the grammar.

  Phrases contain one another: a type holds expressions (the length of an
  array), an expression types, a block items, an item everything.  A reader for
  one phrase therefore takes the readers for all of them (`Rules`) and uses
  these for the phrases inside; `Grammar.rules` ties the knot.
-/
namespace FieldBinder.Grammar

/-- How tightly operators bind, weakest first. -/
inductive Precedence
  | jump | assign | range | disjunction | conjunction | binding | comparison
  | bitOr | bitXor | bitAnd | shift | sum | product | cast
deriving DecidableEq, Repr

/-- The place of a precedence in the order. -/
def Precedence.rank : Precedence → Nat
  | jump => 0
  | assign => 1
  | range => 2
  | disjunction => 3
  | conjunction => 4
  | binding => 5
  | comparison => 6
  | bitOr => 7
  | bitXor => 8
  | bitAnd => 9
  | shift => 10
  | sum => 11
  | product => 12
  | cast => 13

/-- What the readers of larger phrases ask about a pattern. -/
inductive PatternForm
  /-- The pattern `..`. -/
  | rest
  /-- A range, of which one end can be open. -/
  | range (isOpen : Bool)
  /-- A pattern that is kept as it stood. -/
  | verbatim
  | other
deriving DecidableEq, Repr

/-- The phrases that occur inside others. -/
inductive Phrase
  /-- A type; `plus` says whether it may be a sum of bounds. -/
  | type (plus : Bool)
  /-- A bound; the two marks say whether it may be a `use` bound, and a `const` one. -/
  | bound (captures constant : Bool)
  /-- An expression; `braces` says whether a struct literal may stand outside of groups. -/
  | expr (braces : Bool)
  /-- An operand with the operators in front of it. -/
  | operand (braces : Bool)
  /-- What follows a left operand, with operators that bind no weaker than `base`. -/
  | operators (braces : Bool) (base : Precedence) (left : Expr)
  /-- An expression that stands by itself, as a statement does. -/
  | standing
  | pattern
  /-- The statements of a block, without its braces. -/
  | statements
  /-- The tree of a `use` item; `root` says whether a path in it may start with `::`. -/
  | useTree (root : Bool)
  /-- Fields with names, in braces. -/
  | fields
  /-- An item with its attributes. -/
  | item

/-- What reading a phrase gives. -/
abbrev Phrase.Result : Phrase → Type
  | type _ => Ty
  | bound _ _ => Bound
  | expr _ | operand _ | operators _ _ _ | standing => Expr
  | pattern => PatternForm
  | statements => Unit
  | useTree _ => Option UseTree
  | fields => List NamedField
  | item => Item

/-- A reader for each phrase. -/
abbrev Rules := (p : Phrase) → Parser p.Result

end FieldBinder.Grammar
