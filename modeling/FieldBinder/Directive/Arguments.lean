import FieldBinder.Grammar.Text
import FieldBinder.Source.TypeText
import FieldBinder.Text.Similarity

/-
  The arguments of a directive, as written.

  A directive has two keys: `constructor_parameters`, a list of types, and
  `country_parameterized_class`, one type.  Each takes its types in parentheses
  or behind an equals sign, and a type is a path, bare or in a string literal.
  A value stops at its first fault; the faults of all items are collected.
-/
namespace FieldBinder

/-! ### Items of a list -/

/-- An item in the list of an attribute. -/
inductive MetaItem
  | literal (text : String)
  | word (path : Path)
  | list (path : Path) (tokens : List Token)
  | value (path : Path) (e : Expr)

namespace Grammar

/-- A plain path of any words, keywords included. -/
def wordPath : Parser Path := do
  let (segments, trailing) ← plainSegments isAnyWord ((← rest).length + 1)
  if trailing then expected "path segment after `::`"
  return .mk false segments

/-- An item in the list of an attribute. -/
def metaItem (g : Rules) : Parser MetaItem := do
  let ts ← rest
  let isTruth := isOneOf ["true", "false"] ts
  if isLiteral ts && !(isTruth && isOp "=" (ts.drop 1)) then return .literal (← literal)
  else if isAnyWord ts then
    let path ← wordPath
    match ← rest with
    | .group _ _ :: _ => return .list path (← anyGroup).2
    | _ =>
      if ← op? "=" then return .value path (← attributeValue g)
      else return .word path
  else expected "identifier or literal"

/-- The items in the list of an attribute. -/
def metaItems (ts : List Token) : Except Failure (List MetaItem) :=
  finish (do return (← commas (metaItem (rulesFor ts))).1) ts

end Grammar

/-! ### Faults -/

/-- What is wrong with the arguments of a directive. -/
inductive ArgumentFault
  /-- An item, or the attribute as a whole, of a form that is not taken. -/
  | form (name : String)
  | duplicate (key : String)
  | unknownKey (key : String)
  /-- Something that is no type. -/
  | notAType (what : String)
  | count
  | syntax_ (fault : Grammar.TextFault)
  | suffix (text : String)
  /-- A text by itself that holds no path. -/
  | unknownValue (text : String)
  /-- A fault in the value of a key. -/
  | inside (key : String) (fault : ArgumentFault)
  | several (faults : List ArgumentFault)

namespace ArgumentFault

/-- The keys of a directive. -/
def keys : List String := ["constructor_parameters", "country_parameterized_class"]

mutual

/-- The words for a fault. -/
def message : ArgumentFault → String
  | form name => "Unexpected meta-item format `" ++ name ++ "`"
  | duplicate key => "Duplicate field `" ++ key ++ "`"
  | unknownKey key =>
    "Unknown field: `" ++ key ++ "`. " ++
      match Text.closest? key keys with
      | some k => "Did you mean `" ++ k ++ "`?"
      | none => "Available values: " ++ joinTexts ", " (keys.map fun k => "`" ++ k ++ "`")
  | notAType what => "Unexpected type `" ++ what ++ "`"
  | count => "expected exactly one type"
  | syntax_ fault => fault.message
  | suffix text => "unexpected suffix `" ++ text ++ "` on string literal"
  | unknownValue text => "Unknown value: `" ++ text ++ "`"
  | inside key fault => fault.message ++ " at " ++ key
  | several faults => "Multiple errors: (" ++ joinTexts ", " (messages faults) ++ ")"

/-- The words for faults. -/
def messages : List ArgumentFault → List String
  | [] => []
  | f :: r => f.message :: messages r

end

end ArgumentFault

/-! ### Types in values -/

/-- The name of the form of an expression. -/
def ExprForm.label : ExprForm → String
  | .assign => "assign"
  | .asyncBlock => "async"
  | .await => "await"
  | .binary _ => "binary"
  | .block => "block"
  | .break_ => "break"
  | .call => "call"
  | .cast => "cast"
  | .closure => "closure"
  | .constBlock => "const"
  | .continue_ => "continue"
  | .field => "field"
  | .forLoop => "for_loop"
  | .if_ => "if"
  | .index => "index"
  | .infer => "infer"
  | .let_ => "let"
  | .loop => "loop"
  | .macroCall _ => "macro"
  | .match_ => "match"
  | .methodCall => "method_call"
  | .paren => "paren"
  | .path => "path"
  | .range => "range"
  | .rawAddress => "unknown"
  | .reference => "reference"
  | .repeat_ => "repeat"
  | .return_ => "return"
  | .struct => "struct"
  | .try_ => "try"
  | .tryBlock => "try_block"
  | .tuple => "tuple"
  | .unary => "unary"
  | .unsafeBlock => "unsafe"
  | .verbatim => "verbatim"
  | .while_ => "while"
  | .yield_ => "yield"

/-- The name of the form of an expression. -/
def Expr.label : Expr → String
  | .path _ => "path"
  | .literal _ => "lit"
  | .array _ => "array"
  | .group _ => "group"
  | .operation form _ | .other form => form.label

/-- The kind of a literal or a truth value; a number can have a minus sign. -/
def literalKind (text : String) : Literal.Kind :=
  if text = "true" ∨ text = "false" then .bool
  else
    match text.toList with
    -- only numbers have a minus sign
    | '-' :: cs => Literal.kind (String.ofList cs)
    | _ => Literal.kind text

/-- The path in a text that is given by itself. -/
def Path.ofText (text : String) : Except ArgumentFault Path :=
  (Path.parse text).mapError fun _ => .unknownValue text

/-- The path in a string literal. -/
def Path.ofString (text : String) : Except ArgumentFault Path := do
  -- the text is read before the suffix is looked at
  let (value, suffix) := Literal.stringValue text
  let p ← (Path.parse value).mapError .syntax_
  if suffix = "" then return p else throw (.suffix suffix)

/-- The path that an expression is. -/
def Path.ofExpr : Expr → Except ArgumentFault Path
  | .path p => .ok p
  | .literal text =>
    if literalKind text = .string then Path.ofString text else .error (.notAType "lit")
  | .group e => Path.ofExpr e
  | e => .error (.notAType e.label)

/-- The path that an item of a list is. -/
def MetaItem.path : MetaItem → Except ArgumentFault Path
  | .word p => .ok p
  | .literal text =>
    if literalKind text = .string then Path.ofString text
    else .error (.notAType (literalKind text).label)
  | .list _ _ | .value _ _ => .error (.notAType "type path")

/-- The paths in an array. -/
def pathsOfExpr : Expr → Except ArgumentFault (List Path)
  | .array elems => elems.mapM Path.ofExpr
  | .group e => pathsOfExpr e
  | e => .error (.notAType e.label)

/-- The one path in a list. -/
def pathOfItems : List MetaItem → Except ArgumentFault Path
  | [item] => item.path
  | _ => .error .count

/-- The items of a list, read from its tokens. -/
def itemsOf (tokens : List Token) : Except ArgumentFault (List MetaItem) :=
  (Grammar.metaItems tokens).mapError fun f => .syntax_ (.grammar f)

/-- The value of a key: from the items of its list, or from its expression. -/
def MetaItem.read (ofItems : List MetaItem → Except ArgumentFault α)
    (ofExpr : Expr → Except ArgumentFault α) : MetaItem → Except ArgumentFault α
  | .literal _ => .error (.form "literal")
  | .word _ => .error (.form "word")
  | .list _ tokens => itemsOf tokens >>= ofItems
  | .value _ e => ofExpr e

/-! ### Arguments -/

/-- The arguments of a directive as they are written, each of which can be missing. -/
structure Arguments where
  parameters : Option (List Path) := none
  base : Option Path := none
deriving Inhabited

namespace Arguments

/-- The arguments, faults and keys that were met so far. -/
structure Progress where
  args : Arguments := {}
  faults : List ArgumentFault := []
  seen : List String := []

/-- Note the value of a key, or what is wrong with it. -/
def Progress.note (s : Progress) (key : String) (set : Arguments → α → Arguments) :
    Except ArgumentFault α → Progress
  | .ok a => { s with args := set s.args a, seen := key :: s.seen }
  | .error f => { s with faults := s.faults ++ [.inside key f], seen := key :: s.seen }

/-- Note one more item. -/
def Progress.add (s : Progress) (item : MetaItem) : Progress :=
  match item with
  | .literal _ => { s with faults := s.faults ++ [.form "literal"] }
  | .word p | .list p _ | .value p _ =>
    let key := joinTexts "::" p.idents
    if s.seen.contains key then { s with faults := s.faults ++ [.duplicate key] }
    else if key = "constructor_parameters" then
      s.note key (fun a ps => { a with parameters := some ps })
        (item.read (·.mapM MetaItem.path) pathsOfExpr)
    else if key = "country_parameterized_class" then
      s.note key (fun a p => { a with base := some p }) (item.read pathOfItems Path.ofExpr)
    else { s with faults := s.faults ++ [.unknownKey key] }

/-- The arguments that a list of items makes; all faults are told at once. -/
def ofItems (items : List MetaItem) : Except ArgumentFault Arguments :=
  let s := items.foldl Progress.add {}
  match s.faults with
  | [] => .ok s.args
  | [f] => .error f
  | fs => .error (.several fs)

/-- The arguments of a directive attribute; a bare attribute has none. -/
def ofAttribute (a : Attribute) : Except ArgumentFault Arguments :=
  match a.args with
  | .none => .ok {}
  | .list tokens => itemsOf tokens >>= ofItems
  | .value _ => .error (.form "name-value")

end Arguments

end FieldBinder
