import FieldBinder.Source.Literal
import FieldBinder.Source.Token
import FieldBinder.Text.Quoted

/-
  From characters to token trees.

  The characters are first cut into lexemes (`Lexeme.scan?`): delimiters, and
  the tokens between them.  White space and comments leave no lexeme; a
  documentation comment leaves the attribute that it stands for.  The lexemes
  are then nested into groups (`Lexeme.nest`).
-/
namespace FieldBinder

/-- A delimiter, or tokens between delimiters. -/
inductive Lexeme
  | opening (d : Delimiter)
  | closing (d : Delimiter)
  | tokens (ts : List Token)
deriving Repr, Inhabited

namespace Lexeme

/-! ### White space and comments -/

/-- Whether a character separates tokens. -/
def isGap (c : Char) : Bool :=
  Text.isBlank c || c == '\u200e' || c == '\u200f'

/-- The rest of a line, without the line break and the carriage return before it. -/
def restOfLine : List Char → List Char × List Char
  | [] => ([], [])
  | '\n' :: r => ([], '\n' :: r)
  | '\r' :: '\n' :: r => ([], '\n' :: r)
  | c :: r => let (t, r') := restOfLine r; (c :: t, r')

/-- A comment in `/*` and `*/`, which may hold further comments; `depth` of them are open. -/
def blockComment? (depth : Nat) (acc : List Char) : List Char → Option (List Char × List Char)
  | [] => none
  | '/' :: '*' :: r => blockComment? (depth + 1) ('*' :: '/' :: acc) r
  | '*' :: '/' :: r =>
    if depth ≤ 1 then some (('/' :: '*' :: acc).reverse, r)
    else blockComment? (depth - 1) ('/' :: '*' :: acc) r
  | c :: r => blockComment? depth (c :: acc) r

/-- A piece of white space or a comment that is no documentation. -/
def gap? (cs : List Char) : Option (List Char × List Char) :=
  match cs with
  | '/' :: '/' :: '!' :: _ => none
  -- four slashes document nothing
  | '/' :: '/' :: '/' :: '/' :: _ => some (restOfLine cs)
  | '/' :: '/' :: '/' :: _ => none
  | '/' :: '/' :: _ => some (restOfLine cs)
  -- an empty comment documents nothing, and neither does one with three stars
  | '/' :: '*' :: '*' :: '/' :: r => some (['/', '*', '*', '/'], r)
  | '/' :: '*' :: '!' :: _ => none
  | '/' :: '*' :: '*' :: '*' :: _ => blockComment? 0 [] cs
  | '/' :: '*' :: '*' :: _ => none
  | '/' :: '*' :: _ => blockComment? 0 [] cs
  | c :: r =>
    if isGap c then some (c :: r.takeWhile isGap, r.dropWhile isGap) else none
  | [] => none

/-! ### Documentation -/

/-- Whether every carriage return stands in front of a line break. -/
def returnsEndLines : List Char → Bool
  | [] => true
  | '\r' :: '\n' :: r => returnsEndLines r
  | c :: r => c != '\r' && returnsEndLines r

/-- The attribute that a documentation comment stands for; an inner one documents what
it stands in. -/
def docAttribute (inner : Bool) (comment : List Char) : List Token :=
  [.punct '#' false] ++ (if inner then [.punct '!' false] else []) ++
    [.group .bracket [.word "doc", .punct '=' false,
      .literal (Text.quote (String.ofList comment))]]

/-- A documentation comment: its text as written, whether it is an inner one, what it
says, and the characters after it. -/
def doc? (cs : List Char) : Option (List Char × Bool × List Char × List Char) :=
  let ofLine (inner : Bool) (r : List Char) :=
    let (t, rest) := restOfLine r
    some (t, inner, t, rest)
  let ofBlock (inner : Bool) :=
    (blockComment? 0 [] cs).map fun (t, rest) =>
      (t, inner, (t.drop 3).take (t.length - 5), rest)
  match cs with
  | '/' :: '/' :: '!' :: r => ofLine true r
  | '/' :: '/' :: '/' :: '/' :: _ => none
  | '/' :: '/' :: '/' :: r => ofLine false r
  | '/' :: '*' :: '!' :: _ => ofBlock true
  | '/' :: '*' :: '*' :: '*' :: _ => none
  | '/' :: '*' :: '*' :: _ => ofBlock false
  | _ => none

/-! ### Names and punctuation -/

/-- A name without `r#`. -/
def plainName? (cs : List Char) : Option (List Char × List Char) :=
  match cs with
  | c :: r =>
    if Text.isIdentStart c then
      some (c :: r.takeWhile Text.isIdentContinue, r.dropWhile Text.isIdentContinue)
    else none
  | [] => none

/-- The names that have no raw form. -/
def neverRaw (name : List Char) : Bool :=
  ["_", "super", "self", "Self", "crate"].contains (String.ofList name)

/-- A name, raw or not. -/
def name? (cs : List Char) : Option (List Char × List Char) :=
  match cs with
  | 'r' :: '#' :: r =>
    match plainName? r with
    | some (t, rest) => if neverRaw t then none else some ('r' :: '#' :: t, rest)
    | none => none
  | _ => plainName? cs

/-- The openings of quoted literals, which start no name. -/
def literalOpenings : List (List Char) :=
  ["r\"", "r#\"", "r##", "b\"", "b'", "br\"", "br#", "c\"", "cr\"", "cr#"].map String.toList

/-- Whether a character is punctuation. -/
def isPunct (c : Char) : Bool := "~!@#$%^&*-=+|;:,<.>/?'".toList.contains c

/-- Whether a punctuation token starts here; a comment starts none. -/
def startsPunct : List Char → Bool
  | '/' :: '/' :: _ => false
  | '/' :: '*' :: _ => false
  | c :: _ => isPunct c
  | [] => false

/-- A token that is no group: it, its text, and the characters after it. -/
def leaf? (line : Nat) (cs : List Char) : Option (Token × List Char × List Char) :=
  match Literal.scan? cs with
  | some (t, r) => some (.literal (String.ofList t), t, r)
  | none =>
    match cs with
    | [] => none
    | c :: r =>
      if c = '\'' then
        match name? r with
        | some (t, rest) =>
          -- `'a'` is a character and no lifetime, and `'a#` is reserved unless the name is raw
          if rest.head? = some '\'' ∨
              (rest.head? = some '#' ∧ ¬ ['r', '#'].isPrefixOf r) then none
          -- the letters of a quoted literal are no name
          else if literalOpenings.any (·.isPrefixOf r) then some (.punct c true, [c], r)
          else some (.lifetime (String.ofList (c :: t)), c :: t, rest)
        | none => none
      else if startsPunct cs then some (.punct c (startsPunct r), [c], r)
      -- a literal that was opened and is not closed is no name either
      else if literalOpenings.any (·.isPrefixOf cs) then none
      else if Literal.omission.isPrefixOf cs then
        let t := Literal.omission
        some (.literal (String.ofList t), t, cs.drop t.length)
      else (name? cs).map fun (t, rest) => (.ident (String.ofList t) line, t, rest)

/-! ### Lexemes -/

/-- The delimiter that the first of the characters opens. -/
def opens? (cs : List Char) : Option Delimiter :=
  match cs.head? with
  | some '(' => if Literal.omission.isPrefixOf cs then none else some .paren
  | some '[' => some .bracket
  | some '\x7b' => some .brace
  | _ => none

/-- The delimiter that a character closes. -/
def closes? : Char → Option Delimiter
  | ')' => some .paren
  | ']' => some .bracket
  | '\x7d' => some .brace
  | _ => none

/-- The number of line breaks among the characters. -/
def lineBreaks (cs : List Char) : Nat := cs.count '\n'

/-- The lexemes of the characters, which start on the given line; the first number
bounds how many lexemes and gaps there are. -/
def scan? : Nat → Nat → List Char → Option (List Lexeme)
  | _, _, [] => some []
  | 0, _, _ => none
  | n + 1, line, c :: r =>
    match gap? (c :: r) with
    | some (t, rest) => scan? n (line + lineBreaks t) rest
    | none =>
      match doc? (c :: r) with
      | some (t, inner, comment, rest) =>
        if returnsEndLines comment then
          (scan? n (line + lineBreaks t) rest).map (.tokens (docAttribute inner comment) :: ·)
        else none
      | none =>
        match opens? (c :: r), closes? c with
        | some d, _ => (scan? n line r).map (.opening d :: ·)
        | none, some d => (scan? n line r).map (.closing d :: ·)
        | none, none =>
          match leaf? line (c :: r) with
          | some (token, t, rest) =>
            (scan? n (line + lineBreaks t) rest).map (.tokens [token] :: ·)
          | none => none

/-- Nest lexemes into groups; `opened` are the groups that are open, each with what
stands before it, and `before` what stands before the first lexeme, last token first. -/
def nest (opened : List (Delimiter × List Token)) (before : List Token) :
    List Lexeme → Option (List Token)
  | [] => if opened.isEmpty then some before.reverse else none
  | .tokens ts :: r => nest opened (ts.reverse ++ before) r
  | .opening d :: r => nest ((d, before) :: opened) [] r
  | .closing d :: r =>
    match opened with
    | [] => none
    | (d', outside) :: opened' =>
      if d = d' then nest opened' (.group d before.reverse :: outside) r else none

end Lexeme

/-- The token trees of a text.  A byte order mark at its start is passed over. -/
def Token.lex? (text : String) : Option (List Token) :=
  let cs := match text.toList with
    | '\uFEFF' :: r => r
    | cs => cs
  (Lexeme.scan? cs.length 1 cs).bind (Lexeme.nest [] [])

end FieldBinder
