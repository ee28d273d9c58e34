/-
  The TOML documents that a configuration can be: assignments of strings and
  booleans to keys, with comments and blank lines between them.

  Keys are bare or quoted; strings are basic or literal, on one line or several.
  Tables, arrays, numbers, dates and dotted keys are refused together with
  everything that is no TOML, since no setting has such a value.
-/
namespace FieldBinder.Toml

/-- A value of a setting. -/
inductive Value
  | text (s : String)
  | flag (b : Bool)
deriving DecidableEq, Repr, Inhabited

/-! ### Characters -/

/-- Whether a character may stand unescaped in strings and comments. -/
def isPlain (c : Char) : Bool := c == '\t' || (32 ≤ c.toNat && c.toNat ≠ 127)

/-- Whether a character is white space within a line. -/
def isSpace (c : Char) : Bool := c == ' ' || c == '\t'

/-- Whether a key can hold the character without quotes. -/
def isBareKey (c : Char) : Bool := c.isAlphanum || c == '_' || c == '-'

/-- The value of a hexadecimal digit. -/
def hexDigit? (c : Char) : Option Nat :=
  if '0' ≤ c ∧ c ≤ '9' then some (c.toNat - '0'.toNat)
  else if 'a' ≤ c ∧ c ≤ 'f' then some (c.toNat - 'a'.toNat + 10)
  else if 'A' ≤ c ∧ c ≤ 'F' then some (c.toNat - 'A'.toNat + 10)
  else none

/-- The character whose code point the hexadecimal digits write. -/
def charOfHex? (digits : List Char) : Option Char := do
  let n ← digits.foldlM (fun n c => (hexDigit? c).map (16 * n + ·)) 0
  if n.isValidChar then some (Char.ofNat n) else none

/-- The character that a one-letter escape writes. -/
def simpleEscape? : Char → Option Char
  | 'b' => some '\x08'
  | 't' => some '\t'
  | 'n' => some '\n'
  | 'f' => some '\x0c'
  | 'r' => some '\r'
  | 'e' => some '\x1b'
  | '"' => some '"'
  | '\\' => some '\\'
  | _ => none

/-- Read the escape after a backslash: its character and the text after it. -/
def escape? : List Char → Option (Char × List Char)
  | 'x' :: a :: b :: r => (charOfHex? [a, b]).map (·, r)
  | 'u' :: a :: b :: c :: d :: r => (charOfHex? [a, b, c, d]).map (·, r)
  | 'U' :: a :: b :: c :: d :: e :: f :: g :: h :: r =>
    (charOfHex? [a, b, c, d, e, f, g, h]).map (·, r)
  | c :: r => (simpleEscape? c).map (·, r)
  | [] => none

/-! ### Strings -/

/-- The rest of a line after white space, if nothing else follows up to its end. -/
def endOfLine? (cs : List Char) : Option (List Char) :=
  match cs.dropWhile isSpace with
  | [] => some []
  | '\n' :: r => some r
  | '\r' :: '\n' :: r => some r
  | _ => none

/-- The text after white space within and between lines; a carriage return belongs to
it in front of a line feed only. -/
def dropGap : List Char → List Char
  | '\r' :: '\n' :: r => dropGap r
  | '\n' :: r => dropGap r
  | c :: r => if isSpace c then dropGap r else c :: r
  | [] => []

/-- The rest of a basic string on one line; `acc` holds what is read, last character first. -/
def basicString (acc : List Char) : Nat → List Char → Option (String × List Char)
  | 0, _ | _, [] => none
  | _ + 1, '"' :: r => some (String.ofList acc.reverse, r)
  | n + 1, '\\' :: r => (escape? r).bind fun (c, r) => basicString (c :: acc) n r
  | n + 1, c :: r => if isPlain c then basicString (c :: acc) n r else none

/-- The rest of a literal string on one line. -/
def literalString (acc : List Char) : List Char → Option (String × List Char)
  | [] => none
  | '\'' :: r => some (String.ofList acc.reverse, r)
  | c :: r => if isPlain c then literalString (c :: acc) r else none

/-- The close of a string over several lines, where `quotes` quotes stand: three of
them close it, and up to two before them belong to the string. -/
def closeQuotes (quote : Char) (acc : List Char) (quotes : Nat) (rest : List Char) :
    String × List Char :=
  let kept := min 2 (quotes - 3)
  (String.ofList (List.replicate kept quote ++ acc).reverse,
    List.replicate (quotes - 3 - kept) quote ++ rest)

/-- The rest of a string over several lines, with escapes if `escapes` is set. -/
def longString (quote : Char) (escapes : Bool) (acc : List Char) :
    Nat → List Char → Option (String × List Char)
  | 0, _ | _, [] => none
  | n + 1, c :: r =>
    if c = quote then
      let quotes := ((c :: r).takeWhile (· == quote)).length
      let rest := (c :: r).dropWhile (· == quote)
      -- fewer than three quotes belong to the string
      if 3 ≤ quotes then some (closeQuotes quote acc quotes rest)
      else longString quote escapes (List.replicate quotes quote ++ acc) n rest
    else if escapes ∧ c = '\\' then
      -- a backslash at the end of a line takes all white space after it
      match endOfLine? r with
      | some r' => longString quote escapes acc n (dropGap r')
      | none => (escape? r).bind fun (d, r') => longString quote escapes (d :: acc) n r'
    else if c = '\n' then longString quote escapes ('\n' :: acc) n r
    else if c = '\r' then
      match r with
      | '\n' :: r' => longString quote escapes ('\n' :: '\r' :: acc) n r'
      | _ => none
    else if isPlain c then longString quote escapes (c :: acc) n r
    else none

/-- The text after the line break that may follow the opening of a long string. -/
def dropLineBreak : List Char → List Char
  | '\n' :: r => r
  | '\r' :: '\n' :: r => r
  | cs => cs

/-! ### Assignments -/

/-- Read a value: it and the text after it. -/
def value? : List Char → Option (Value × List Char)
  | '"' :: '"' :: '"' :: r =>
    let body := dropLineBreak r
    (longString '"' true [] body.length body).map fun (s, rest) => (.text s, rest)
  | '\'' :: '\'' :: '\'' :: r =>
    let body := dropLineBreak r
    (longString '\'' false [] body.length body).map fun (s, rest) => (.text s, rest)
  | '"' :: r => (basicString [] r.length r).map fun (s, rest) => (.text s, rest)
  | '\'' :: r => (literalString [] r).map fun (s, rest) => (.text s, rest)
  | 't' :: 'r' :: 'u' :: 'e' :: r => some (.flag true, r)
  | 'f' :: 'a' :: 'l' :: 's' :: 'e' :: r => some (.flag false, r)
  | _ => none

/-- Read a key: it and the text after it. -/
def key? : List Char → Option (String × List Char)
  | '"' :: r => basicString [] r.length r
  | '\'' :: r => literalString [] r
  | cs =>
    let name := cs.takeWhile isBareKey
    if name.isEmpty then none else some (String.ofList name, cs.dropWhile isBareKey)

/-- Read an assignment: key, value and the text after it. -/
def assignment? (cs : List Char) : Option (String × Value × List Char) := do
  let (key, r) ← key? cs
  match r.dropWhile isSpace with
  | '=' :: r' =>
    let (value, rest) ← value? (r'.dropWhile isSpace)
    some (key, value, rest)
  | _ => none

/-- The text after the end of a line, which a comment may precede. -/
def restOfLine? (cs : List Char) : Option (List Char) :=
  match cs.dropWhile isSpace with
  | '#' :: r => endOfLine? (r.dropWhile isPlain)
  | r => endOfLine? r

/-- The assignments of the remaining lines, of which there are at most as many as the
first argument says. -/
def lines? : Nat → List Char → Option (List (String × Value))
  | 0, cs => if cs.isEmpty then some [] else none
  | n + 1, cs =>
    match cs.dropWhile isSpace with
    | [] => some []
    | c :: r =>
      match restOfLine? (c :: r) with
      | some rest => lines? n rest
      | none => do
        let (key, value, rest) ← assignment? (c :: r)
        let rest ← restOfLine? rest
        let more ← lines? n rest
        some ((key, value) :: more)

/-- The assignments of a document in written order, if it is made of assignments only. -/
def parse? (text : String) : Option (List (String × Value)) :=
  let cs := match text.toList with
    | '\uFEFF' :: r => r
    | cs => cs
  lines? (cs.length + 1) cs

end FieldBinder.Toml
