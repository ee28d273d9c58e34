import FieldBinder.Text.Blank
import FieldBinder.Text.Identifier

/-
  Literals of source texts: where one ends, of what kind it is, and the text
  that a string literal stands for.

  A scanner takes the characters from the start of a literal and gives the
  characters of the literal and those after it.
-/
namespace FieldBinder.Literal

/-- The three flavours of quoted text. -/
inductive Flavour
  | text
  | bytes
  | cText
deriving DecidableEq, Repr

/-- The characters that a scanner has taken, and the ones that it leaves. -/
abbrev Scan := Option (List Char × List Char)

/-- The value of a hexadecimal digit. -/
def hexValue? (c : Char) : Option Nat :=
  if '0' ≤ c ∧ c ≤ '9' then some (c.toNat - '0'.toNat)
  else if 'a' ≤ c ∧ c ≤ 'f' then some (c.toNat - 'a'.toNat + 10)
  else if 'A' ≤ c ∧ c ≤ 'F' then some (c.toNat - 'A'.toNat + 10)
  else none

/-! ### Escapes -/

/-- The digits of a code point up to the closing brace, after `len` digits that make
`value`: the characters taken, the code point, and the characters after it. -/
def codePoint? (value len : Nat) : List Char → Option (List Char × Nat × List Char)
  | [] => none
  | c :: r =>
    if c = '\x7d' then
      if 0 < len ∧ value.isValidChar then some ([c], value, r) else none
    else if c = '_' ∧ 0 < len then
      (codePoint? value len r).map fun (t, v, r') => (c :: t, v, r')
    else
      match hexValue? c with
      | some d =>
        if len = 6 then none
        else (codePoint? (16 * value + d) (len + 1) r).map fun (t, v, r') => (c :: t, v, r')
      | none => none

/-- The white space after a backslash at the end of a line. -/
def lineContinuation? : List Char → Scan
  | [] => none
  | '\r' :: '\n' :: r => (lineContinuation? r).map fun (t, r') => ('\r' :: '\n' :: t, r')
  | c :: r =>
    if c = '\r' then none
    else if c = ' ' ∨ c = '\t' ∨ c = '\n' then
      (lineContinuation? r).map fun (t, r') => (c :: t, r')
    else some ([], c :: r)

/-- The escape after a backslash. -/
def escape? (f : Flavour) : List Char → Scan
  | [] => none
  | c :: r =>
    if c = 'x' then
      match r with
      | a :: b :: r' =>
        match hexValue? a, hexValue? b with
        | some va, some vb =>
          if (f = .text ∧ 8 ≤ va) ∨ (f = .cText ∧ va = 0 ∧ vb = 0) then none
          else some ([c, a, b], r')
        | _, _ => none
      | _ => none
    else if c = 'n' ∨ c = 'r' ∨ c = 't' ∨ c = '\\' ∨ c = '\'' ∨ c = '"' then some ([c], r)
    else if c = '0' ∧ f ≠ .cText then some ([c], r)
    else if c = 'u' ∧ f ≠ .bytes then
      match r with
      | '\x7b' :: r' =>
        match codePoint? 0 0 r' with
        | some (t, v, r'') =>
          if f = .cText ∧ v = 0 then none else some (c :: '\x7b' :: t, r'')
        | none => none
      | _ => none
    else none

/-! ### Quoted text -/

/-- Whether quoted text of a flavour can hold the character itself. -/
def Flavour.admits (f : Flavour) (c : Char) : Bool :=
  match f with
  | .text => true
  | .bytes => c.toNat < 128
  | .cText => c.toNat != 0

/-- The rest of a quoted text with escapes; `acc` holds what is taken, last character
first, and the number bounds the characters left. -/
def cooked (f : Flavour) (acc : List Char) : Nat → List Char → Scan
  | 0, _ | _, [] => none
  | n + 1, c :: r =>
    if c = '"' then some ((c :: acc).reverse, r)
    else if c = '\r' then
      match r with
      | '\n' :: r' => cooked f ('\n' :: c :: acc) n r'
      | _ => none
    else if c = '\\' then
      match r with
      | d :: _ =>
        if d = '\n' ∨ d = '\r' then
          (lineContinuation? r).bind fun (t, r') => cooked f (t.reverse ++ c :: acc) n r'
        else
          (escape? f r).bind fun (t, r') => cooked f (t.reverse ++ c :: acc) n r'
      | [] => none
    else if f.admits c then cooked f (c :: acc) n r
    else none

/-- The rest of a raw text that a quote and `hashes` hash signs close. -/
def raw (f : Flavour) (hashes : Nat) (acc : List Char) : List Char → Scan
  | [] => none
  | '\r' :: '\n' :: r => raw f hashes ('\n' :: '\r' :: acc) r
  | c :: r =>
    let close := List.replicate hashes '#'
    if c = '"' ∧ close.isPrefixOf r then some ((c :: acc).reverse ++ close, r.drop hashes)
    else if c = '\r' then none
    else if f.admits c then raw f hashes (c :: acc) r
    else none

/-- A raw text after its letters: hash signs, then a quote. -/
def rawOpening? (f : Flavour) (cs : List Char) : Scan :=
  let hashes := (cs.takeWhile (· == '#')).length
  match cs.dropWhile (· == '#') with
  | '"' :: r =>
    if 255 < hashes then none
    else raw f hashes ('"' :: List.replicate hashes '#') r
  | _ => none

/-- A quoted text of some flavour. -/
def quoted? : List Char → Scan
  | '"' :: r => cooked .text ['"'] r.length r
  | 'r' :: r => (rawOpening? .text r).map fun (t, r') => ('r' :: t, r')
  | 'b' :: '"' :: r => cooked .bytes ['"', 'b'] r.length r
  | 'b' :: 'r' :: r => (rawOpening? .bytes r).map fun (t, r') => ('b' :: 'r' :: t, r')
  | 'c' :: '"' :: r => cooked .cText ['"', 'c'] r.length r
  | 'c' :: 'r' :: r => (rawOpening? .cText r).map fun (t, r') => ('c' :: 'r' :: t, r')
  | _ => none

/-! ### Characters and bytes -/

/-- A single character up to the closing apostrophe. -/
def single? (f : Flavour) : List Char → Scan
  | [] => none
  | c :: r =>
    let content : Scan :=
      if c = '\\' then (escape? f r).map fun (t, r') => (c :: t, r')
      else if f.admits c then some ([c], r)
      else none
    match content with
    | some (t, '\'' :: r') => some (t ++ ['\''], r')
    | _ => none

/-- A character or a byte. -/
def character? : List Char → Scan
  | '\'' :: r => (single? .text r).map fun (t, r') => ('\'' :: t, r')
  | 'b' :: '\'' :: r => (single? .bytes r).map fun (t, r') => ('b' :: '\'' :: t, r')
  | _ => none

/-! ### Numbers -/

/-- Whether a character is a decimal digit or an underscore between digits. -/
def isDigitOrGap (c : Char) : Bool := c.isDigit || c == '_'

/-- A name directly after a literal. -/
def suffix (cs : List Char) : List Char × List Char :=
  match cs with
  | c :: r =>
    if Text.isIdentStart c then
      (c :: r.takeWhile Text.isIdentContinue, r.dropWhile Text.isIdentContinue)
    else ([], cs)
  | [] => ([], [])

/-- The exponent after its letter: a sign at most, and digits, one at least. -/
def exponent? (cs : List Char) : Scan :=
  let gaps := cs.takeWhile (· == '_')
  let (sign, r) := match cs.dropWhile (· == '_') with
    | '+' :: r => (['+'], r)
    | '-' :: r => (['-'], r)
    | r => ([], r)
  let digits := r.takeWhile isDigitOrGap
  if digits.any Char.isDigit then some (gaps ++ sign ++ digits, r.dropWhile isDigitOrGap)
  else none

/-- The digits of a number with a point or an exponent. -/
def pointed? (cs : List Char) : Scan :=
  let whole := cs.takeWhile isDigitOrGap
  let withExponent (taken : List Char) (hasPoint : Bool) (r : List Char) : Scan :=
    match r with
    | e :: r' =>
      if e = 'e' ∨ e = 'E' then
        match exponent? r' with
        | some (t, r'') => some (taken ++ e :: t, r'')
        | none => if hasPoint then some (taken, r) else none
      else if hasPoint then some (taken, r) else none
    | [] => if hasPoint then some (taken, r) else none
  match cs.dropWhile isDigitOrGap with
  | '.' :: r =>
    let stops := match r with
      | d :: _ => d == '.' || Text.isIdentStart d
      | [] => false
    if stops then none
    else withExponent (whole ++ '.' :: r.takeWhile isDigitOrGap) true (r.dropWhile isDigitOrGap)
  | r => withExponent whole false r

/-- The digits of a number in a base, after its sign of the base. -/
def digits? (base : Nat) (isEmpty : Bool) (acc : List Char) : List Char → Scan
  | [] => if isEmpty then none else some (acc.reverse, [])
  | c :: r =>
    if c = '_' then
      if isEmpty ∧ base = 10 then none else digits? base isEmpty (c :: acc) r
    else
      match hexValue? c with
      | some d =>
        if d < base then digits? base false (c :: acc) r
        else if c.isDigit ∨ isEmpty then none
        else some (acc.reverse, c :: r)
      | none => if isEmpty then none else some (acc.reverse, c :: r)

/-- The digits of a number without point and exponent. -/
def whole? : List Char → Scan
  | '0' :: 'x' :: r => digits? 16 true ['x', '0'] r
  | '0' :: 'o' :: r => digits? 8 true ['o', '0'] r
  | '0' :: 'b' :: r => digits? 2 true ['b', '0'] r
  | cs => digits? 10 true [] cs

/-- Whether a word could go on with the first of the characters. -/
def wordGoesOn : List Char → Bool
  | c :: _ => Text.isIdentContinue c
  | [] => false

/-- A number with its suffix, from digits that a scanner has taken. -/
def finishNumber (s : Scan) : Scan :=
  s.bind fun (t, r) =>
    let (end_, r') := suffix r
    if wordGoesOn r' then none else some (t ++ end_, r')

/-- A number. -/
def number? (cs : List Char) : Scan :=
  match cs with
  | c :: _ =>
    if c.isDigit then
      match finishNumber (pointed? cs) with
      | some s => some s
      | none => finishNumber (whole? cs)
    else none
  | [] => none

/-- A literal. -/
def scan? (cs : List Char) : Scan :=
  match quoted? cs with
  | some (t, r) => let (end_, r') := suffix r; some (t ++ end_, r')
  | none =>
    match character? cs with
    | some (t, r) => let (end_, r') := suffix r; some (t ++ end_, r')
    | none => number? cs

/-! ### Kinds -/

/-- What compilers print in place of an expression that they could not read; it is one
literal, and no parentheses with a comment in them. -/
def omission : List Char := "(/*ERROR*/)".toList

/-- The kinds of literals, the two truth values among them. -/
inductive Kind
  | string
  | byteString
  | cString
  | byte
  | char
  | int
  | float
  | bool
  | omission
deriving DecidableEq, Repr

/-- The name of a kind in messages. -/
def Kind.label : Kind → String
  | string => "string"
  | byteString => "byte string"
  | cString => "unknown"
  | byte => "byte"
  | char => "char"
  | int => "int"
  | float => "float"
  | bool => "bool"
  | omission => "verbatim"

/-- Whether digits are followed by an exponent. -/
def hasExponent : List Char → Bool
  | [] => false
  | e :: r => (e == 'e' || e == 'E') && (exponent? r).isSome

/-- Whether a number is written without point and exponent. -/
def isWhole (cs : List Char) : Bool :=
  match cs with
  | '0' :: 'x' :: _ | '0' :: 'o' :: _ | '0' :: 'b' :: _ => true
  | _ =>
    let r := cs.dropWhile isDigitOrGap
    r.head? != some '.' && !hasExponent r

/-- The kind of a literal. -/
def kind (text : String) : Kind :=
  match text.toList with
  | '"' :: _ | 'r' :: _ => .string
  | 'b' :: '\'' :: _ => .byte
  | 'b' :: _ => .byteString
  | 'c' :: _ => .cString
  | '\'' :: _ => .char
  | '(' :: _ => .omission
  | cs => if isWhole cs then .int else .float

/-! ### The number of a whole literal -/

/-- The number that digits in a base make after `value`, and the characters after them. -/
def readDigits (base value : Nat) : List Char → Nat × List Char
  | [] => (value, [])
  | c :: r =>
    if c = '_' then readDigits base value r
    else
      match hexValue? c with
      | some d => if d < base then readDigits base (base * value + d) r else (value, c :: r)
      | none => (value, c :: r)

/-- The value of a number without point and exponent, and its suffix. -/
def wholeValue (text : String) : Nat × String :=
  let (v, r) := match text.toList with
    | '0' :: 'x' :: r => readDigits 16 0 r
    | '0' :: 'o' :: r => readDigits 8 0 r
    | '0' :: 'b' :: r => readDigits 2 0 r
    | cs => readDigits 10 0 cs
  (v, String.ofList r)

/-! ### The text of a string literal -/

/-- The characters that quoted text stands for, up to the closing quote, and the
characters after it. -/
def unescape (acc : List Char) : Nat → List Char → List Char × List Char
  | 0, r => (acc.reverse, r)
  | _, [] => (acc.reverse, [])
  | n + 1, c :: r =>
    if c = '"' then (acc.reverse, r)
    else if c = '\r' then unescape ('\n' :: acc) n (r.drop 1)
    else if c = '\\' then
      match r with
      | [] => (acc.reverse, [])
      | d :: r' =>
        if d = 'x' then
          match r' with
          | a :: b :: r'' =>
            let v := 16 * (hexValue? a).getD 0 + (hexValue? b).getD 0
            unescape (Char.ofNat v :: acc) n r''
          | _ => (acc.reverse, r')
        else if d = 'u' then
          match codePoint? 0 0 (r'.drop 1) with
          | some (_, v, r'') => unescape (Char.ofNat v :: acc) n r''
          | none => (acc.reverse, r')
        else if d = '\n' ∨ d = '\r' then unescape acc n (r'.dropWhile Text.isBlank)
        else
          let e := if d = 'n' then '\n' else if d = 'r' then '\r' else if d = 't' then '\t'
            else if d = '0' then '\x00' else d
          unescape (e :: acc) n r'
    else unescape (c :: acc) n r

/-- The text of a string literal, and its suffix. -/
def stringValue (text : String) : String × String :=
  match text.toList with
  | 'r' :: cs =>
    let hashes := (cs.takeWhile (· == '#')).length
    match raw .text hashes [] ((cs.dropWhile (· == '#')).drop 1) with
    | some (t, r) =>
      (String.ofList (t.take (t.length - hashes - 1)), String.ofList r)
    | none => ("", "")
  | cs =>
    let (t, r) := unescape [] cs.length (cs.drop 1)
    (String.ofList t, String.ofList r)

end FieldBinder.Literal
