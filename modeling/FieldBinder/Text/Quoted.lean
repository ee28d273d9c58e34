import FieldBinder.Text.ClusterTable
import FieldBinder.Text.PrintTable
import FieldBinder.Text.Blank

/-
  Text written as a string literal.

  Quotes, backslashes, line breaks and tabs have short escapes; other characters
  that do not print, and accents that would join the character before them, are
  written by their code points.  An apostrophe needs no escape.
-/
namespace FieldBinder.Text

/-- The hexadecimal digits of a number, without leading zeros. -/
def hexDigits (n : Nat) : List Char := Nat.toDigits 16 n

/-- Whether a character joins the one before it and has no width of its own; the
halfwidth voicing marks stand beside it instead. -/
def isAccent (c : Char) : Bool :=
  inRanges extendRanges c.toNat && c != '\uFF9E' && c != '\uFF9F'

/-- Whether a character is written by its code point. -/
def needsCodePoint (c : Char) : Bool :=
  c.toNat < 32 || c.toNat == 127 || isAccent c || inRanges unprintableRanges c.toNat

/-- The written form of a character in front of the others. -/
def quoteChar (c : Char) (next : List Char) : List Char :=
  if c = '\x00' then
    match next with
    | d :: _ => if '0' ≤ d ∧ d ≤ '7' then ['\\', 'x', '0', '0'] else ['\\', '0']
    | [] => ['\\', '0']
  else if c = '\t' then ['\\', 't']
  else if c = '\r' then ['\\', 'r']
  else if c = '\n' then ['\\', 'n']
  else if c = '"' then ['\\', '"']
  else if c = '\\' then ['\\', '\\']
  else if needsCodePoint c then ['\\', 'u', '\x7b'] ++ hexDigits c.toNat ++ ['\x7d']
  else [c]

/-- The written forms of the characters. -/
def quoteChars : List Char → List Char
  | [] => []
  | c :: r => quoteChar c r ++ quoteChars r

/-- The text as a string literal. -/
def quote (s : String) : String := String.ofList ('"' :: quoteChars s.toList ++ ['"'])

end FieldBinder.Text
