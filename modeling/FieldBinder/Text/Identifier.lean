import FieldBinder.Text.Blank
import FieldBinder.Text.IdentifierTable

/-
  Identifiers: which characters they are made of.

  An identifier starts with an underscore or a character with the property
  `XID_Start` and goes on with characters that have the property `XID_Continue`.
  No normalisation takes place, so two spellings of one letter differ.
-/
namespace FieldBinder.Text

/-- Whether an identifier can start with the character. -/
def isIdentStart (c : Char) : Bool :=
  c == '_' || c.isAlpha || (128 ≤ c.toNat && inRanges identStartRanges c.toNat)

/-- Whether an identifier can go on with the character. -/
def isIdentContinue (c : Char) : Bool :=
  c == '_' || c.isAlphanum || (128 ≤ c.toNat && inRanges identContinueRanges c.toNat)

/-- Whether the characters are an identifier of ASCII letters, digits and underscores
other than the lone underscore. -/
def isAsciiIdent (s : String) : Bool :=
  match s.toList with
  | [] => false
  | c :: r =>
    (c == '_' || c.isAlpha) && r.all (fun d => d == '_' || d.isAlphanum) && s != "_"

end FieldBinder.Text
