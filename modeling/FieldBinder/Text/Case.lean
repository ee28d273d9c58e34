import FieldBinder.Text.Blank
import FieldBinder.Text.CaseTable

/-
  Full case mapping of text.

  A character can map to several, and a capital sigma at the end of a word maps
  to its final form; otherwise the mapping goes character by character.
-/
namespace FieldBinder.Text

/-- The image of a code point in a table of runs. -/
def imageInRuns (n : Nat) : List (Nat × Nat × Nat × Nat) → Option Nat
  | [] => none
  | (first, last, step, image) :: r =>
    if first ≤ n ∧ n ≤ last ∧ (n - first) % step = 0 then some (image + (n - first))
    else imageInRuns n r

/-- The image of a character: its special image, else its image in the runs, else itself. -/
def imageOf (special : List (Nat × List Nat)) (runs : List (Nat × Nat × Nat × Nat))
    (c : Char) : List Char :=
  match special.lookup c.toNat with
  | some image => image.map Char.ofNat
  | none =>
    match imageInRuns c.toNat runs with
    | some n => [Char.ofNat n]
    | none => [c]

/-- The lower-case image of a character. -/
def lowerChar (c : Char) : List Char :=
  if c.toNat < 128 then [c.toLower] else imageOf lowerSpecial lowerRuns c

/-- The upper-case image of a character. -/
def upperChar (c : Char) : List Char :=
  if c.toNat < 128 then [c.toUpper] else imageOf upperSpecial upperRuns c

/-- Whether a character has a case. -/
def isCased (c : Char) : Bool := c.isAlpha || inRanges casedRanges c.toNat

/-- Whether a character is passed over when the case around a sigma is looked for. -/
def isCaseIgnorable (c : Char) : Bool :=
  ['\'', '.', ':', '^', '\x60'].contains c || inRanges caseIgnorableRanges c.toNat

/-- Whether the first character that is not passed over has a case. -/
def meetsCased (cs : List Char) : Bool :=
  match cs.dropWhile isCaseIgnorable with
  | [] => false
  | c :: _ => isCased c

/-- Lower case of the characters after those of `before`, which are given nearest first. -/
def lowerAfter (before : List Char) : List Char → List Char
  | [] => []
  | c :: r =>
    (if c == 'Σ' then
      [if meetsCased before && !meetsCased r then 'ς' else 'σ']
    else lowerChar c) ++ lowerAfter (c :: before) r

/-- The text in lower case. -/
def lower (cs : List Char) : List Char := lowerAfter [] cs

/-- The text in upper case. -/
def upper (cs : List Char) : List Char := cs.flatMap upperChar

end FieldBinder.Text
