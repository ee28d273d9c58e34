/-
  White space, and characters without it at the ends.

  A character is blank when it has the Unicode property `White_Space`: the
  ASCII controls from tab to carriage return, the space, and a few more beyond
  ASCII.  Zero-width characters and the byte order mark are not blank.
-/
namespace FieldBinder.Text

/-- The characters beyond ASCII with the property `White_Space`. -/
def blankBeyondAscii : List (Nat × Nat) :=
  [(0x85, 0x85), (0xA0, 0xA0), (0x1680, 0x1680), (0x2000, 0x200A), (0x2028, 0x2029),
   (0x202F, 0x202F), (0x205F, 0x205F), (0x3000, 0x3000)]

/-- Whether one of the ranges, given by first and last code point, holds the code point. -/
def inRanges (ranges : List (Nat × Nat)) (n : Nat) : Bool :=
  ranges.any fun r => r.1 ≤ n && n ≤ r.2

/-- Whether a character is white space. -/
def isBlank (c : Char) : Bool :=
  c == ' ' || (9 ≤ c.toNat && c.toNat ≤ 13) || inRanges blankBeyondAscii c.toNat

/-- The characters without the blank ones at both ends. -/
def trimChars (cs : List Char) : List Char :=
  ((cs.dropWhile isBlank).reverse.dropWhile isBlank).reverse

end FieldBinder.Text
