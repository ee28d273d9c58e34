/-
  Numbers rounded to 53 binary digits.

  Every operation gives the exact result rounded to the nearest number with 53
  significant binary digits, and of two equally near ones to the one that is
  even.  Only numbers that are not negative and below 2⁵² are needed, so that
  the exponent has no limits and there is no sign.
-/
namespace FieldBinder.Text

/-- The number `num / 2 ^ places`. -/
structure Rounded where
  num : Nat
  places : Nat
deriving DecidableEq, Repr, Inhabited

namespace Rounded

/-- The whole number nearest to `n / d`, and of two the even one. -/
def nearest (n d : Nat) : Nat :=
  let q := n / d
  let r := n % d
  if 2 * r < d then q
  else if d < 2 * r then q + 1
  else q + q % 2

/-- The number nearest to `n / d`. -/
def ofRatio (n d : Nat) : Rounded :=
  -- so many places leave 53 digits or 54
  let places := 53 + Nat.log2 d - Nat.log2 n
  let places := if (n <<< places) / d < 0x20000000000000 then places else places - 1
  ⟨nearest (n <<< places) d, places⟩

/-- A whole number. -/
def ofNat (n : Nat) : Rounded := ofRatio n 1

/-- The sum of two numbers. -/
def add (a b : Rounded) : Rounded :=
  ofRatio (a.num <<< b.places + b.num <<< a.places) (1 <<< (a.places + b.places))

/-- What is missing to one. -/
def complement (a : Rounded) : Rounded := ofRatio (1 <<< a.places - a.num) (1 <<< a.places)

/-- The product of two numbers. -/
def mul (a b : Rounded) : Rounded := ofRatio (a.num * b.num) (1 <<< (a.places + b.places))

/-- A number divided by a whole number. -/
def div (a : Rounded) (d : Nat) : Rounded := ofRatio a.num (d <<< a.places)

/-- Whether one number is smaller than another. -/
def lt (a b : Rounded) : Bool := a.num <<< b.places < b.num <<< a.places

end Rounded

end FieldBinder.Text
