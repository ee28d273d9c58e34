import FieldBinder.Text.Rounded

/-
  Jaro–Winkler similarity of two texts.

  The Jaro similarity is the mean of three ratios: matched characters to the
  length of either text, and matched characters in order to all matched ones.
  When it exceeds 7/10, each of up to four leading characters in common takes a
  tenth of what is missing to one.  Each step is rounded (`Rounded`), so that a
  mean of 7/10 may come out on either side of it.
-/
namespace FieldBinder.Text

/-- Mark the first unmarked occurrence of a character in a window of positions. -/
def markMatch (c : Char) (lo hi : Nat) :
    Nat → List (Char × Bool) → Option (List (Char × Bool))
  | _, [] => none
  | j, (d, marked) :: r =>
    if lo ≤ j ∧ j < hi ∧ c = d ∧ marked = false then some ((d, true) :: r)
    else (markMatch c lo hi (j + 1) r).map ((d, marked) :: ·)

/-- Match the characters from position `i` on; gives the matched characters of
the first text and the marks on the second. -/
def matchFrom (range : Nat) : Nat → List Char → List (Char × Bool) →
    List Char × List (Char × Bool)
  | _, [], marks => ([], marks)
  | i, c :: r, marks =>
    match markMatch c (i - range) (i + range + 1) 0 marks with
    | some marks' =>
      let (matched, final) := matchFrom range (i + 1) r marks'
      (c :: matched, final)
    | none => matchFrom range (i + 1) r marks

/-- The Jaro similarity of two texts. -/
def jaro (a b : List Char) : Rounded :=
  if a.isEmpty && b.isEmpty then .ofNat 1
  else
    let range := max a.length b.length / 2 - 1
    let (matched, marks) := matchFrom range 0 a (b.map (·, false))
    let m := matched.length
    if m = 0 then .ofNat 0
    else
      let other := (marks.filter (·.2)).map (·.1)
      let t := ((matched.zip other).filter (fun p => p.1 ≠ p.2)).length / 2
      let sum := (Rounded.ofRatio m a.length).add (.ofRatio m b.length)
      (sum.add (.ofRatio (m - t) m)).div 3

/-- The number of leading characters that two texts have in common. -/
def commonLead : List Char → List Char → Nat
  | c :: r, d :: s => if c = d then commonLead r s + 1 else 0
  | _, _ => 0

/-- The Jaro–Winkler similarity of two texts. -/
def similarity (a b : String) : Rounded :=
  let j := jaro a.toList b.toList
  if Rounded.lt (.ofRatio 7 10) j then
    let p := min 4 (commonLead a.toList b.toList)
    j.add (((Rounded.ofRatio 1 10).mul (.ofNat p)).mul j.complement)
  else j

/-- The candidate most similar to a text, if one is more similar than 8/10; of
equally similar candidates the first. -/
def closest? (s : String) (candidates : List String) : Option String :=
  let better (best : Option (Rounded × String)) (c : String) :=
    let f := similarity s c
    if Rounded.lt (.ofRatio 8 10) f then
      match best with
      | none => some (f, c)
      | some b => if Rounded.lt b.1 f then some (f, c) else best
    else best
  (candidates.foldl better none).map (·.2)

end FieldBinder.Text
