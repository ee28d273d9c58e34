import FieldBinder.Text.Blank
import FieldBinder.Text.ClusterTable

/-
  Grapheme clusters: the characters that a reader sees as one.

  Between two characters there is a cluster boundary unless a rule keeps them
  together: an accent stays with its letter, a jamo with its syllable, a joiner
  with its pictographs, and flags are made of two indicators each.  The clusters
  of a text, put together, are the text again (`flatten_clusters`).
-/
namespace FieldBinder.Text

/-- What a character means for the boundaries around it. -/
inductive ClusterClass
  | carriageReturn | lineFeed | control | extend | joiner | spacingMark | prepend
  | leadJamo | vowelJamo | tailJamo | openSyllable | closedSyllable
  | regional | pictograph | other
deriving DecidableEq, Repr

/-- The class of a character. -/
def clusterClass (c : Char) : ClusterClass :=
  let n := c.toNat
  if n = 13 then .carriageReturn
  else if n = 10 then .lineFeed
  else if n < 32 then .control
  else if n < 127 then .other
  else if n = 0x200D then .joiner
  else if inRanges extendRanges n then .extend
  else if inRanges controlRanges n then .control
  else if inRanges spacingMarkRanges n then .spacingMark
  else if inRanges prependRanges n then .prepend
  else if (0x1100 ≤ n ∧ n ≤ 0x115F) ∨ (0xA960 ≤ n ∧ n ≤ 0xA97C) then .leadJamo
  else if (0x1160 ≤ n ∧ n ≤ 0x11A7) ∨ (0xD7B0 ≤ n ∧ n ≤ 0xD7C6) then .vowelJamo
  else if (0x11A8 ≤ n ∧ n ≤ 0x11FF) ∨ (0xD7CB ≤ n ∧ n ≤ 0xD7FB) then .tailJamo
  else if 0xAC00 ≤ n ∧ n ≤ 0xD7A3 then
    if (n - 0xAC00) % 28 = 0 then .openSyllable else .closedSyllable
  else if 0x1F1E6 ≤ n ∧ n ≤ 0x1F1FF then .regional
  else if inRanges pictographRanges n then .pictograph
  else .other

/-- Whether a pictograph, then extending characters, then a joiner end here; the
characters are given nearest first. -/
def endsInJoinedPictograph : List Char → Bool
  | [] => false
  | c :: r =>
    clusterClass c = .joiner &&
      match r.dropWhile (fun d => clusterClass d = .extend) with
      | [] => false
      | d :: _ => clusterClass d = .pictograph

/-- Whether the characters, nearest first, are a consonant and then extending
characters with a linker among them. -/
def endsInLinkedConsonant (before : List Char) : Bool :=
  let isGlue := fun d : Char =>
    inRanges conjunctLinkerRanges d.toNat || clusterClass d = .extend || clusterClass d = .joiner
  (before.takeWhile isGlue).any (fun d => inRanges conjunctLinkerRanges d.toNat) &&
    match before.dropWhile isGlue with
    | [] => false
    | d :: _ => inRanges conjunctConsonantRanges d.toNat

/-- Whether the character stays in the cluster of the characters before it, which
are given nearest first. -/
def staysWith (before : List Char) (c : Char) : Bool :=
  match before with
  | [] => false
  | b :: _ =>
    match clusterClass b, clusterClass c with
    | .carriageReturn, k => k = .lineFeed
    | .lineFeed, _ | .control, _ => false
    | _, .carriageReturn | _, .lineFeed | _, .control => false
    | _, .extend | _, .joiner | _, .spacingMark => true
    | .prepend, _ => true
    | .leadJamo, .leadJamo | .leadJamo, .vowelJamo | .leadJamo, .openSyllable
    | .leadJamo, .closedSyllable => true
    | .openSyllable, .vowelJamo | .openSyllable, .tailJamo | .vowelJamo, .vowelJamo
    | .vowelJamo, .tailJamo | .closedSyllable, .tailJamo | .tailJamo, .tailJamo => true
    | .regional, .regional =>
      (before.takeWhile (fun d => clusterClass d = .regional)).length % 2 = 1
    | .joiner, .pictograph => endsInJoinedPictograph before
    | _, _ => inRanges conjunctConsonantRanges c.toNat && endsInLinkedConsonant before

/-- Cut the characters into clusters, the open cluster being given nearest first. -/
def clustersFrom (cluster : List Char) : List Char → List (List Char)
  | [] => if cluster.isEmpty then [] else [cluster.reverse]
  | c :: r =>
    if cluster.isEmpty || staysWith cluster c then clustersFrom (c :: cluster) r
    else cluster.reverse :: clustersFrom [c] r

/-- The grapheme clusters of a text. -/
def clusters (cs : List Char) : List (List Char) := clustersFrom [] cs

theorem flatten_clustersFrom (cluster cs : List Char) :
    (clustersFrom cluster cs).flatten = cluster.reverse ++ cs := by
  induction cs generalizing cluster with
  | nil => cases cluster <;> simp [clustersFrom]
  | cons c r ih =>
    unfold clustersFrom
    split
    · simp [ih]
    · simp [ih]

theorem flatten_clusters (cs : List Char) : (clusters cs).flatten = cs := by
  simp [clusters, flatten_clustersFrom]

end FieldBinder.Text
