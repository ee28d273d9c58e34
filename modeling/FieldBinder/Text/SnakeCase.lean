import FieldBinder.Text.Case
import FieldBinder.Text.Cluster

/-
  Snake case: the words of a name in lower case with underscores between them.

  A name is cut at separators, between a lower-case letter and a capital,
  between letters and digits, and before the last capital of a run of capitals
  that a lower-case letter follows (`HTTPServer` is `http_server`).  Words may be
  empty, so leading and repeated underscores are kept.
-/
namespace FieldBinder.Text

/-- Whether a cluster is a capital: case mapping changes it, and it is its own upper case. -/
def isCapital (g : List Char) : Bool := upper g != lower g && g == upper g

/-- Whether a cluster is a small letter: case mapping changes it, and it is its own
lower case. -/
def isSmall (g : List Char) : Bool := upper g != lower g && g == lower g

/-- Whether a cluster is an ASCII digit. -/
def isDigitCluster (g : List Char) : Bool := g.all Char.isDigit

/-- Whether a cluster separates words and is dropped between them. -/
def isSeparator (g : List Char) : Bool := g == ['_'] || g == ['-'] || g == [' ']

/-- Whether a word ends after a cluster, given the clusters that follow it. -/
def endsWord (g : List Char) : List (List Char) → Bool
  | [] => false
  | h :: r =>
    (isSmall g && isCapital h) || (isSmall g && isDigitCluster h) ||
    (isCapital g && isDigitCluster h) || (isDigitCluster g && isSmall h) ||
    (isDigitCluster g && isCapital h) ||
    (isCapital g && isCapital h && match r with | [] => false | k :: _ => isSmall k)

/-- The words of a list of clusters, the first of them started with `word`. -/
def wordsFrom (word : List Char) : List (List Char) → List (List Char)
  | [] => [word]
  | g :: r =>
    if isSeparator g then word :: wordsFrom [] r
    else if endsWord g r then (word ++ g) :: wordsFrom [] r
    else wordsFrom (word ++ g) r

/-- The words of a name. -/
def words (s : String) : List (List Char) := wordsFrom [] (clusters s.toList)

/-- The name in snake case. -/
def snakeCase (s : String) : String :=
  String.ofList (List.intercalate ['_'] ((words s).map lower))

end FieldBinder.Text
