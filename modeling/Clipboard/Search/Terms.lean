import Clipboard.Text.Case
import Clipboard.Text.Split

/-!
The words of a text that are worth searching for.
-/

namespace Clipboard.Search

open Text

/-- Words that are too common to search for. -/
def stopWords : List String := [
  "a", "about", "above", "after", "again", "all", "also", "am", "an", "and", "any", "are", "as",
  "at", "be", "because", "been", "before", "being", "below", "between", "both", "but", "by", "can",
  "could", "did", "do", "does", "doing", "down", "during", "each", "few", "for", "from", "further",
  "had", "has", "have", "having", "he", "her", "here", "hers", "him", "his", "how", "i", "if", "in",
  "into", "is", "it", "its", "itself", "just", "me", "more", "most", "my", "no", "nor", "not", "now",
  "of", "off", "on", "once", "only", "or", "other", "our", "ours", "out", "over", "own", "same",
  "she", "should", "so", "some", "such", "than", "that", "the", "their", "theirs", "them", "then",
  "there", "these", "they", "this", "those", "through", "to", "too", "under", "until", "up", "very",
  "was", "we", "were", "what", "when", "where", "which", "while", "who", "whom", "why", "will",
  "with", "would", "you", "your", "yours"]

/-- Characters of words; the others part words. -/
def isTermChar (c : Char) : Bool := isWord c || c == '#' || c == '+'

/-- The words of a text in lower case. -/
def wordsOf (cs : List Char) : List String :=
  (words ((lower cs).map fun c => if isTermChar c || isSpace c then c else ' ')).map String.ofList

/-- Whether a word is long enough and not too common. -/
def isTerm (minLength : Int) (w : String) : Bool :=
  minLength ≤ w.length && !stopWords.contains w

/-- The significant words of a text, each once, in order. -/
def termsOf (minLength : Int) (cs : List Char) : List String :=
  ((wordsOf cs).filter (isTerm minLength)).foldl
    (fun kept w => if kept.contains w then kept else kept ++ [w]) []

end Clipboard.Search
