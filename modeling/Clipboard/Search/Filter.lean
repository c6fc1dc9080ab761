import Clipboard.Calendar.DateRange
import Clipboard.Search.Terms

/-!
What a search asks for. The empty filter asks for nothing and finds every snippet.
-/

namespace Clipboard

structure Filter where
  contentType : Option String := none
  language : Option String := none
  sourceApp : Option String := none
  dateRange : Option Calendar.DateRange := none
  /-- The words to show for the date that was asked for. -/
  dateLabel : Option String := none
  /-- A date that is not understood; it is searched for in the displayed moments. -/
  dateText : Option String := none
  favoritesOnly : Bool := false
  /-- Lower-case text to find as it is. -/
  freeText : Option String := none
  /-- Words of which enough have to be found. -/
  terms : List String := []
  /-- The command that the filter comes from. -/
  command : Option String := none
  sortOrder : Option String := none

namespace Filter

/-- Whether an optional text is there and not empty. -/
def isGiven (o : Option String) : Bool := o.any (!·.isEmpty)

/-- Whether nothing is asked for; order and command do not matter. -/
def isIdentity (f : Filter) : Bool :=
  f.contentType.isNone && f.language.isNone && !isGiven f.sourceApp && f.dateRange.isNone
    && !isGiven f.dateText && !f.favoritesOnly && !isGiven f.freeText

/-- The filter for a text, from a command or from none. -/
def ofText (minTermLength : Int) (text : List Char) (command : Option String := none) : Filter where
  freeText := some (.ofList (Text.lower text))
  terms := Search.termsOf minTermLength text
  command := command

end Filter

end Clipboard
