import Clipboard.Code.Language

/-!
Weak evidence for a language. A text has a score for each language, and the highest score decides if it
is high enough.
-/

namespace Clipboard

/-- The language with the highest score, the earliest of equals, if the score reaches `least`.
Scores that do not exceed `zero` do not count. -/
def Language.best? {α : Type} [LT α] [LE α] [DecidableLT α] [DecidableLE α]
    (zero : α) (score : Language → α) (least : α) : Option Language :=
  let top := Language.all.foldl (fun best l => if best.1 < score l then (score l, some l) else best)
    (zero, (none : Option Language))
  if least ≤ top.1 then top.2 else none

/-- What gives the scores, from 0 to 1. It is not part of the program. A language that it does not know
scores 0. -/
structure Detector where
  score : List Char → Language → Float
  bounds : ∀ cs l, 0.0 ≤ score cs l ∧ score cs l ≤ 1.0

namespace Detector

/-- Nothing speaks for any language. -/
def silent : Detector := ⟨fun _ _ => 0.0, fun _ _ => by decide +kernel⟩

/-- The language with the most evidence. -/
def language? (d : Detector) (cs : List Char) (least : Float := 0.3) : Option Language :=
  Language.best? 0.0 (d.score cs) least

end Detector

end Clipboard
