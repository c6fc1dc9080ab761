import Clipboard.Json.Basic

/-!
Which texts from the clipboard are let in. A text that was just copied out of the collection never
is, nor is the same text twice within a short time.
-/

namespace Clipboard

/-- The text that was last on the clipboard, as far as known. What is copied out of a record may
be any value. -/
structure LastSeen (τ : Type) where
  content : Json
  moment : τ
  /-- Whether it was copied out of the collection. -/
  isOwnCopy : Bool := false

namespace LastSeen

variable {τ : Type}

def isText (l : LastSeen τ) (text : String) : Bool :=
  match l.content with
  | .text s => s == text
  | _ => false

/-- Whether a text at a moment repeats what was last seen. -/
def isRepeated [Sub τ] [LT τ] [DecidableLT τ] (window : τ) (last : Option (LastSeen τ))
    (text : String) (now : τ) : Bool :=
  last.any fun l => l.isText text && (l.isOwnCopy || decide (now - l.moment < window))

/-- Whether a text is let in, and what is last seen afterwards. A repetition leaves no trace. -/
def letIn [Sub τ] [LT τ] [DecidableLT τ] (window : τ) (last : Option (LastSeen τ)) (text : String)
    (now : τ) : Bool × Option (LastSeen τ) :=
  if isRepeated window last text now then (false, last) else (true, some ⟨.text text, now, false⟩)

end LastSeen

end Clipboard
