import Clipboard.Collection.Basic
import Clipboard.Collection.Gate

/-!
Texts from the clipboard on their way into a collection, through the gate that stops repetitions.
-/

namespace Clipboard

open Remote (Outside Consult)

/-- A collection with what was last seen on the clipboard. Moments are seconds of a steady clock. -/
structure Handler where
  collection : Collection := {}
  last : Option (LastSeen Float) := none

/-- What the handling of texts needs to know. -/
structure HandlerSettings where
  classifier : Classifier := {}
  /-- How long a repetition is stopped, in seconds. -/
  window : Float := 0.5
  newId : Nat → String
  now : Calendar.Moment

namespace Handler

/-- Captures a text unless it is a repetition. -/
def handle (o : Outside) (settings : HandlerSettings) (h : Handler) (e : CaptureEvent)
    (clock : Float) : Consult (Except Collection.Fault (Option Snippet) × Handler) := do
  let (admitted, last) := LastSeen.letIn settings.window h.last e.text clock
  if admitted then
    let (r, collection) ← h.collection.capture o settings.classifier settings.newId settings.now e
    return (r, { collection, last })
  else return (.ok none, { h with last })

/-- Captures texts in turn, each at its moment, up to the first fault. -/
def handleAll (o : Outside) (settings : HandlerSettings) (h : Handler) :
    List (CaptureEvent × Float) → Consult (Except Collection.Fault (List Snippet) × Handler)
  | [] => return (.ok [], h)
  | (e, clock) :: rest => do
    match ← h.handle o settings e clock with
    | (.error f, h) => return (.error f, h)
    | (.ok s, h) =>
      let (r, h) ← h.handleAll o settings rest
      return (r.map (s.toList ++ ·), h)

/-- Remembers content as copied out of the collection. -/
def markCopied (h : Handler) (content : Json) (clock : Float) : Handler :=
  { h with last := some ⟨content, clock, true⟩ }

/-- The content of a snippet, for the clipboard. -/
def copy (h : Handler) (id : Json) (clock : Float) : Except Collection.Fault Json × Handler :=
  match h.collection.get? id with
  | some s => (.ok s.content, h.markCopied s.content clock)
  | none => (.error (.notFound id), h)

end Handler

end Clipboard
