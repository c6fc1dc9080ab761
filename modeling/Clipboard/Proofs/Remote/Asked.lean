import Clipboard.Proofs.Remote.Reply
import Clipboard.Remote.Dates

/-!
The questions to a model, each with the one request that it makes and what comes of the reply.
-/

namespace Clipboard.Remote

open Fallible
open Calendar (Moment)

variable (o : Outside) (t : Transcript)

namespace Labeller

variable (l : Labeller)

def kindRequest (phrase : String) : Request := l.request (kindPrompt phrase) 40

theorem inferKind_run (phrase : String) : (l.inferKind o phrase).run t =
    if l.enabled then
      ((o.reply t.requests (l.kindRequest phrase)).text >>= objectIn >>= fun fields =>
        .ok (kindOf fields), t.asked (l.kindRequest phrase))
    else (.error .disabled, t) := by
  unfold inferKind
  cases l.enabled with
  | false => rfl
  | true =>
      refine (bind_run (completeObject o (l.kindRequest phrase)) _ t).trans ?_
      rw [completeObject_run]
      cases (o.reply t.requests (l.kindRequest phrase)).text >>= objectIn <;> rfl

end Labeller

namespace DateGuesser

variable (g : DateGuesser) (now : Moment) (phrase : String)

def request : Request := ⟨g.model, prompt now phrase, 80, 0.0, g.retries, g.timeout⟩

theorem guess_run : (g.guess o now phrase).run t =
    ((o.reply t.requests (g.request now phrase)).text >>= objectIn >>= guessOf phrase,
      t.asked (g.request now phrase)) := by
  refine (bind_run (completeObject o (g.request now phrase)) _ t).trans ?_
  rw [completeObject_run]
  cases (o.reply t.requests (g.request now phrase)).text >>= objectIn with
  | error f => rfl
  | ok fields =>
      simp only [bind, Except.bind]
      cases guessOf phrase fields <;> rfl

end DateGuesser

end Clipboard.Remote
