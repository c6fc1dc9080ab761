import Clipboard.Collection.Handler
import Clipboard.Search.Query

/-!
Computations in which no model is asked. Classifiers, resolvers and compilers that were given no model
ask none, and what a model would reply makes no difference to them.
-/

namespace Clipboard

open Calendar (DateRange Moment ResolveFault Resolver)
open Remote (Attempt Consult Outside ParserSettings Reply Request Transcript)

namespace Remote

/-- The outside with a model that replies otherwise. -/
def Outside.answering (o : Outside) (reply : List Request → Request → Reply) : Outside :=
  { o with reply }

/-- No request is added to those that were made before. -/
def AsksNothing {α : Type} (m : Consult α) : Prop := ∀ t, (m t).2.requests = t.requests

namespace AsksNothing

variable {ε α β : Type}

theorem pure (a : α) : AsksNothing (Pure.pure a : Consult α) := fun _ => rfl

theorem bind {m : Consult α} {f : α → Consult β} (hm : AsksNothing m) (hf : ∀ a, AsksNothing (f a)) :
    AsksNothing (m >>= f) := fun t => (hf (m t).1 (m t).2).trans (hm t)

theorem findDates (o : Outside) (k : ParserSettings) (s : String) : AsksNothing (o.findDates k s) :=
  fun _ => rfl

theorem findPeriod (o : Outside) (k : ParserSettings) (s : String) :
    AsksNothing (o.findPeriod k s) := fun _ => rfl

theorem mapM {f : α → Consult β} (hf : ∀ a, AsksNothing (f a)) (as : List α) :
    AsksNothing (as.mapM f) := by
  induction as with
  | nil => exact .pure []
  | cons a as ih =>
      rw [List.mapM_cons]
      exact (hf a).bind fun b => ih.bind fun bs => .pure (b :: bs)

/-! ## Attempts -/

theorem run_pure (a : α) : AsksNothing (Pure.pure a : Attempt ε α).run := fun _ => rfl

theorem run_throw (e : ε) : AsksNothing (throw e : Attempt ε α).run := fun _ => rfl

theorem run_lift {m : Consult α} (hm : AsksNothing m) : AsksNothing (liftM m : Attempt ε α).run :=
  hm.bind fun a => .pure (Except.ok a : Except ε α)

theorem run_bind {m : Attempt ε α} {f : α → Attempt ε β} (hm : AsksNothing m.run)
    (hf : ∀ a, AsksNothing (f a).run) : AsksNothing (m >>= f).run := by
  rw [ExceptT.run_bind]
  refine hm.bind fun r => ?_
  cases r with
  | ok a => exact hf a
  | error e => exact .pure (Except.error e : Except ε β)

end AsksNothing

end Remote

open Remote (AsksNothing)

/-! ## Dates -/

namespace Calendar.Resolver

variable (o : Outside) (k : ParserSettings)

theorem asksNothing_datesIn (words : List String) : AsksNothing (datesIn o k words) := by
  refine (AsksNothing.findDates o k _).bind fun found => ?_
  dsimp only
  split
  · exact (AsksNothing.mapM (AsksNothing.findDates o k) _).bind fun fromParts => .pure _
  · exact .pure found

theorem asksNothing_onCalendar {α : Type} (x : Except Fault α) : AsksNothing (onCalendar x).run := by
  cases x with
  | ok a => exact .run_pure a
  | error f => exact .run_throw _

theorem asksNothing_byParser (words : List String) : AsksNothing (byParser o k words).run := by
  refine .run_bind (.run_lift (asksNothing_datesIn o k words)) fun found => ?_
  cases found with
  | nil => exact .run_pure none
  | cons f others =>
      dsimp only
      cases DayPart.mentioned (" ".intercalate words).toList with
      | error name => exact .run_throw _
      | ok part =>
          refine .run_bind (.run_pure part) fun part => ?_
          split
          · refine .run_bind (.run_lift (.findPeriod o k f.1)) fun period => ?_
            exact .run_bind (asksNothing_onCalendar _) fun range => .run_pure (some range)
          · exact .run_bind (asksNothing_onCalendar _) fun range => .run_pure (some range)

variable {r : Resolver} (h : r.guesser = none) (now : Moment) (phrase : String) (relaxed : Bool)
include h

theorem asksNothing_resolve : AsksNothing (r.resolve o now phrase relaxed).run := by
  unfold resolve
  dsimp only
  split
  · exact .run_pure _
  · split
    · exact .run_bind (asksNothing_onCalendar _) fun range => .run_pure _
    · refine .run_bind (asksNothing_byParser o _ _) fun range => ?_
      cases range with
      | some range => exact .run_pure _
      | none =>
          simp only [h, ite_self]
          exact .run_pure _

theorem resolve_answering (reply : List Request → Request → Reply) :
    r.resolve (o.answering reply) now phrase relaxed = r.resolve o now phrase relaxed := by
  simp only [resolve, h, ite_self]
  rfl

end Calendar.Resolver

/-! ## Search input -/

namespace Compiler

/-- Neither the compiler nor its resolver was given a model. -/
structure IsUnmodelled (c : Compiler) : Prop where
  labeller : c.labeller = none
  guesser : c.dates.guesser = none

variable {c : Compiler} (h : c.IsUnmodelled) (o : Outside) (now : Moment)
include h

theorem asksNothing_typeFilter (base : Filter) (phrase : List Char) :
    AsksNothing (c.typeFilter o base phrase) := by
  unfold typeFilter
  split
  · exact .pure _
  · have hasked : c.askedType? o phrase = pure none := by simp only [askedType?, h.labeller]
    cases namedType? phrase with
    | some t => exact .bind (.pure _) fun answer => by cases answer <;> exact .pure _
    | none => exact .bind (hasked ▸ .pure none) fun answer => by cases answer <;> exact .pure _

theorem asksNothing_compile (input : String) (previous : Option Filter) (relaxed : Bool) :
    AsksNothing (c.compile o now input previous relaxed).run := by
  unfold compile
  cases Query.ofInput input.toList with
  | nothing | text | order => exact .run_pure _
  | command command argument =>
      cases command with
      | date =>
          unfold dateFilter
          dsimp only
          split
          · exact .run_pure _
          · refine .run_bind (Calendar.Resolver.asksNothing_resolve o h.guesser _ _ _) fun r => ?_
            cases r <;> exact .run_pure _
      | type => exact .run_lift (asksNothing_typeFilter h o _ argument)
      | app | fav | smart => exact .run_pure _

theorem asksNothing_compileAll (previous : Option Filter) (inputs : List (String × Bool)) :
    AsksNothing (c.compileAll o now previous inputs).run := by
  induction inputs generalizing previous with
  | nil => exact .run_pure []
  | cons head rest ih =>
      refine .run_bind (asksNothing_compile h o now _ _ _) fun f => ?_
      exact .run_bind (ih (some f)) fun fs => .run_pure _

variable (reply : List Request → Request → Reply)

theorem compile_answering (input : String) (previous : Option Filter) (relaxed : Bool) :
    c.compile (o.answering reply) now input previous relaxed =
      c.compile o now input previous relaxed := by
  have hdate := fun phrase relaxed =>
    Calendar.Resolver.resolve_answering o h.guesser now phrase relaxed reply
  simp only [compile, dateFilter, hdate, typeFilter, askedType?, h.labeller]

theorem compileAll_answering (previous : Option Filter) (inputs : List (String × Bool)) :
    c.compileAll (o.answering reply) now previous inputs = c.compileAll o now previous inputs := by
  induction inputs generalizing previous with
  | nil => rfl
  | cons head rest ih => simp only [compileAll, compile_answering h o now reply, ih]

end Compiler

/-! ## Texts -/

namespace Classifier

variable {c : Classifier} (h : c.labeller = none) (o : Outside) (text : String) (app : Option String)
include h

theorem asksNothing_classify : AsksNothing (c.classify o text app) := by
  have hmodel : c.byModel o text.toList = pure none := by simp only [byModel, h]
  have hstages : AsksNothing (c.byStages o text.toList app) := by
    unfold byStages
    split
    · exact .pure _
    · split
      · exact .pure _
      · exact .bind (hmodel ▸ .pure none) fun answer => .pure _
  unfold classify
  dsimp only
  split
  · exact .pure none
  · exact hstages.bind fun r => .pure _

theorem classify_answering (reply : List Request → Request → Reply) :
    c.classify (o.answering reply) text app = c.classify o text app := by
  simp only [classify, byStages, byModel, h]

end Classifier

namespace Handler

variable {settings : HandlerSettings} (hl : settings.classifier.labeller = none) (o : Outside)
  (h : Handler) (e : CaptureEvent) (clock : Float)
include hl

theorem asksNothing_handle : AsksNothing (h.handle o settings e clock) := by
  have hcapture : AsksNothing
      (h.collection.capture o settings.classifier settings.newId settings.now e) := by
    unfold Collection.capture
    split
    · exact .pure _
    · refine (Classifier.asksNothing_classify hl o e.text e.app).bind fun r => ?_
      cases r <;> exact .pure _
  unfold handle
  dsimp only
  split
  · exact hcapture.bind fun r => .pure _
  · exact .pure _

theorem handle_answering (reply : List Request → Request → Reply) :
    h.handle (o.answering reply) settings e clock = h.handle o settings e clock := by
  simp only [handle, Collection.capture, Classifier.classify_answering hl]

end Handler

end Clipboard
