import Clipboard.Collection.Handler
import Clipboard.Proofs.Collection.Run

/-!
Which of the texts that come to a handler are passed on to the collection. What decides is the last
thing that left a trace: a text that was passed on, or one that was copied out of the collection. A
text that is stopped leaves none.
-/

namespace Clipboard

open Remote (Consult Outside Transcript)

theorem LastSeen.isText_iff {τ : Type} {l : LastSeen τ} {text : String} :
    l.isText text ↔ l.content = .text text := by
  unfold isText
  split
  · rename_i s hs
    simp [hs]
  · rename_i hnot
    simpa using fun h => hnot text h

namespace Handler

/-! ## Single texts -/

section

variable (o : Outside) (settings : HandlerSettings) (h : Handler) (e : CaptureEvent) (clock : Float)

/-- Whether a text is passed on to the collection. -/
def passes : Bool := (LastSeen.letIn settings.window h.last e.text clock).1

theorem passes_iff_not_repeated :
    h.passes settings e clock ↔ ¬∃ l ∈ h.last, l.content = .text e.text ∧
      (l.isOwnCopy ∨ clock - l.moment < settings.window) := by
  have hrepeated : h.passes settings e clock ↔
      ¬LastSeen.isRepeated settings.window h.last e.text clock := by
    unfold passes LastSeen.letIn
    split <;> simp [*]
  refine hrepeated.trans (not_congr ?_)
  unfold LastSeen.isRepeated
  cases h.last with
  | none => simp
  | some l => simp [← LastSeen.isText_iff]

/-- A text that is passed on is captured and remembered. -/
theorem handle_of_passes (hp : h.passes settings e clock) :
    h.handle o settings e clock = (do
      let (r, collection) ← h.collection.capture o settings.classifier settings.newId settings.now e
      return (r, { collection, last := some ⟨.text e.text, clock, false⟩ })) := by
  unfold passes LastSeen.letIn at hp
  split at hp
  · cases hp
  · rename_i hnot
    simp only [handle, LastSeen.letIn, hnot, Bool.false_eq_true, if_false, if_true]

theorem handle_of_not_passes (hp : ¬h.passes settings e clock) :
    h.handle o settings e clock = pure (.ok none, h) := by
  unfold passes LastSeen.letIn at hp
  split at hp
  · rename_i hrepeated
    simp only [handle, LastSeen.letIn, hrepeated, Bool.false_eq_true, if_false, if_true]
  · exact absurd rfl hp

end

/-! ## Steps -/

/-- What is done with a handler, each at a reading of its clock. -/
inductive Step
  | handle (e : CaptureEvent) (now : Calendar.Moment) (clock : Float)
  | markCopied (content : Json) (clock : Float)
  | copy (id : Json) (clock : Float)

/-- A handler with what the outside was asked. -/
abbrev State := Handler × Transcript

namespace Step

variable (o : Outside) (settings : HandlerSettings)

def run (s : State) : Step → State
  | handle e now clock =>
    let ((_, h), asked) := s.1.handle o { settings with now } e clock s.2
    (h, asked)
  | markCopied content clock => (s.1.markCopied content clock, s.2)
  | copy id clock => ((s.1.copy id clock).2, s.2)

/-- The trace that a step leaves: that of a text passed on, or of content copied out. -/
def left? (h : Handler) : Step → Option (LastSeen Float)
  | handle e _ clock => if h.passes settings e clock then some ⟨.text e.text, clock, false⟩ else none
  | markCopied content clock => some ⟨content, clock, true⟩
  | copy id clock => (h.collection.get? id).map fun s => ⟨s.content, clock, true⟩

theorem last_run (s : State) (step : Step) :
    (step.run o settings s).1.last = (step.left? settings s.1).or s.1.last := by
  cases step with
  | handle e now clock =>
      by_cases hp : s.1.passes settings e clock = true
      · have hhandle := handle_of_passes o { settings with now } s.1 e clock hp
        simp only [run, hhandle, left?, hp, if_true]
        rfl
      · have hhandle := handle_of_not_passes o { settings with now } s.1 e clock hp
        simp only [run, hhandle, left?, hp]
        rfl
  | markCopied content clock => rfl
  | copy id clock =>
      simp only [run, Handler.copy, left?]
      cases s.1.collection.get? id <;> rfl

end Step

/-! ## Runs -/

section

variable (o : Outside) (settings : HandlerSettings)

def run (s : State) (steps : List Step) : State := steps.foldl (Step.run o settings) s

/-- The traces that steps leave, in order. -/
def traces (s : State) : List Step → List (LastSeen Float)
  | [] => []
  | step :: steps => (step.left? settings s.1).toList ++ traces (step.run o settings s) steps

theorem last_of_run (s : State) (steps : List Step) :
    (run o settings s steps).1.last = (traces o settings s steps).getLast?.or s.1.last := by
  induction steps generalizing s with
  | nil => rfl
  | cons step steps ih =>
      have hone : (step.left? settings s.1).toList.getLast? = step.left? settings s.1 := by
        cases step.left? settings s.1 <;> rfl
      rw [traces, List.getLast?_append, Option.or_assoc, hone, ← Step.last_run o]
      exact ih (step.run o settings s)

/-- The text was copied out of the collection, and nothing else came since then. -/
def HasCopy (h : Handler) (text : String) : Prop :=
  ∃ l ∈ h.last, l.content = .text text ∧ l.isOwnCopy

theorem not_passes_of_hasCopy {h : Handler} {e : CaptureEvent} (hcopy : h.HasCopy e.text)
    (clock : Float) : ¬h.passes settings e clock := by
  obtain ⟨l, hl, htext, hown⟩ := hcopy
  rw [passes_iff_not_repeated, not_not]
  exact ⟨l, hl, htext, .inl hown⟩

theorem hasCopy_step {s : State} {text : String} (hcopy : s.1.HasCopy text) {step : Step}
    (hleft : ∀ l ∈ step.left? settings s.1, l.content = .text text) :
    (step.run o settings s).1.HasCopy text := by
  have hkeep : ∀ l ∈ step.left? settings s.1, l.isOwnCopy := by
    intro l hl
    cases step with
    | handle e now clock =>
        -- A text that is passed on is not the one that was copied.
        by_cases hp : s.1.passes settings e clock = true
        · have htext := hleft l hl
          simp only [Step.left?, hp, if_true, Option.mem_some_iff] at hl
          subst hl
          obtain rfl : e.text = text := Json.text.inj htext
          exact absurd hp (not_passes_of_hasCopy settings hcopy clock)
        · simp [Step.left?, hp] at hl
    | markCopied content clock =>
        cases hl
        rfl
    | copy id clock =>
        obtain ⟨x, -, rfl⟩ := Option.map_eq_some_iff.mp hl
        rfl
  unfold HasCopy
  rw [Step.last_run]
  cases hl : step.left? settings s.1 with
  | none => exact hcopy
  | some l => exact ⟨l, rfl, hleft l hl, hkeep l hl⟩

theorem hasCopy_run {s : State} {text : String} (hcopy : s.1.HasCopy text) {steps : List Step}
    (htraces : ∀ l ∈ traces o settings s steps, l.content = .text text) :
    (run o settings s steps).1.HasCopy text := by
  induction steps generalizing s with
  | nil => exact hcopy
  | cons step steps ih =>
      obtain ⟨hstep, hrest⟩ := List.forall_mem_append.mp htraces
      refine ih (hasCopy_step o settings hcopy fun l hl => hstep l ?_) hrest
      exact Option.mem_toList.mpr hl

/-- At any point of a run that begins with nothing seen, a text is passed on to the collection unless
the last step that left a trace, by passing a text on or by copying one out, was about the same text
and either copied it or is less than the window ago. What is not passed on changes nothing. So a text
that was copied out is not passed on until another one leaves a trace. -/
theorem passes_iff (c : Collection) (asked : Transcript) (steps : List Step) (e : CaptureEvent)
    (now : Calendar.Moment) (clock : Float) :
    let start : State := ({ collection := c }, asked)
    let h := (run o settings start steps).1
    let isPassedOn := h.passes settings e clock
    (isPassedOn ↔ ¬∃ l ∈ (traces o settings start steps).getLast?, l.content = .text e.text ∧
        (l.isOwnCopy ∨ clock - l.moment < settings.window)) ∧
      (isPassedOn → h.handle o { settings with now } e clock = (do
        let (r, collection) ← h.collection.capture o settings.classifier settings.newId now e
        return (r, { collection, last := some ⟨.text e.text, clock, false⟩ }))) ∧
      (¬isPassedOn → h.handle o { settings with now } e clock = pure (.ok none, h)) ∧
      ∀ earlier step later copied, steps = earlier ++ step :: later →
        step.left? settings (run o settings start earlier).1 = some ⟨.text e.text, copied, true⟩ →
        (∀ l ∈ traces o settings (run o settings start (earlier ++ [step])) later,
          l.content = .text e.text) → ¬isPassedOn := by
  intro start h isPassedOn
  have hlast : h.last = (traces o settings start steps).getLast? :=
    (last_of_run o settings start steps).trans Option.or_none
  refine ⟨?_, h.handle_of_passes o { settings with now } e clock,
    h.handle_of_not_passes o { settings with now } e clock, ?_⟩
  · rw [← hlast]
    exact h.passes_iff_not_repeated settings e clock
  · rintro earlier step later copied rfl hcopy htraces
    have hsnoc : run o settings start (earlier ++ [step]) =
        step.run o settings (run o settings start earlier) := List.foldl_concat ..
    have hsplit : h = (run o settings (run o settings start (earlier ++ [step])) later).1 := by
      rw [hsnoc]
      exact congrArg Prod.fst (List.foldl_append ..)
    have hcopied : (run o settings start (earlier ++ [step])).1.HasCopy e.text := by
      rw [hsnoc, HasCopy, Step.last_run, hcopy]
      exact ⟨_, rfl, rfl, rfl⟩
    have hstill := hasCopy_run o settings hcopied htraces
    rw [← hsplit] at hstill
    exact not_passes_of_hasCopy settings hstill clock

end

/-- Words are captured, others are copied out and come back at once. However late they come once more,
they are stopped, while the words before them are let in again. -/
theorem passes_iff_words :
    let noon := (Store.greeting ⟨0, by decide⟩).moment
    let settings : HandlerSettings := { newId := fun _ => "1", now := noon }
    let steps : List Step := [.handle { text := "some words" } noon 0.0,
      .markCopied (.text "others") 1.0, .handle { text := "others" } noon 2.0]
    let h := (run Collection.silent.outside settings ({}, {}) steps).1
    ¬h.passes settings { text := "others" } 1000.0 ∧ h.passes settings { text := "some words" } 3.0 := by
  intro noon settings steps h
  obtain ⟨-, -, -, hcopied⟩ := passes_iff Collection.silent.outside settings {} {} steps
    { text := "others" } noon 1000.0
  obtain ⟨hwords, -⟩ := passes_iff Collection.silent.outside settings {} {} steps
    { text := "some words" } noon 3.0
  constructor
  · exact hcopied [.handle { text := "some words" } noon 0.0] (.markCopied (.text "others") 1.0)
      [.handle { text := "others" } noon 2.0] 1.0 rfl rfl (List.forall_mem_nil _)
  · refine hwords.mpr ?_
    rintro ⟨l, hl, htext, -⟩
    have hlast : l = ⟨.text "others", 1.0, true⟩ := (Option.some.inj hl).symm
    rw [hlast] at htext
    simp at htext

end Handler

end Clipboard
