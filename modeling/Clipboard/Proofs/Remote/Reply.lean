import Clipboard.Proofs.Fallible
import Clipboard.Remote.Labeller

/-!
What comes of a model's reply. It depends on the reply alone, and labels are taken from it exactly if
one of its tags is not blank and the confidence is a number that there is.
-/

namespace Clipboard.Remote

open Fallible

/-! ## Objects in replies -/

/-- The transcript with one more request. -/
def Transcript.asked (t : Transcript) (r : Request) : Transcript :=
  { t with requests := t.requests ++ [r] }

section

variable (o : Outside) (r : Request) (t : Transcript)

theorem complete_run : (complete o r).run t = ((o.reply t.requests r).text, t.asked r) := by
  have hask : o.ask r t = (o.reply t.requests r, t.asked r) := rfl
  rw [complete, liftM_bind_run, hask]
  cases (o.reply t.requests r).text <;> rfl

theorem completeObject_run : (completeObject o r).run t =
    ((o.reply t.requests r).text >>= objectIn, t.asked r) := by
  rw [completeObject, bind_run, complete_run]
  cases (o.reply t.requests r).text with
  | error f => rfl
  | ok s =>
      simp only [bind, Except.bind]
      cases objectIn s <;> rfl

/-- What is read in a reply does not depend on anything that was asked before. -/
theorem completeObject_fst :
    ((completeObject o r).run t).1 = (o.reply t.requests r).text >>= objectIn := by
  rw [completeObject_run]

end

/-- The fields of the object in a reply; none if there is no such object. -/
def Reply.fields (r : Reply) : List (String × Json) := ((r.text >>= objectIn).toOption).getD []

/-- Says the same whatever it is asked, and finds no dates. -/
def Outside.replying (text : String) : Outside where
  reply _ _ := .content (some text)
  search _ _ := .ok none
  period _ _ := .ok none

/-! ## Labels in replies -/

/-- The texts in the list of tags of a reply, as they are given; none if there is no such list. -/
def Reply.tags (r : Reply) : List String :=
  match Json.lookup? "tags" r.fields with
  | some (.list xs) => xs.filterMap fun t => t.chars?.map String.ofList
  | _ => []

namespace Labeller

/-- The reply to the question what a text is. -/
def replyTo (o : Outside) (l : Labeller) (text : String) (t : Transcript) : Reply :=
  let shown := String.ofList (Text.takeFirst l.maxChars text.toList)
  o.reply t.requests (l.request (labelPrompt l.maxChars shown) 60)

/-- The labels in a reply are taken: a tag is not blank, and the confidence is not beyond all
floating-point numbers. -/
structure Takes (l : Labeller) (r : Reply) : Prop where
  enabled : l.enabled
  tag : ∃ tag ∈ r.tags, ¬Text.isBlank tag.toList
  confidence : Succeeds (statedConfidence (Json.lookup? "confidence" r.fields))

theorem labelsOf_succeeds_iff (r : Reply) : Succeeds (labelsOf r.fields) ↔
    (∃ tag ∈ r.tags, ¬Text.isBlank tag.toList) ∧
      Succeeds (statedConfidence (Json.lookup? "confidence" r.fields)) := by
  unfold labelsOf Reply.tags
  cases Json.lookup? "tags" r.fields with
  | none => simp
  | some v =>
      cases v with
      | list xs =>
          dsimp only
          generalize (xs.filterMap fun t => t.chars?.map String.ofList) = tags
          by_cases hblank : tags.all (fun s => Text.isBlank s.toList) = true
          · have hnone : ¬∃ tag ∈ tags, ¬Text.isBlank tag.toList := by
              simpa using List.all_eq_true.mp hblank
            rw [if_pos hblank]
            exact iff_of_false (not_succeeds_error _) fun h => hnone h.1
          · have hsome : ∃ tag ∈ tags, ¬Text.isBlank tag.toList := by simpa using hblank
            rw [if_neg hblank, and_iff_right hsome]
            exact succeeds_bind_of_forall fun _ => succeeds_pure _
      | _ => simp

/-- A reply without an object has no tags, as one with an empty object. -/
theorem labelsOf_objectIn_succeeds_iff (r : Reply) :
    Succeeds (r.text >>= objectIn >>= labelsOf) ↔ Succeeds (labelsOf r.fields) := by
  unfold Reply.fields
  cases r.text >>= objectIn with
  | ok fields => exact Iff.rfl
  | error f =>
      have hempty : labelsOf [] = .error .noTags := rfl
      simp only [Except.toOption, Option.getD_none, hempty]
      exact iff_of_false (not_succeeds_error f) (not_succeeds_error _)

/-- The labels that are taken have all the tags of the reply. -/
theorem tags_of_labelsOf {r : Reply} {labels : Labels} (h : labelsOf r.fields = .ok labels) :
    labels.tags = r.tags := by
  unfold labelsOf at h
  unfold Reply.tags
  generalize Json.lookup? "tags" r.fields = answer at h ⊢
  match answer, h with
  | some (.list xs), h =>
      dsimp only at h
      split at h
      · cases h
      · obtain ⟨x, -, hx⟩ := bind_eq_ok_iff.mp h
        cases hx
        rfl

theorem label_fst (o : Outside) (l : Labeller) (text : String) (t : Transcript) :
    ((l.label o text).run t).1 = if l.enabled then
      (l.replyTo o text t).text >>= objectIn >>= labelsOf else .error .disabled := by
  unfold label replyTo
  cases l.enabled with
  | false => rfl
  | true =>
      simp only [Bool.not_true, Bool.false_eq_true, if_false, if_true]
      refine (bind_fst (completeObject o _) _ t).trans ?_
      rw [completeObject_fst]
      refine bind_congr fun fields => ?_
      cases labelsOf fields <;> rfl

theorem labelsOf_of_label {o : Outside} {l : Labeller} {text : String} {t : Transcript}
    {labels : Labels} (h : ((l.label o text).run t).1 = .ok labels) :
    labelsOf (l.replyTo o text t).fields = .ok labels := by
  rw [label_fst] at h
  split at h
  · obtain ⟨fields, hfields, h⟩ := bind_eq_ok_iff.mp h
    rw [Reply.fields, hfields]
    exact h
  · cases h

theorem tags_of_label {o : Outside} {l : Labeller} {text : String} {t : Transcript}
    {labels : Labels} (h : ((l.label o text).run t).1 = .ok labels) :
    labels.tags = (l.replyTo o text t).tags :=
  tags_of_labelsOf (labelsOf_of_label h)

theorem label_succeeds_iff (o : Outside) (l : Labeller) (text : String) (t : Transcript) :
    Succeeds ((l.label o text).run t).1 ↔ l.Takes (l.replyTo o text t) := by
  rw [label_fst]
  cases henabled : l.enabled with
  | false => exact iff_of_false (not_succeeds_error _) fun h => absurd h.enabled (by simp [henabled])
  | true =>
      rw [if_pos rfl, labelsOf_objectIn_succeeds_iff, labelsOf_succeeds_iff]
      exact ⟨fun h => ⟨henabled, h.1, h.2⟩, fun h => ⟨h.tag, h.confidence⟩⟩

end Labeller

end Clipboard.Remote
