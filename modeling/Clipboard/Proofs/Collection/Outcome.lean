import Clipboard.Collection.Demo
import Clipboard.Proofs.Collection.Distinct
import Clipboard.Proofs.Collection.Handler

/-!
What comes of a change of snippets that are texts in all places. What it gives are texts again, and a
change with a fault leaves the store as it was: the fault comes before the save, or the save is the one
that a torn text keeps back.
-/

namespace Clipboard.Collection

open Remote (Outside Transcript)

/-! ## Values -/

def Value.IsTextual : Value → Prop
  | captured s => ∀ x ∈ s, x.IsTextual
  | snippets ss => ∀ x ∈ ss, x.IsTextual
  | snippet s => s.IsTextual
  | note v => v.isText
  | mark _ | count _ => True

/-- What an effect has to give, if nothing keeps it back. -/
def Effect.Offers (v : Value) : Effect → Prop
  | .done r _ => r = .ok v
  | .save v' _ => v' = v

theorem Effect.offers_of_result {e : Effect} {f : Failures} {v : Value} (h : e.result f = .ok v) :
    e.Offers v := by
  cases e with
  | done r m => exact h
  | save v' m =>
      simp only [result] at h
      split at h
      · cases h
      · exact Except.ok.inj h

section

variable {m : Memory} {v : Value}

theorem exists_of_offers_onSnippet {id : Json} {f : Held → Effect}
    (h : (m.onSnippet id f).Offers v) : ∃ x, x.snippet ∈ m.snippets ∧ (f x).Offers v := by
  obtain ⟨-, heffect⟩ | ⟨x, hfind, heffect⟩ := m.onSnippet_cases id f
  · rw [heffect] at h
    cases h
  · exact ⟨x, List.mem_map_of_mem (List.mem_of_find?_eq_some hfind), heffect ▸ h⟩

theorem isTextual_of_capture {w : Surroundings} {e : CaptureEvent} {now : Calendar.Moment}
    (h : (m.capture w e now).Offers v) : v.IsTextual := by
  obtain ⟨r, asked, hr, heffect⟩ | ⟨-, x, asked, ⟨r, hx⟩, heffect⟩ := m.capture_cases w e now
  · rw [heffect] at h
    obtain rfl | ⟨f, rfl⟩ := hr
    · cases h
      rintro x ⟨⟩
    · cases h
  · rw [heffect] at h
    cases h
    rintro _ ⟨⟩
    exact (snippetFor_spec hx).1

theorem isTextual_of_removeNote (hm : ∀ s ∈ m.snippets, s.IsTextual) {id : Json} {index : Int}
    (h : (m.removeNote id index).Offers v) : v.IsTextual := by
  obtain ⟨-, heffect⟩ | ⟨x, hx, hcases⟩ := m.removeNote_cases id index
  · rw [heffect] at h
    cases h
  · obtain ⟨i, note, -, hnote, heffect⟩ | ⟨-, -, heffect⟩ | ⟨-, -, f, -, heffect⟩ := hcases
    · rw [heffect] at h
      cases h
      have hmem : x.snippet ∈ m.snippets := List.mem_map_of_mem (List.mem_of_find?_eq_some hx)
      exact (hm x.snippet hmem).notes note (List.mem_of_getElem? hnote)
    · rw [heffect] at h
      cases h
    · rw [heffect] at h
      cases h

theorem Change.isTextual_of_effect (w : Surroundings) (hm : Distinct m.snippets) {μ : Change}
    (hμ : μ.IsTextual) (h : (μ.effect w m).Offers v) : v.IsTextual := by
  cases μ with
  | capture e now => exact isTextual_of_capture h
  | add hs =>
      obtain ⟨added, hadded, heffect⟩ := exists_add hm hμ
      simp only [effect, heffect] at h
      split at h
      · cases h
        rintro x ⟨⟩
      · cases h
        intro s hs
        exact List.forall_mem_map.mpr hμ s (firsts_sublist.subset (hadded ▸ hs))
  | addNote id note =>
      obtain ⟨x, hx, rfl⟩ := exists_of_offers_onSnippet h
      refine { hm.textual x.snippet hx with notes := fun v hv => ?_ }
      rcases List.mem_append.mp hv with hv | hv
      · exact (hm.textual x.snippet hx).notes v hv
      · rwa [List.mem_singleton.mp hv]
  | removeNote id index => exact isTextual_of_removeNote hm.textual h
  | toggleFavorite id =>
      obtain ⟨x, -, rfl⟩ := exists_of_offers_onSnippet h
      trivial
  | delete id =>
      obtain ⟨x, hx, rfl⟩ := exists_of_offers_onSnippet h
      exact hm.textual x.snippet hx
  | deleteAll =>
      cases h
      trivial

end

/-! ## Faults -/

/-- An effect with a fault saves nothing. -/
theorem Effect.entriesAfter_of_error {e : Effect} {f : Failures} {fault : Fault}
    (h : e.result f = .error fault) (entries : List (String × String)) :
    entriesAfter entries (e.attempt? f).toList = entries := by
  cases e with
  | done r m => rfl
  | save v m =>
      simp only [result] at h
      split at h
      · rename_i htorn
        have hnot : (Attempt.under f m.snippets).isSaved = false := by
          simp only [Attempt.isTorn, Attempt.isSaved, Bool.and_eq_true, Bool.not_eq_true'] at htorn ⊢
          rw [htorn.2, Bool.and_false]
        simp only [attempt?, Option.toList_some, entriesAfter, lastSaved, List.filter_singleton, hnot]
        rfl
      · cases h

/-! ## Outcomes -/

/-- An outcome of a change of a collection whose store had these entries. -/
structure Outcome.IsSound (entries : List (String × String)) (o : Outcome Value) : Prop where
  stored : HoldsDistinct o.2.store.entries
  unsaved : ∀ f, o.1 = .error f → o.2.store.entries = entries
  textual : ∀ v, o.1 = .ok v → v.IsTextual

theorem Change.isSound (w : Surroundings) {c : Collection} {t : Transcript}
    (h : State.IsDistinct ⟨c, t⟩) {μ : Change} (hμ : μ.IsTextual) :
    Outcome.IsSound c.store.entries (μ.perform w c t).1 := by
  have hrun : (μ.perform w c t).1.withAsked (μ.perform w c t).2 =
      ((μ.effect w (State.memory ⟨c, t⟩)).result c.store.failures,
        State.after ⟨c, t⟩ (μ.effect w (State.memory ⟨c, t⟩)).memory
          ((μ.effect w (State.memory ⟨c, t⟩)).attempt? c.store.failures).toList) :=
    (Change.run_eq w ⟨c, t⟩ μ).trans (Effect.settle_eq _ _)
  have hresult := congrArg Prod.fst hrun
  have hentries := congrArg (·.2.collection.store.entries) hrun
  refine ⟨(h.run_change w hμ).stored, fun f hf => ?_, fun v hv => ?_⟩
  · exact hentries.trans (Effect.entriesAfter_of_error (hresult.symm.trans hf) _)
  · have hoffers := Effect.offers_of_result (hresult.symm.trans hv)
    exact μ.isTextual_of_effect (m := State.memory ⟨c, t⟩) w h.memory hμ hoffers

/-- A text that a handler gets at first is passed on, and the outcome is that of its capture. -/
theorem isSound_handle (o : Outside) (settings : HandlerSettings) {c : Collection} {t : Transcript}
    (h : State.IsDistinct ⟨c, t⟩) (e : CaptureEvent) (clock : Float) :
    let r := (Handler.handle o settings { collection := c } e clock t).1
    (Outcome.as .captured (r.1, r.2.collection)).IsSound c.store.entries := by
  rw [Handler.handle_of_passes o settings _ e clock rfl]
  have hcapture : (Change.capture e settings.now).IsTextual := trivial
  exact Change.isSound ⟨o, settings.classifier, settings.newId⟩ h hcapture

/-! ## Samples -/

theorem isText_own_sample : ∀ s ∈ Sample.all, ∀ f ∈ s.variant.field?, f.2.isText := by
  intro s hs
  simp only [Sample.all, List.mem_cons, List.not_mem_nil, or_false] at hs
  rcases hs with rfl | rfl | rfl | rfl | rfl | rfl <;> rintro f ⟨⟩ <;> rfl

theorem isTextual_toSnippet {s : Sample} (hs : s ∈ Sample.all) (id : String) :
    (s.toSnippet id).IsTextual where
  id := rfl
  content := rfl
  source := rfl
  app a ha := by
    simp only [Sample.toSnippet] at ha
    split at ha
    · cases ha
      rfl
    · cases ha
  tags v hv := by
    obtain ⟨tag, -, rfl⟩ := List.mem_map.mp hv
    rfl
  notes v hv := by cases hv
  own := isText_own_sample s hs

/-- The demo is an addition of texts by a collection that has drawn more identifiers. -/
theorem isSound_addDemo {c : Collection} {t : Transcript} (h : State.IsDistinct ⟨c, t⟩)
    (w : Surroundings) : ((c.addDemo w.newId).as .snippets).IsSound c.store.entries := by
  have hsamples : (Change.add ((Sample.all.mapIdx fun i s =>
      s.toSnippet (w.newId (c.drawn + i))).map .own)).IsTextual := by
    refine List.forall_mem_map.mpr fun x hx => ?_
    obtain ⟨i, hi, rfl⟩ := List.mem_mapIdx.mp hx
    exact isTextual_toSnippet (List.getElem_mem hi) _
  have hdrawn : State.IsDistinct ⟨{ c with drawn := c.drawn + Sample.all.length }, t⟩ :=
    ⟨h.memory, h.stored⟩
  have hsound := Change.isSound w hdrawn hsamples
  simp only [addDemo, List.length_mapIdx]
  exact hsound

end Clipboard.Collection
