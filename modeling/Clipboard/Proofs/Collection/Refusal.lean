import Clipboard.Proofs.Collection.Capture
import Clipboard.Proofs.Collection.Frame

/-!
What a change is refused for. A refusal leaves no trace: neither in memory nor in the store, nor in
the warning that is pending.
-/

namespace Clipboard.Collection

/-- A result which tells that nothing was done: an unknown identifier, a note that is not there, a
text that is not captured, an addition of nothing. -/
inductive IsRefusal : Except Fault Value → Prop
  | notFound (id : Json) : IsRefusal (.error (.notFound id))
  | noNotes : IsRefusal (.error .noNotes)
  | noSuchNote : IsRefusal (.error .noSuchNote)
  | notCaptured : IsRefusal (.ok (.captured none))
  | noneAdded : IsRefusal (.ok (.snippets []))

namespace Change

/-- The identifier of the snippet that the change is about. -/
def named? : Change → Option Json
  | addNote id _ | removeNote id _ | toggleFavorite id | delete id => some id
  | _ => none

/-- Whether there is nothing to do, but for an unknown identifier. -/
def IsIdle (m : Memory) : Change → Prop
  | capture e _ => Text.isBlank e.text.toList ∨ m.holds (.text e.text)
  | add hs => (∀ s ∈ m.snippets, s.content.isAtom) ∧
      ∀ x ∈ hs, x.snippet.content.isAtom ∧ m.holds x.snippet.content
  | removeNote id index => ∃ s, m.snippets.find? (hasId id) = some s ∧ ¬isHuge index ∧
      (index < -s.notes.length ∨ s.notes.length ≤ index)
  | _ => False

end Change

/-! ## Effects -/

/-- Not refused, however the store fails. -/
def Effect.IsGranted (e : Effect) : Prop := ∀ f, ¬IsRefusal (e.result f)

/-- How a change fares whose effect this is: its identifier is unknown, or else it is idle, or it is
granted. -/
inductive Fares (m : Memory) (μ : Change) (e : Effect) : Prop
  | unknown {id : Json} (hid : id ∈ μ.named?) (hlacks : m.Lacks id)
      (heffect : e = .done (.error (.notFound id)) m)
  | idle {r : Except Fault Value} (hfinds : ∀ id ∈ μ.named?, ¬m.Lacks id) (hidle : μ.IsIdle m)
      (hr : IsRefusal r) (hother : ∀ id, r ≠ .error (.notFound id)) (heffect : e = .done r m)
  | granted (hfinds : ∀ id ∈ μ.named?, ¬m.Lacks id) (hidle : ¬μ.IsIdle m) (heffect : e.IsGranted)

theorem isGranted_save {v : Value} (h : ¬IsRefusal (.ok v)) (m : Memory) :
    (Effect.save v m).IsGranted := by
  intro f
  simp only [Effect.result]
  split
  -- The value is withheld for a text that cannot be stored; that fault is no refusal.
  · rintro ⟨⟩
  · exact h

theorem notePlace?_eq_none_iff {notes : List Json} {index : Int} (h : ¬isHuge index) :
    notePlace? notes index = none ↔ index < -notes.length ∨ notes.length ≤ index := by
  rw [notePlace?, if_neg h, place?]
  split <;> simp <;> omega

section

variable {m : Memory}

/-- Only known contents are added to nothing. -/
theorem fresh_eq_nil_iff (known : List Json) (hs : List Held) :
    fresh known hs = ([], true) ↔
      ∀ x ∈ hs, x.snippet.content.isAtom ∧ known.any (·.same x.snippet.content) := by
  induction hs with
  | nil => simp [fresh]
  | cons x hs ih =>
      rw [List.forall_mem_cons, fresh]
      by_cases hatom : x.snippet.content.isAtom
      · by_cases hknown : known.any (·.same x.snippet.content) = true
        · simp [hatom, hknown, ih]
        · simp [hatom, hknown]
      · simp [hatom]

theorem isIdle_add_iff (hs : List Held) :
    (Change.add hs).IsIdle m ↔ (∀ s ∈ m.snippets, s.content.isAtom) ∧
      fresh (m.snippets.map (·.content)) hs = ([], true) := by
  rw [fresh_eq_nil_iff]
  simp only [Change.IsIdle, Memory.holds, List.any_map, Function.comp_def]

theorem fares_add (hs : List Held) : Fares m (.add hs) (m.add hs) := by
  have hfinds : ∀ id ∈ (Change.add hs).named?, ¬m.Lacks id := by rintro id ⟨⟩
  have hcompound (m' : Memory) : (Effect.done (.error .compound) m').IsGranted := by
    rintro f ⟨⟩
  have hidle := isIdle_add_iff (m := m) hs
  rw [Memory.add]
  by_cases hatoms : ∀ s ∈ m.snippets, s.content.isAtom
  · have hno : (m.snippets.any fun s => !s.content.isAtom) = false := by simpa using hatoms
    simp only [hno, Bool.false_eq_true, if_false]
    generalize fresh (m.snippets.map (·.content)) hs = r at hidle ⊢
    obtain ⟨added, complete⟩ := r
    cases complete with
    | false =>
        have hbusy : ¬(Change.add hs).IsIdle m := by simp [hidle]
        cases added <;> exact .granted hfinds hbusy (hcompound _)
    | true =>
        cases added with
        | nil => exact .idle hfinds (hidle.mpr ⟨hatoms, rfl⟩) .noneAdded (by rintro id ⟨⟩) rfl
        | cons x added =>
            have hadded : ¬IsRefusal (.ok (.snippets ((x :: added).map (·.snippet)))) := by
              rintro ⟨⟩
            exact .granted hfinds (by simp [hidle]) (isGranted_save hadded _)
  · have hyes : (m.snippets.any fun s => !s.content.isAtom) = true := by simpa using hatoms
    rw [hyes]
    exact .granted hfinds (fun h => hatoms (hidle.mp h).1) (hcompound m)

theorem fares_capture (w : Surroundings) (s : State) (e : CaptureEvent) (now : Calendar.Moment) :
    Fares s.memory (.capture e now) (s.memory.capture w e now) := by
  have hfinds : ∀ id ∈ (Change.capture e now).named?, ¬s.memory.Lacks id := by rintro id ⟨⟩
  by_cases hknown : Text.isBlank e.text.toList ∨ s.memory.holds (.text e.text)
  · exact .idle hfinds hknown .notCaptured (by rintro id ⟨⟩) (capture_known w hknown now)
  · obtain ⟨-, f, asked, heffect⟩ | ⟨-, x, asked, -, -, -, heffect⟩ :=
      capture_unknown w s hknown now
    · rw [heffect]
      exact .granted hfinds hknown (by rintro g ⟨⟩)
    · rw [heffect]
      exact .granted hfinds hknown (isGranted_save (by rintro ⟨⟩) _)

theorem not_lacks_of_find? {id : Json} {x : Held}
    (h : m.held.find? (hasId id ·.snippet) = some x) : ¬m.Lacks id := by
  intro hlacks
  have hid : hasId id x.snippet := by simpa using List.find?_some h
  exact hlacks x.snippet (List.mem_map_of_mem (List.mem_of_find?_eq_some h)) hid

theorem find?_snippets (id : Json) :
    m.snippets.find? (hasId id) = (m.held.find? (hasId id ·.snippet)).map (·.snippet) :=
  List.find?_map

theorem fares_removeNote (id : Json) (index : Int) :
    Fares m (.removeNote id index) (m.removeNote id index) := by
  obtain ⟨hlacks, heffect⟩ | ⟨x, hx, hcases⟩ := m.removeNote_cases id index
  · exact .unknown rfl hlacks heffect
  · have hfinds : ∀ id' ∈ (Change.removeNote id index).named?, ¬m.Lacks id' := by
      rintro _ ⟨⟩
      exact not_lacks_of_find? hx
    have hidle : (Change.removeNote id index).IsIdle m ↔
        ¬isHuge index ∧ notePlace? x.snippet.notes index = none := by
      have hfind : m.snippets.find? (hasId id) = some x.snippet := by rw [find?_snippets, hx]; rfl
      constructor
      · rintro ⟨s, hs, hhuge, hout⟩
        cases hfind.symm.trans hs
        exact ⟨hhuge, (notePlace?_eq_none_iff hhuge).mpr hout⟩
      · rintro ⟨hhuge, hplace⟩
        exact ⟨x.snippet, hfind, hhuge, (notePlace?_eq_none_iff hhuge).mp hplace⟩
    obtain ⟨i, note, hplace, -, heffect⟩ | ⟨hhuge, -, heffect⟩ | ⟨hhuge, hplace, f, hf, heffect⟩ :=
      hcases
    · rw [heffect]
      exact .granted hfinds (by simp [hidle, hplace]) (isGranted_save (by rintro ⟨⟩) _)
    · rw [heffect]
      exact .granted hfinds (by simp [hidle, hhuge]) (by rintro g ⟨⟩)
    · obtain rfl | rfl := hf
      · exact .idle hfinds (hidle.mpr ⟨hhuge, hplace⟩) .noNotes (by rintro id ⟨⟩) heffect
      · exact .idle hfinds (hidle.mpr ⟨hhuge, hplace⟩) .noSuchNote (by rintro id ⟨⟩) heffect

/-- A change that saves whatever snippet it finds. -/
theorem fares_onSnippet (μ : Change) {id : Json} (hid : μ.named? = some id) (hidle : ¬μ.IsIdle m)
    {f : Held → Effect} (hf : ∀ x, (f x).IsGranted) : Fares m μ (m.onSnippet id f) := by
  obtain ⟨hlacks, heffect⟩ | ⟨x, hx, heffect⟩ := m.onSnippet_cases id f
  · exact .unknown hid hlacks heffect
  · refine .granted (fun id' hid' => ?_) hidle (heffect ▸ hf x)
    cases hid.symm.trans hid'
    exact not_lacks_of_find? hx

end

theorem fares_effect (w : Surroundings) (s : State) (μ : Change) :
    Fares s.memory μ (μ.effect w s.memory) := by
  cases μ with
  | capture e now => exact fares_capture w s e now
  | add hs => exact fares_add hs
  | addNote id note =>
      refine fares_onSnippet (.addNote id note) rfl not_false fun x => isGranted_save ?_ _
      rintro ⟨⟩
  | removeNote id index => exact fares_removeNote id index
  | toggleFavorite id =>
      refine fares_onSnippet (.toggleFavorite id) rfl not_false fun x => isGranted_save ?_ _
      rintro ⟨⟩
  | delete id =>
      refine fares_onSnippet (.delete id) rfl not_false fun x => isGranted_save ?_ _
      rintro ⟨⟩
  | deleteAll => exact .granted (by rintro id ⟨⟩) not_false (isGranted_save (by rintro ⟨⟩) _)

/-- An identifier is reported as unknown exactly when the change names it and no snippet has it. That,
and a change with nothing to do, are all that is refused, and a refusal leaves the snippets, the store
and the warning as they were. -/
theorem run_refusal (w : Surroundings) (s : State) (μ : Change) :
    let r := μ.run w s
    (∀ id, r.1 = .error (.notFound id) ↔ id ∈ μ.named? ∧ s.memory.Lacks id) ∧
      (IsRefusal r.1 ↔ (∃ id ∈ μ.named?, s.memory.Lacks id) ∨ μ.IsIdle s.memory) ∧
      (IsRefusal r.1 → r.2 = s) := by
  intro r
  have hdone {r' : Except Fault Value} (heffect : μ.effect w s.memory = .done r' s.memory) :
      r = (r', s) := by
    change μ.run w s = _
    rw [Change.run_eq, heffect]
    rfl
  have hresult : r.1 = (μ.effect w s.memory).result s.collection.store.failures := by
    change (μ.run w s).1 = _
    rw [Change.run_eq, Effect.settle_eq]
  cases fares_effect w s μ with
  | unknown hid hlacks heffect =>
      rw [hdone heffect]
      refine ⟨fun id => ⟨?_, ?_⟩, iff_of_true (.notFound _) (.inl ⟨_, hid, hlacks⟩), fun _ => rfl⟩
      · rintro ⟨⟩
        exact ⟨hid, hlacks⟩
      · rintro ⟨hid', -⟩
        cases hid.symm.trans hid'
        rfl
  | idle hfinds hidle hr hother heffect =>
      rw [hdone heffect]
      exact ⟨fun id => iff_of_false (hother id) fun h => hfinds id h.1 h.2,
        iff_of_true hr (.inr hidle), fun _ => rfl⟩
  | granted hfinds hidle heffect =>
      have hno : ¬IsRefusal r.1 := hresult ▸ heffect _
      refine ⟨fun id => iff_of_false (fun h => hno (h ▸ .notFound id)) fun h => hfinds id h.1 h.2,
        iff_of_false hno ?_, fun h => absurd h hno⟩
      rintro (⟨id, hid, hlacks⟩ | h)
      · exact hfinds id hid hlacks
      · exact hidle h

/-- A greeting has one note, and only its own identifier is known; a warning stays. -/
theorem run_refusal_greeting :
    let g := Store.greeting ⟨0, by decide⟩
    let s : State := ⟨{ held := [.own g], lastWarning := some "Snippets not saved: locked" }, {}⟩
    let second := (Change.removeNote (.text "1") 1).run silent s
    let other := (Change.delete (.text "2")).run silent s
    (IsRefusal second.1 ∧ second.2 = s) ∧
      other.1 = .error (.notFound (.text "2")) ∧ other.2 = s := by
  intro g s second other
  obtain ⟨-, hsecond, hsecond'⟩ := run_refusal silent s (.removeNote (.text "1") 1)
  obtain ⟨hother, -, hother'⟩ := run_refusal silent s (.delete (.text "2"))
  have hidle : (Change.removeNote (.text "1") 1).IsIdle s.memory :=
    ⟨g, rfl, by decide, .inr (by decide)⟩
  have hrefused : IsRefusal second.1 := hsecond.mpr (.inr hidle)
  have hlacks : s.memory.Lacks (.text "2") := List.forall_mem_singleton.mpr (by decide)
  have hunknown : other.1 = .error (.notFound (.text "2")) := (hother _).mpr ⟨rfl, hlacks⟩
  exact ⟨⟨hrefused, hsecond' hrefused⟩, hunknown, hother' (hunknown ▸ .notFound _)⟩

end Clipboard.Collection
