import Mathlib.Data.List.Forall2
import Clipboard.Collection.Basic

/-!
What a change does to the snippets in memory, told apart from the store. Each change of a collection
is such an effect, followed by a save if the effect asks for one; the store has no other part in it.
-/

namespace Clipboard

open Remote (Outside Consult Transcript)

/-- What is around a collection: the outside, the classifier, and the source of identifiers. -/
structure Surroundings where
  outside : Outside
  classifier : Classifier
  newId : Nat → String

namespace Collection

/-! ## Changes and their values -/

inductive Change
  | capture (e : CaptureEvent) (now : Calendar.Moment)
  | add (hs : List Held)
  | addNote (id note : Json)
  | removeNote (id : Json) (index : Int)
  | toggleFavorite (id : Json)
  | delete (id : Json)
  | deleteAll

/-- What an operation gives. -/
inductive Value
  | captured (s : Option Snippet)
  | snippets (ss : List Snippet)
  | snippet (s : Snippet)
  | note (v : Json)
  | mark (isFavorite : Bool)
  | count (n : Nat)

def Outcome.as {α : Type} (f : α → Value) (r : Outcome α) : Outcome Value := (r.1.map f, r.2)

def Change.perform (w : Surroundings) (c : Collection) : Change → Consult (Outcome Value)
  | capture e now => return (← c.capture w.outside w.classifier w.newId now e).as .captured
  | add hs => return (c.add hs).as .snippets
  | addNote id note => return (c.addNote id note).as .snippet
  | removeNote id index => return (c.removeNote id index).as .note
  | toggleFavorite id => return (c.toggleFavorite id).as .mark
  | delete id => return (c.delete id).as .snippet
  | deleteAll => return c.deleteAll.as .count

/-- A collection with what the outside was asked. -/
structure State where
  collection : Collection
  asked : Transcript

/-- An outcome, with what the outside was asked by then. -/
def Outcome.withAsked (r : Outcome Value) (asked : Transcript) : Except Fault Value × State :=
  (r.1, ⟨r.2, asked⟩)

def Change.run (w : Surroundings) (s : State) (μ : Change) : Except Fault Value × State :=
  let (r, asked) := μ.perform w s.collection s.asked
  r.withAsked asked

/-! ## Memory -/

/-- All of a state but the store and the warning. -/
structure Memory where
  held : List Held
  drawn : Nat
  asked : Transcript

namespace State

def memory (s : State) : Memory := ⟨s.collection.held, s.collection.drawn, s.asked⟩

/-- The state with other memory, the store and the warning as they were. -/
def withMemory (s : State) (m : Memory) : State :=
  ⟨{ s.collection with held := m.held, drawn := m.drawn }, m.asked⟩

end State

/-! ## Effects -/

inductive Effect
  /-- A result, with nothing to save. -/
  | done (r : Except Fault Value) (m : Memory)
  /-- A value that is given after a save. -/
  | save (v : Value) (m : Memory)

namespace Effect

def memory : Effect → Memory
  | done _ m | save _ m => m

/-- The result and the state that an effect leads to. -/
def settle (s : State) : Effect → Except Fault Value × State
  | done r m => (r, s.withMemory m)
  | save v m => ((s.withMemory m).collection.persist v).withAsked m.asked

end Effect

namespace Memory

variable (m : Memory)

def snippets : List Snippet := m.held.map (·.snippet)

def holds (content : Json) : Bool := m.snippets.any (·.content.same content)

/-- The effect on the first snippet with an identifier. -/
def onSnippet (id : Json) (f : Held → Effect) : Effect :=
  match m.held.find? (hasId id ·.snippet) with
  | some h => f h
  | none => .done (.error (.notFound id)) m

/-- The effect of a captured text, once it is classified. -/
def keep (w : Surroundings) (e : CaptureEvent) (r : Classification) (now : Calendar.Moment) :
    Effect :=
  match snippetFor e r (w.newId m.drawn) now with
  | .ok s => .save (.captured (some s))
    { m with held := m.held ++ [Held.own s], drawn := m.drawn + 1 }
  | .error f => .done (.error f) m

def capture (w : Surroundings) (e : CaptureEvent) (now : Calendar.Moment) : Effect :=
  if Text.isBlank e.text.toList || m.holds (.text e.text) then .done (.ok (.captured none)) m
  else match w.classifier.classify w.outside e.text e.app m.asked with
    | (none, asked) => .done (.ok (.captured none)) { m with asked }
    | (some r, asked) => keep { m with asked } w e r now

def add (hs : List Held) : Effect :=
  if m.snippets.any (!·.content.isAtom) then .done (.error .compound) m
  else match fresh (m.snippets.map (·.content)) hs with
    | ([], true) => .done (.ok (.snippets [])) m
    | (added, true) =>
      .save (.snippets (added.map (·.snippet))) { m with held := m.held ++ added }
    | (added, false) => .done (.error .compound) { m with held := m.held ++ added }

/-- The memory with changed notes. -/
def withNotes (id : Json) (list : Option Nat) (f : List Json → List Json) : Memory :=
  { m with held := changeNotes id list f m.held }

/-- The effect on the notes of a snippet of the removal of one of them. -/
def removeNote (id : Json) (index : Int) : Effect :=
  m.onSnippet id fun h =>
    let notes := h.snippet.notes
    if index < -2 ^ 63 || 2 ^ 63 ≤ index then .done (.error .hugeIndex) m
    else if notes.isEmpty then .done (.error .noNotes) m
    else match (place? notes.length index).bind fun i => (notes[i]?).map (i, ·) with
      | some (i, note) => .save (.note note) (m.withNotes id h.list (·.eraseIdx i))
      | none => .done (.error .noSuchNote) m

end Memory

def Change.effect (w : Surroundings) (m : Memory) : Change → Effect
  | capture e now => m.capture w e now
  | add hs => m.add hs
  | addNote id note => m.onSnippet id fun h =>
      .save (.snippet (h.snippet.withNotes (· ++ [note]))) (m.withNotes id h.list (· ++ [note]))
  | removeNote id index => m.removeNote id index
  | toggleFavorite id =>
    let toggled (s : Snippet) : Snippet := { s with isFavorite := !s.isFavorite }
    m.onSnippet id fun h =>
      .save (.mark !h.snippet.isFavorite) { m with held := Collection.change id toggled m.held }
  | delete id => m.onSnippet id fun h =>
      .save (.snippet h.snippet) { m with held := m.held.eraseP (hasId id ·.snippet) }
  | deleteAll => .save (.count m.held.length) { m with held := [] }

/-! ## Each change is its effect -/

theorem as_persist {α : Type} (c : Collection) (f : α → Value) (v : α) :
    (c.persist v).as f = c.persist (f v) := by
  unfold persist
  split <;> rfl

section

variable (w : Surroundings) (s : State)

theorem settle_onSnippet {α : Type} {id : Json} {f : Held → Outcome α} {g : α → Value}
    {e : Held → Effect} (h : ∀ x, ((f x).as g).withAsked s.asked = (e x).settle s) :
    ((s.collection.onSnippet id f).as g).withAsked s.asked =
      (s.memory.onSnippet id e).settle s := by
  have hfind : s.memory.held.find? (hasId id ·.snippet) =
      s.collection.held.find? (hasId id ·.snippet) := rfl
  simp only [onSnippet, Memory.onSnippet, hfind]
  cases s.collection.held.find? (hasId id ·.snippet) with
  | some x => exact h x
  | none => rfl

theorem settle_keep (e : CaptureEvent) (r : Classification) (now : Calendar.Moment) :
    ((s.collection.keep e r w.newId now).as .captured).withAsked s.asked =
      (s.memory.keep w e r now).settle s := by
  have hdrawn : s.memory.drawn = s.collection.drawn := rfl
  simp only [Collection.keep, Memory.keep, hdrawn]
  cases snippetFor e r (w.newId s.collection.drawn) now with
  | error f => rfl
  | ok x =>
      simp only [withHeld, as_persist]
      rfl

theorem run_capture (e : CaptureEvent) (now : Calendar.Moment) :
    (Change.capture e now).run w s = (s.memory.capture w e now).settle s := by
  have hholds : s.memory.holds (.text e.text) = s.collection.holds (.text e.text) := rfl
  have hasked : s.memory.asked = s.asked := rfl
  simp only [Change.run, Change.perform, Collection.capture, Memory.capture, hholds, hasked]
  by_cases hskip : (Text.isBlank e.text.toList || s.collection.holds (.text e.text)) = true
  · simp only [hskip, if_true]
    rfl
  · simp only [hskip, Bool.false_eq_true, if_false]
    rcases hc : w.classifier.classify w.outside e.text e.app s.asked with ⟨answer, asked⟩
    cases answer with
    | none =>
        simp only [bind, StateT.bind, hc]
        rfl
    | some r =>
        simp only [bind, StateT.bind, hc]
        exact settle_keep w ⟨s.collection, asked⟩ e r now

theorem run_add (hs : List Held) : (Change.add hs).run w s = (s.memory.add hs).settle s := by
  have hsnippets : s.memory.snippets = s.collection.snippets := rfl
  simp only [Change.run, Change.perform, Collection.add, Memory.add, hsnippets]
  by_cases hatoms : (s.collection.snippets.any fun x => !x.content.isAtom) = true
  · simp only [hatoms, if_true]
    rfl
  · simp only [hatoms, Bool.false_eq_true, if_false]
    generalize fresh (s.collection.snippets.map (·.content)) hs = r
    obtain ⟨added, complete⟩ := r
    cases complete with
    | false => cases added <;> rfl
    | true =>
        cases added with
        | nil => rfl
        | cons x added =>
            simp only [withHeld, as_persist]
            rfl

theorem run_removeNote (id : Json) (index : Int) :
    (Change.removeNote id index).run w s = (s.memory.removeNote id index).settle s := by
  refine settle_onSnippet s fun x => ?_
  by_cases hhuge : (decide (index < -2 ^ 63) || decide (2 ^ 63 ≤ index)) = true
  · simp only [hhuge, if_true]
    rfl
  · simp only [hhuge, Bool.false_eq_true, if_false]
    by_cases hempty : x.snippet.notes.isEmpty = true
    · simp only [hempty, if_true]
      rfl
    · simp only [hempty, Bool.false_eq_true, if_false]
      cases (place? x.snippet.notes.length index).bind fun i => (x.snippet.notes[i]?).map (i, ·) with
      | none => rfl
      | some r =>
          simp only [withHeld, as_persist]
          rfl

/-- A change is its effect, with a save where the effect asks for one. -/
theorem Change.run_eq (μ : Change) : μ.run w s = (μ.effect w s.memory).settle s := by
  cases μ with
  | capture e now => exact run_capture w s e now
  | add hs => exact run_add w s hs
  | addNote id note =>
      refine settle_onSnippet s fun x => ?_
      rw [withHeld, as_persist]
      rfl
  | removeNote id index => exact run_removeNote w s id index
  | toggleFavorite id =>
      refine settle_onSnippet s fun x => ?_
      rw [withHeld, as_persist]
      rfl
  | delete id =>
      refine settle_onSnippet s fun x => ?_
      rw [withHeld, as_persist]
      rfl
  | deleteAll =>
      have hperform : (s.collection.deleteAll.as .count).withAsked s.asked =
          ((s.withMemory { s.memory with held := [] }).collection.persist
            (.count s.collection.held.length)).withAsked s.asked := by
        rw [Collection.deleteAll, withHeld, as_persist]
        rfl
      exact hperform

end

/-! ## Snippets that are changed -/

section

variable {R : Snippet → Snippet → Prop} (hrefl : ∀ s, R s s) {f : Snippet → Snippet}

include hrefl

/-- Each snippet is changed or left as it is, in its place. -/
theorem forall₂_change (hf : ∀ s, R s (f s)) (id : Json) (hs : List Held) :
    List.Forall₂ R (hs.map (·.snippet)) ((change id f hs).map (·.snippet)) := by
  induction hs with
  | nil => exact .nil
  | cons h hs ih =>
      unfold change
      split
      · exact .cons (hf h.snippet) (List.forall₂_same.mpr fun s _ => hrefl s)
      · exact .cons (hrefl h.snippet) ih

theorem forall₂_changeNotes {f : List Json → List Json} (hf : ∀ s : Snippet, R s (s.withNotes f))
    (id : Json) (list : Option Nat) (hs : List Held) :
    List.Forall₂ R (hs.map (·.snippet)) ((changeNotes id list f hs).map (·.snippet)) := by
  cases list with
  | none => exact forall₂_change hrefl hf id hs
  | some l =>
      rw [changeNotes, List.map_map, List.forall₂_map_left_iff, List.forall₂_map_right_iff]
      refine List.forall₂_same.mpr fun h _ => ?_
      rw [Function.comp_apply]
      split
      · exact hf h.snippet
      · exact hrefl h.snippet

end

/-! ## What an effect comes to -/

namespace Memory

variable (m : Memory)

/-- No snippet has the identifier. -/
def Lacks (id : Json) : Prop := ∀ s ∈ m.snippets, ¬hasId id s

theorem onSnippet_cases (id : Json) (f : Held → Effect) :
    (m.Lacks id ∧ m.onSnippet id f = .done (.error (.notFound id)) m) ∨
      ∃ h, m.held.find? (hasId id ·.snippet) = some h ∧ m.onSnippet id f = f h := by
  cases hfind : m.held.find? (hasId id ·.snippet) with
  | none =>
      have hlacks : m.Lacks id := List.forall_mem_map.mpr (List.find?_eq_none.mp hfind)
      exact .inl ⟨hlacks, by simp only [onSnippet, hfind]⟩
  | some h => exact .inr ⟨h, rfl, by simp only [onSnippet, hfind]⟩

/-- A captured text becomes the last snippet, or nothing but the transcript changes. -/
theorem capture_cases (w : Surroundings) (e : CaptureEvent) (now : Calendar.Moment) :
    (∃ r asked, (r = .ok (.captured none) ∨ ∃ f, r = .error f) ∧
      m.capture w e now = .done r { m with asked }) ∨
    ¬(Text.isBlank e.text.toList ∨ m.holds (.text e.text)) ∧ ∃ x asked,
      (∃ r, snippetFor e r (w.newId m.drawn) now = .ok x) ∧ m.capture w e now =
        .save (.captured (some x)) ⟨m.held ++ [Held.own x], m.drawn + 1, asked⟩ := by
  unfold capture
  by_cases hskip : (Text.isBlank e.text.toList || m.holds (.text e.text)) = true
  · rw [if_pos hskip]
    exact .inl ⟨_, m.asked, .inl rfl, rfl⟩
  · rw [if_neg hskip]
    rcases w.classifier.classify w.outside e.text e.app m.asked with ⟨_ | r, asked⟩
    · exact .inl ⟨_, asked, .inl rfl, rfl⟩
    · simp only [keep]
      cases hx : snippetFor e r (w.newId m.drawn) now with
      | error f => exact .inl ⟨_, asked, .inr ⟨f, rfl⟩, rfl⟩
      | ok x => exact .inr ⟨by simpa using hskip, x, asked, ⟨r, hx⟩, rfl⟩

end Memory

/-! ## Notes that are removed -/

/-- An index beyond sixty-four bits. -/
def isHuge (index : Int) : Bool := index < -2 ^ 63 || 2 ^ 63 ≤ index

/-- The place of the note with an index, if there is one. -/
def notePlace? (notes : List Json) (index : Int) : Option Nat :=
  if isHuge index then none else place? notes.length index

theorem place?_lt {n i : Nat} {index : Int} (h : place? n index = some i) : i < n := by
  obtain ⟨hin, hi⟩ := Option.ite_none_right_eq_some.mp h
  simp only [Bool.and_eq_true, decide_eq_true_eq] at hin
  have heq := Option.some.inj hi
  omega

/-- A note that is there is removed; where there is none, nothing is done. -/
theorem Memory.removeNote_cases (m : Memory) (id : Json) (index : Int) :
    (m.Lacks id ∧ m.removeNote id index = .done (.error (.notFound id)) m) ∨
    ∃ h, m.held.find? (hasId id ·.snippet) = some h ∧
      ((∃ i note, notePlace? h.snippet.notes index = some i ∧ h.snippet.notes[i]? = some note ∧
        m.removeNote id index = .save (.note note) (m.withNotes id h.list (·.eraseIdx i))) ∨
      (isHuge index ∧ notePlace? h.snippet.notes index = none ∧
        m.removeNote id index = .done (.error .hugeIndex) m) ∨
      (¬isHuge index ∧ notePlace? h.snippet.notes index = none ∧
        ∃ f, (f = .noNotes ∨ f = .noSuchNote) ∧ m.removeNote id index = .done (.error f) m)) := by
  obtain ⟨hlacks, heffect⟩ | ⟨h, hfind, heffect⟩ := m.onSnippet_cases id _
  · exact .inl ⟨hlacks, heffect⟩
  refine .inr ⟨h, hfind, ?_⟩
  rw [removeNote, heffect]
  by_cases hhuge : isHuge index
  · have hif : (decide (index < -2 ^ 63) || decide (2 ^ 63 ≤ index)) = true := hhuge
    rw [if_pos hif]
    exact .inr (.inl ⟨hhuge, if_pos hhuge, rfl⟩)
  · have hif : ¬(decide (index < -2 ^ 63) || decide (2 ^ 63 ≤ index)) = true := hhuge
    have hnotes : notePlace? h.snippet.notes index = place? h.snippet.notes.length index :=
      if_neg hhuge
    rw [if_neg hif, hnotes]
    cases hplace : place? h.snippet.notes.length index with
    | none =>
        refine .inr (.inr ⟨hhuge, rfl, ?_⟩)
        split
        · exact ⟨.noNotes, .inl rfl, rfl⟩
        · exact ⟨.noSuchNote, .inr rfl, rfl⟩
    | some i =>
        have hlt := place?_lt hplace
        have hnote : h.snippet.notes[i]? = some h.snippet.notes[i] := List.getElem?_eq_getElem hlt
        have hsome : ¬h.snippet.notes.isEmpty := by
          rw [List.isEmpty_iff]
          exact List.ne_nil_of_length_pos (Nat.zero_lt_of_lt hlt)
        refine .inl ⟨i, h.snippet.notes[i], rfl, hnote, ?_⟩
        simp [hsome, hnote]

end Collection

end Clipboard
