import Clipboard.Proofs.Collection.Effect
import Clipboard.Proofs.Search.Phrase
import Clipboard.Proofs.Search.Results

/-!
Notes and searches. Of what a filter asks only its text is looked for in the notes. A further note is one
more place where it may be found; where a filter has no text and no words, the notes do not matter.
-/

namespace Clipboard

open Fallible

namespace Matcher

open Search (Fault)

variable {m : Matcher} {s : Snippet} {f : Filter} {note : Json}

/-! ## One more text -/

theorem textsOf_noted (s : Snippet) (note v : Json) :
    v ∈ textsOf { s with notes := s.notes ++ [note] } ↔
      v ∈ textsOf s ∨ v = note ∧ note.isPresent := by
  simp only [textsOf, List.mem_filter, List.mem_cons, List.cons_append, List.mem_append,
    List.not_mem_nil, or_false]
  constructor
  · rintro ⟨rfl | (h | rfl) | h, hpresent⟩
    · exact .inl ⟨.inl rfl, hpresent⟩
    · exact .inl ⟨.inr (.inl h), hpresent⟩
    · exact .inr ⟨rfl, hpresent⟩
    · exact .inl ⟨.inr (.inr h), hpresent⟩
  · rintro (⟨rfl | h | h, hpresent⟩ | ⟨rfl, hpresent⟩)
    · exact ⟨.inl rfl, hpresent⟩
    · exact ⟨.inr (.inl (.inl h)), hpresent⟩
    · exact ⟨.inr (.inr h), hpresent⟩
    · exact ⟨.inr (.inl (.inr rfl)), hpresent⟩

theorem haystack_noted (hnote : note.isText) {texts : List (List Char)}
    (h : haystack s = .ok texts) :
    ∃ more, haystack { s with notes := s.notes ++ [note] } = .ok more ∧ texts ⊆ more := by
  have hall : ∀ v ∈ textsOf { s with notes := s.notes ++ [note] }, v.isText := by
    intro v hv
    rcases (textsOf_noted s note v).mp hv with hv | ⟨rfl, -⟩
    · exact haystack_succeeds_iff.mp ⟨texts, h⟩ v hv
    · exact hnote
  obtain ⟨more, hmore⟩ := haystack_succeeds_iff.mpr hall
  refine ⟨more, hmore, fun text htext => ?_⟩
  obtain ⟨v, hv, hlowered⟩ := (mem_haystack_iff h text).mp htext
  exact (mem_haystack_iff hmore text).mpr ⟨v, (textsOf_noted s note v).mpr (.inl hv), hlowered⟩

theorem holds_mono {texts more : List (List Char)} (h : texts ⊆ more) {part : String}
    (hholds : holds texts part) : holds more part := by
  obtain ⟨text, htext, hpart⟩ := List.any_eq_true.mp hholds
  exact List.any_eq_true.mpr ⟨text, h htext, hpart⟩

theorem hasText_noted (hnote : note.isText) (h : m.hasText s f = .ok true) :
    m.hasText { s with notes := s.notes ++ [note] } f = .ok true := by
  rw [hasText_eq_true_iff] at h ⊢
  rcases h with ⟨texts, htexts, phrase, hphrase, hne, hholds⟩ | ⟨hterms, texts, n, htexts, hn, hcount⟩
  · obtain ⟨more, hmore, hsubset⟩ := haystack_noted hnote htexts
    exact .inl ⟨more, hmore, phrase, hphrase, hne, holds_mono hsubset hholds⟩
  · obtain ⟨more, hmore, hsubset⟩ := haystack_noted hnote htexts
    refine .inr ⟨hterms, more, n, hmore, hn, hcount.trans ?_⟩
    exact List.countP_mono_left fun _ _ => holds_mono hsubset

/-! ## What else is asked -/

theorem guard_eq_true_iff {x rest : Except Fault Bool} :
    (do
      if !(← x) then return false
      rest) = .ok true ↔ x = .ok true ∧ rest = .ok true := by
  rcases x with e | ⟨_ | _⟩ <;> simp [bind, Except.bind, pure, Except.pure]

/-- A snippet with other notes is asked the same, but for the text. -/
theorem askApp_of_notes {notes : List Json}
    (h : m.askText f { s with notes } = m.askText f s) :
    m.askApp f { s with notes } = m.askApp f s := by
  simp only [askApp, askType, askLanguage, askDate, h]
  rfl

theorem askText_noted (hnote : note.isText) (h : m.askText f s = .ok true) :
    m.askText f { s with notes := s.notes ++ [note] } = .ok true := by
  unfold askText at h ⊢
  split
  · rename_i hgiven
    rw [if_pos hgiven] at h
    exact hasText_noted hnote h
  · rfl

theorem askText_of_textless (hfree : ¬Filter.isGiven f.freeText) (hterms : f.terms = []) :
    m.askText f s = .ok true := by
  simp [askText, hfree, hterms, pure, Except.pure]

theorem askApp_noted (hnote : note.isText) (h : m.askApp f s = .ok true) :
    m.askApp f { s with notes := s.notes ++ [note] } = .ok true := by
  simp only [askApp, askType, askLanguage, askDate, guard_eq_true_iff] at h ⊢
  obtain ⟨happ, htype, hlanguage, hdate, htext⟩ := h
  exact ⟨happ, htype, hlanguage, hdate, askText_noted hnote htext⟩

theorem accepts_noted {favoritesOnly : Bool} (hnote : note.isText)
    (h : m.accepts f s favoritesOnly = .ok true) :
    m.accepts f { s with notes := s.notes ++ [note] } favoritesOnly = .ok true := by
  rw [accepts_eq] at h ⊢
  split at h
  · cases h
  · rename_i hshown
    rw [if_neg hshown]
    exact askApp_noted hnote h

theorem accepts_of_textless (hfree : ¬Filter.isGiven f.freeText) (hterms : f.terms = [])
    (notes : List Json) (favoritesOnly : Bool) :
    m.accepts f { s with notes } favoritesOnly = m.accepts f s favoritesOnly := by
  have htext : m.askText f { s with notes } = m.askText f s := by
    rw [askText_of_textless hfree hterms, askText_of_textless hfree hterms]
  rw [accepts_eq, accepts_eq, askApp_of_notes htext]

end Matcher

namespace Collection

/-! ## Notes in a collection -/

section

variable {R : Snippet → Snippet → Prop} (hrefl : ∀ s, R s s)

include hrefl

/-- A change of notes is made and stored, or not made. The store does not matter. -/
theorem forall₂_withHeld {α : Type} (c : Collection) (id : Json) (list : Option Nat)
    {f : List Json → List Json} (hf : ∀ s : Snippet, R s (s.withNotes f)) (result : α) :
    List.Forall₂ R c.snippets (c.withHeld (changeNotes id list f c.held) result).2.snippets := by
  have hmade : (c.withHeld (changeNotes id list f c.held) result).2.snippets =
      (changeNotes id list f c.held).map (·.snippet) := by
    unfold withHeld persist
    split <;> rfl
  rw [hmade]
  exact forall₂_changeNotes hrefl hf id list c.held

theorem forall₂_addNote (c : Collection) (id : Json) {note : Json}
    (h : ∀ s, R s { s with notes := s.notes ++ [note] }) :
    List.Forall₂ R c.snippets (c.addNote id note).2.snippets := by
  unfold addNote onSnippet
  split
  · exact forall₂_withHeld (f := (· ++ [note])) hrefl c id _ h _
  · exact List.forall₂_same.mpr fun s _ => hrefl s

theorem forall₂_removeNote (c : Collection) (id : Json) (index : Int)
    (h : ∀ s notes, R s { s with notes }) :
    List.Forall₂ R c.snippets (c.removeNote id index).2.snippets := by
  have hsame : List.Forall₂ R c.snippets c.snippets := List.forall₂_same.mpr fun s _ => hrefl s
  unfold removeNote onSnippet
  split
  · dsimp only
    split
    · exact hsame
    · split
      · exact hsame
      · split
        · rename_i i _ _
          exact forall₂_withHeld (f := (·.eraseIdx i)) hrefl c id _ (fun s => h s _) _
        · exact hsame
  · exact hsame

end

/-- A snippet that is found is found with one more note. Where a filter has no text and no words, the notes
make no difference, not even to whether it can be asked. The same holds of the snippets of a collection of
which one gets a note or loses one, and of those that have their notes in the same list. -/
theorem accepts_of_notes (m : Matcher) (f : Filter) (view : String) :
    let answer (s : Snippet) := m.accepts f s (view == "favorites")
    let keeps (ss ss' : List Snippet) :=
      List.Forall₂ (fun s s' => answer s = .ok true → answer s' = .ok true) ss ss'
    let same (ss ss' : List Snippet) := List.Forall₂ (fun s s' => answer s' = answer s) ss ss'
    (∀ s, ∀ note : Json, note.isText → answer s = .ok true →
        answer { s with notes := s.notes ++ [note] } = .ok true) ∧
      (∀ c : Collection, ∀ id note : Json, note.isText →
        keeps c.snippets (c.addNote id note).2.snippets) ∧
      (¬Filter.isGiven f.freeText → f.terms = [] →
        (∀ s notes, answer { s with notes } = answer s) ∧
          ∀ c : Collection, ∀ id, (∀ note, same c.snippets (c.addNote id note).2.snippets) ∧
            ∀ index, same c.snippets (c.removeNote id index).2.snippets) := by
  intro answer keeps same
  have hnoted : ∀ s, ∀ note : Json, note.isText → answer s = .ok true →
      answer { s with notes := s.notes ++ [note] } = .ok true :=
    fun _ _ hnote h => Matcher.accepts_noted hnote h
  refine ⟨hnoted, fun c id note hnote => ?_, fun hfree hterms => ?_⟩
  · exact forall₂_addNote (fun _ h => h) c id fun s => hnoted s note hnote
  · have hnotes : ∀ s notes, answer { s with notes } = answer s :=
      fun s notes => Matcher.accepts_of_textless hfree hterms notes _
    have hrefl : ∀ s, answer s = answer s := fun _ => rfl
    refine ⟨hnotes, fun c id => ⟨fun note => ?_, fun index => ?_⟩⟩
    · exact forall₂_addNote (R := fun s s' => answer s' = answer s) hrefl c id fun s => hnotes s _
    · exact forall₂_removeNote (R := fun s s' => answer s' = answer s) hrefl c id index hnotes

/-- A greeting is found by its words with a note and without one, and as a message whatever its notes. -/
theorem accepts_of_notes_noon :
    let m : Matcher := {}
    let meal : Filter := .ofText 3 "mahlzeit".toList
    let messages : Filter := { contentType := some "message" }
    m.accepts meal noon = .ok true ∧
      m.accepts meal { noon with notes := [.text "Kantine"] } = .ok true ∧
      (¬Filter.isGiven messages.freeText ∧ messages.terms = []) ∧
      ∀ notes, m.accepts messages { noon with notes } = m.accepts messages noon := by
  intro m meal messages
  have hmeal : m.accepts meal noon = .ok true := rfl
  have hfree : ¬Filter.isGiven messages.freeText := by decide
  obtain ⟨hnoted, -, -⟩ := accepts_of_notes m meal "all"
  obtain ⟨-, -, htextless⟩ := accepts_of_notes m messages "all"
  refine ⟨hmeal, hnoted noon (.text "Kantine") rfl hmeal, ⟨hfree, rfl⟩, fun notes => ?_⟩
  exact (htextless hfree rfl).1 noon notes

end Collection

end Clipboard
