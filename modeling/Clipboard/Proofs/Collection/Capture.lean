import Clipboard.Proofs.Classify.Coherence
import Clipboard.Proofs.Collection.Distinct
import Clipboard.Proofs.Shape.Host

/-!
What a capture comes to. Blank text and text that is there already change nothing; any other text
becomes the last snippet. The one thing in the way is a link whose address is misleading: such a text
is refused with a fault, and the collection stays as it is.
-/

namespace Clipboard

/-! ## The classification of a text that is not blank -/

namespace Classifier

section

variable (c : Classifier) (o : Remote.Outside) (text : String) (app : Option String)
  (t : Remote.Transcript)

theorem tags_classify (h : ¬Text.isBlank text.toList) :
    ∃ r asked, c.classify o text app t = (some r, asked) ∧ r.tags ≠ [] := by
  have hs := c.coherent_upgradeMessage text.toList app (c.coherent_byStages o text.toList app t)
  obtain ⟨-, hlength, -⟩ := Tags.withFloor_spec
    (c.upgradeMessage text.toList app (c.byStages o text.toList app t).1).kind hs.tidy hs.length_le
  exact ⟨_, _, c.classify_eq o text app t h, List.ne_nil_of_length_eq_add_one hlength⟩

/-- A whole text that is an address, and no colour, is a link. -/
theorem kind_classify_of_isLink (h : ¬Text.isBlank text.toList)
    (hcolor : Color.ofText? text.toList = none) (hlink : Link.isLink text.toList) :
    ∃ r, (c.classify o text app t).1 = some r ∧ r.kind = .link := by
  have hstages : (c.byStages o text.toList app t).1 =
      { kind := .link, tags := ["link", "url"], reason := .link } := by
    simp only [byStages, hcolor, hlink, if_true]
    rfl
  refine ⟨_, by rw [c.classify_eq o text app t h], ?_⟩
  simp [hstages, upgradeMessage]

end

end Classifier

namespace Collection

open Store (canBeStored)

/-! ## The snippet of a captured text -/

section

variable {e : CaptureEvent} {r : Classification}

/-- Links alone can be without what is their own: the title. -/
theorem variantOf_cases (e : CaptureEvent) (r : Classification) :
    (∃ f, r.kind = .link ∧ Link.title e.text.toList = .error f ∧
      variantOf e r = .error (.host f)) ∨
    (∃ v, variantOf e r = .ok v) ∧ ¬(r.kind = .link ∧ ∃ f, Link.title e.text.toList = .error f) := by
  unfold variantOf
  cases hk : r.kind with
  | link =>
      cases ht : Link.title e.text.toList with
      | ok t => exact .inr ⟨⟨_, rfl⟩, by simp⟩
      | error f => exact .inl ⟨f, rfl, rfl, rfl⟩
  | _ => exact .inr ⟨⟨_, rfl⟩, by simp⟩

theorem snippetFor_cases (htags : r.tags ≠ []) (id : String) (now : Calendar.Moment) :
    (∃ f, r.kind = .link ∧ Link.title e.text.toList = .error f ∧
      snippetFor e r id now = .error (.host f)) ∨
    (∃ s, snippetFor e r id now = .ok s) ∧
      ¬(r.kind = .link ∧ ∃ f, Link.title e.text.toList = .error f) := by
  have htexts : r.tags.map Json.text ≠ [] := by simpa using htags
  rcases variantOf_cases e r with ⟨f, hk, ht, hv⟩ | ⟨⟨v, hv⟩, hlink⟩
  · exact .inl ⟨f, hk, ht, by rw [snippetFor, hv]; rfl⟩
  · exact .inr ⟨⟨_, by rw [snippetFor, hv]; exact dif_pos htexts⟩, hlink⟩

end

/-! ## Captures -/

/-- Snippets of texts, all of which can be stored. -/
structure WellFormed (ss : List Snippet) : Prop where
  textual : ∀ x ∈ ss, x.IsTextual
  storable : canBeStored ss

theorem WellFormed.append {ss : List Snippet} {x : Snippet} (h : WellFormed ss) (hx : x.IsTextual)
    (hw : x.toRecord.isWhole) : WellFormed (ss ++ [x]) where
  textual := List.forall_mem_append.mpr ⟨h.textual, List.forall_mem_singleton.mpr hx⟩
  storable := by simpa [canBeStored, hw] using h.storable

/-- The text is classified as a link whose address is misleading. -/
def IsMisleading (w : Surroundings) (s : State) (e : CaptureEvent) : Prop :=
  ∃ r f, (w.classifier.classify w.outside e.text e.app s.asked).1 = some r ∧ r.kind = .link ∧
    Link.title e.text.toList = .error f

theorem not_isMisleading_of_harmless (w : Surroundings) (s : State) {e : CaptureEvent}
    (h : ∀ c ∈ e.text.toList, Link.isHarmless c) : ¬IsMisleading w s e := by
  rintro ⟨r, f, -, -, hf⟩
  obtain ⟨t, ht⟩ := Link.title_of_harmless h
  rw [ht] at hf
  cases hf

theorem capture_known (w : Surroundings) {m : Memory} {e : CaptureEvent}
    (h : Text.isBlank e.text.toList ∨ m.holds (.text e.text)) (now : Calendar.Moment) :
    m.capture w e now = .done (.ok (.captured none)) m := by
  rw [Memory.capture, if_pos ((Bool.or_eq_true _ _).mpr h)]

/-- A text that is not known is refused if it is misleading, and saved as the last snippet if not. -/
theorem capture_unknown (w : Surroundings) (s : State) {e : CaptureEvent}
    (hnew : ¬(Text.isBlank e.text.toList ∨ s.memory.holds (.text e.text))) (now : Calendar.Moment) :
    (IsMisleading w s e ∧ ∃ f asked, s.memory.capture w e now =
      .done (.error (.host f)) { s.memory with asked }) ∨
    (¬IsMisleading w s e ∧ ∃ x asked, x.IsTextual ∧ x.toRecord.isWhole ∧ x.content = .text e.text ∧
      s.memory.capture w e now = .save (.captured (some x))
        ⟨s.collection.held ++ [.own x], s.collection.drawn + 1, asked⟩) := by
  obtain ⟨hblank, hholds⟩ := not_or.mp hnew
  obtain ⟨r, asked, hclassify, htags⟩ :=
    w.classifier.tags_classify w.outside e.text e.app s.asked hblank
  have hcapture : s.memory.capture w e now = Memory.keep { s.memory with asked } w e r now := by
    have hasked : s.memory.asked = s.asked := rfl
    simp only [Memory.capture, hblank, hholds, hasked, hclassify, Bool.or_self, Bool.false_eq_true,
      if_false]
  have hmisleading : IsMisleading w s e ↔
      r.kind = .link ∧ ∃ f, Link.title e.text.toList = .error f := by
    simp [IsMisleading, hclassify]
  rw [hcapture, hmisleading, Memory.keep]
  rcases snippetFor_cases (e := e) htags (w.newId s.collection.drawn) now with
    ⟨f, hlink, htitle, hf⟩ | ⟨⟨x, hx⟩, hlink⟩
  · have hf : snippetFor e r (w.newId s.memory.drawn) now = .error (.host f) := hf
    exact .inl ⟨⟨hlink, f, htitle⟩, f, asked, by simp only [hf]⟩
  · obtain ⟨htextual, hwhole, hcontent⟩ := snippetFor_spec hx
    have hx : snippetFor e r (w.newId s.memory.drawn) now = .ok x := hx
    exact .inr ⟨hlink, x, asked, htextual, hwhole, hcontent, by simp only [hx]; rfl⟩

/-- A capture of blank text, or of text that is there already, changes nothing. Any other text is
appended as a snippet, whether the store works or not, unless it is a link with a misleading address;
then there is a fault, and the collection stays as it is. -/
theorem capture_outcome (w : Surroundings) (s : State) (h : WellFormed s.collection.snippets)
    (e : CaptureEvent) (now : Calendar.Moment) :
    let isKnown := Text.isBlank e.text.toList ∨ .text e.text ∈ contents s.collection.snippets
    let r := (Change.capture e now).run w s
    (isKnown → r = (.ok (.captured none), s)) ∧
      (¬isKnown → ¬IsMisleading w s e → ∃ x, r.1 = .ok (.captured (some x)) ∧
        x.content = .text e.text ∧ WellFormed r.2.collection.snippets ∧
        r.2.collection.snippets = s.collection.snippets ++ [x] ∧
        r.2.collection.store.entries = entriesAfter s.collection.store.entries
          [.under s.collection.store.failures r.2.collection.snippets]) ∧
      (¬isKnown → IsMisleading w s e →
        (∃ f, r.1 = .error (.host f)) ∧ r.2.collection = s.collection) ∧
      ((∀ c ∈ e.text.toList, Link.isHarmless c) → ¬IsMisleading w s e) := by
  intro isKnown r
  have hr : r = (s.memory.capture w e now).settle s := Change.run_eq w s _
  have hiff : isKnown ↔ Text.isBlank e.text.toList ∨ s.memory.holds (.text e.text) :=
    or_congr_right (Memory.holds_iff (m := s.memory) h.textual e.text).symm
  refine ⟨fun hknown => ?_, fun hnew hfine => ?_, fun hnew hbad => ?_,
    not_isMisleading_of_harmless w s⟩
  · rw [hr, capture_known w (hiff.mp hknown)]
    rfl
  · rcases capture_unknown w s (mt hiff.mpr hnew) now with
      ⟨hbad, -⟩ | ⟨-, x, asked, ht, hw, hx, hcapture⟩
    · exact absurd hbad hfine
    · have happend := h.append ht hw
      have hwhole : (Attempt.under s.collection.store.failures
          (s.collection.snippets ++ [x])).isTorn = false := by
        simp [Attempt.isTorn, Attempt.under, happend.storable]
      have hafter : r.2.collection.snippets = s.collection.snippets ++ [x] := by
        rw [hr, hcapture, Effect.settle_eq]
        exact List.map_append
      refine ⟨x, ?_, hx, hafter ▸ happend, hafter, ?_⟩
      · have hsnippets (n : Nat) : Memory.snippets ⟨s.collection.held ++ [.own x], n, asked⟩ =
            s.collection.snippets ++ [x] := List.map_append
        rw [hr, hcapture, Effect.settle_eq]
        simp only [Effect.result, hsnippets, hwhole, Bool.false_eq_true, if_false]
      · rw [hr, hcapture, Effect.settle_eq]
        rfl
  · rcases capture_unknown w s (mt hiff.mpr hnew) now with ⟨-, f, asked, hcapture⟩ | ⟨hfine, -⟩
    · rw [hr, hcapture]
      exact ⟨⟨f, rfl⟩, rfl⟩
    · exact absurd hbad hfine

/-- Plain words are appended to a greeting. An open bracket where the host should be is refused. -/
theorem capture_outcome_greeting :
    let g := Store.greeting ⟨0, by decide⟩
    let s : State := ⟨{ held := [.own g] }, {}⟩
    let r (text : String) := (Change.capture { text } g.moment).run silent s
    (∃ x, (r "plain words").1 = .ok (.captured (some x)) ∧
      (r "plain words").2.collection.snippets = [g, x]) ∧
    ∃ f, (r "http://[").1 = .error (.host f) := by
  intro g s r
  have hs : WellFormed [g] :=
    ⟨List.forall_mem_singleton.mpr (Store.isTextual_greeting _), by decide⟩
  have hnew : ∀ text : String, ¬Text.isBlank text.toList → text ≠ "Guten Tag, \"Ålesund\"\n" →
      ¬(Text.isBlank text.toList ∨ .text text ∈ contents [g]) := by
    rintro text hblank hne (h | h)
    · exact hblank h
    · exact hne (Json.text.inj (List.mem_singleton.mp h))
  have hbad : IsMisleading silent s { text := "http://[" } := by
    obtain ⟨r, hr, hk⟩ := silent.classifier.kind_classify_of_isLink silent.outside "http://[" none
      s.asked (by decide) (by decide +kernel) (by decide +kernel)
    exact ⟨r, .brackets, hr, hk, by decide +kernel⟩
  obtain ⟨-, hplain, -, hfine⟩ := capture_outcome silent s hs { text := "plain words" } g.moment
  obtain ⟨-, -, hbracket, -⟩ := capture_outcome silent s hs { text := "http://[" } g.moment
  have hharmless : ∀ c ∈ "plain words".toList, Link.isHarmless c :=
    List.all_eq_true.mp (by decide)
  constructor
  · obtain ⟨x, hx, -, -, happend, -⟩ := hplain (hnew _ (by decide) (by decide)) (hfine hharmless)
    exact ⟨x, hx, happend⟩
  · exact (hbracket (hnew _ (by decide) (by decide)) hbad).1

end Collection

end Clipboard
