import Clipboard.Proofs.Calendar.DateRange
import Clipboard.Proofs.Decimal.Ceiling
import Clipboard.Proofs.Search.Coherence
import Clipboard.Proofs.Snippet.Record
import Clipboard.Search.Match

/-!
When it can be told whether a snippet passes a filter. A filter from search input asks for one thing
only, and what it asks for can fail for want of a text in the snippet, or of a moment that can be
compared.
-/

namespace Clipboard

open Fallible
open Text (hasPart lower)

namespace Json

theorem chars?_isSome (v : Json) : v.chars?.isSome = v.isText := by cases v <;> rfl

theorem runs?_isSome (v : Json) : v.runs?.isSome = v.isText := by cases v <;> rfl

/-- The runs of characters of a text; none of another value. -/
def runs (v : Json) : List (List Char) := v.runs?.getD []

end Json

namespace Matcher

open Calendar (DateRange)
open Search (Fault)

/-! ## Single conditions -/

theorem textOf_succeeds_iff (fault : Fault) {v : Json} : Succeeds (textOf fault v) ↔ v.isText := by
  rw [← v.chars?_isSome, textOf]
  cases v.chars? <;> simp

/-- Whether one has to look at the content of a snippet of a kind to tell its type. -/
def looksAtContent (k : Kind) (wanted : String) : Bool :=
  if wanted == "code" then k != .code
  else if wanted == "link" || wanted == "url" then k != .link
  else if wanted == "text" then false
  else wanted == "color" && k != .color

theorem hasType_succeeds_iff {s : Snippet} {wanted : String} :
    Succeeds (hasType s wanted) ↔ (looksAtContent s.kind wanted → s.content.isText) := by
  have hlooks : ∀ (k : Kind) (fault : Fault) (p : List Char → Bool),
      Succeeds (if s.kind = k then .ok true else (textOf fault s.content).map p) ↔
        ((s.kind != k) = true → s.content.isText) := by
    intro k fault p
    by_cases hkind : s.kind = k
    · simp [hkind]
    · simp [hkind, succeeds_map_iff, textOf_succeeds_iff]
  unfold hasType looksAtContent
  dsimp only
  split
  · exact hlooks _ _ _
  · split
    · exact hlooks _ _ _
    · split
      · simp
      · split
        · rename_i hcolor
          simpa [hcolor] using hlooks .color .notText fun cs => (Color.ofText? cs).isSome
        · rename_i hcolor
          simp [hcolor]

theorem hasLanguage_succeeds_iff {m : Matcher} {s : Snippet} {wanted : String} :
    Succeeds (m.hasLanguage s wanted) ↔ s.content.isText := by
  rw [← textOf_succeeds_iff .notSearchable]
  exact succeeds_bind_of_forall fun _ => succeeds_pure _

theorem lowered_succeeds_iff {v : Json} : Succeeds (lowered v) ↔ v.isText := by
  rw [← v.runs?_isSome, lowered]
  cases v.runs? <;> simp

theorem lowered_eq_ok_iff {v : Json} {texts : List (List Char)} :
    lowered v = .ok texts ↔ v.isText ∧ texts = v.runs.map lower := by
  rw [← v.runs?_isSome, lowered, Json.runs]
  cases v.runs? <;> simp [eq_comm]

/-- Whether a text contains another one, letters in lower case. -/
def Shows (v : Json) (wanted : String) : Prop := holds (v.runs.map lower) (Text.lowerString wanted)

theorem isFrom_succeeds_iff {s : Snippet} {wanted : String} :
    Succeeds (isFrom s wanted) ↔ (∀ app ∈ s.app, app.name.isText) ∧
      ((∃ app ∈ s.app, Shows app.name wanted) ∨ s.source.isText) := by
  have hsource : Succeeds (do
      return holds (← lowered s.source) (Text.lowerString wanted)) ↔ s.source.isText := by
    rw [← lowered_succeeds_iff]
    exact succeeds_bind_of_forall fun _ => succeeds_pure _
  unfold isFrom
  cases happ : s.app with
  | none => simpa using hsource
  | some app =>
      simp only [Option.mem_some_iff, forall_eq', exists_eq_left']
      rw [← lowered_succeeds_iff, Shows]
      cases hname : lowered app.name with
      | error e => simp [bind, Except.bind]
      | ok texts =>
          rw [← (lowered_eq_ok_iff.mp hname).2]
          by_cases hshown : holds texts (Text.lowerString wanted)
          · simp [hshown, bind, Except.bind, pure, Except.pure]
          · simpa [hshown, bind, Except.bind, pure, Except.pure] using hsource

/-- What is searched for a text. -/
def textsOf (s : Snippet) : List Json :=
  (s.content :: s.notes ++ s.source :: s.tags).filter (·.isPresent)

theorem haystack_succeeds_iff {s : Snippet} :
    Succeeds (haystack s) ↔ ∀ v ∈ textsOf s, v.isText := by
  refine (succeeds_bind_of_forall fun _ => succeeds_pure _).trans ?_
  exact succeeds_mapM_iff.trans (forall₂_congr fun v _ => lowered_succeeds_iff)

theorem needed_succeeds {ratio : Float} {n : Nat} (h : Decimal.isShare ratio) (hn : n < 2 ^ 1023) :
    Succeeds (needed ratio n) := by
  obtain ⟨k, hk⟩ := Decimal.ceilingOfProduct_of_isShare h hn
  exact ⟨k, by rw [needed, hk]⟩

/-- The text of the filter is found as it is. -/
def HasPhrase (s : Snippet) (f : Filter) : Prop :=
  ∃ texts, haystack s = .ok texts ∧ ∃ phrase ∈ f.freeText, phrase ≠ "" ∧ holds texts phrase

theorem hasText_succeeds_iff {m : Matcher} {s : Snippet} {f : Filter} :
    Succeeds (m.hasText s f) ↔ (∀ v ∈ textsOf s, v.isText) ∧
      (HasPhrase s f ∨ f.terms = [] ∨ Succeeds (needed m.minMatchRatio f.terms.length)) := by
  rw [← haystack_succeeds_iff, hasText, HasPhrase]
  cases haystack s with
  | error e => simp [bind, Except.bind]
  | ok texts =>
      have hphrase : (f.freeText.any fun t => !t.isEmpty && holds texts t) = true ↔
          ∃ phrase ∈ f.freeText, phrase ≠ "" ∧ holds texts phrase := by
        simp [Option.any_eq_true]
      simp only [succeeds_ok_bind, succeeds_ok, true_and, Except.ok.injEq, exists_eq_left', hphrase]
      split
      · rename_i hfound
        exact iff_of_true (succeeds_pure _) (.inl hfound)
      · rename_i hmissing
        rw [or_iff_right hmissing]
        split
        · rename_i hempty
          exact iff_of_true (succeeds_pure _) (.inl (List.isEmpty_iff.mp hempty))
        · rename_i hterms
          rw [or_iff_right fun hnil => hterms (List.isEmpty_iff.mpr hnil)]
          exact succeeds_bind_of_forall fun _ => succeeds_pure _

theorem hasDate_succeeds_iff {s : Snippet} {f : Filter} (h : ∀ range ∈ f.dateRange, range.IsUsual) :
    Succeeds (hasDate s f) ↔ ∀ range ∈ f.dateRange, range.CanTell s.moment := by
  unfold hasDate
  cases hrange : f.dateRange with
  | none => simp
  | some range =>
      rw [succeeds_mapError_iff, DateRange.contains_succeeds_iff (h range hrange) s.moment]
      simp

/-! ## Filters -/

/-- All that a filter asks about a snippet can be told. -/
structure CanTell (m : Matcher) (f : Filter) (s : Snippet) : Prop where
  app : ∀ wanted ∈ f.sourceApp, wanted ≠ "" → (∀ app ∈ s.app, app.name.isText) ∧
    ((∃ app ∈ s.app, Shows app.name wanted) ∨ s.source.isText)
  type : ∀ wanted ∈ f.contentType, looksAtContent s.kind wanted → s.content.isText
  language : ∀ wanted ∈ f.language, wanted ≠ "" → s.content.isText
  date : ∀ range ∈ f.dateRange, range.CanTell s.moment
  text : Filter.isGiven f.freeText ∨ f.terms ≠ [] → (∀ v ∈ textsOf s, v.isText) ∧
    (HasPhrase s f ∨ f.terms = [] ∨ Succeeds (needed m.minMatchRatio f.terms.length))

theorem given_succeeds_iff {o : Option String} {p : String → Except Fault Bool} :
    Succeeds (given o p) ↔ ∀ t ∈ o, t ≠ "" → Succeeds (p t) := by
  unfold given
  cases o with
  | none => simp
  | some t => by_cases h : t = "" <;> simp [h]

/-- A condition that goes before others takes nothing away if it says no only where the others could
be told. -/
theorem succeeds_guard_iff {x rest : Except Fault Bool} (h : x = .ok false → Succeeds rest) :
    Succeeds (do
      if !(← x) then return false
      rest) ↔ Succeeds x ∧ Succeeds rest := by
  rcases x with e | ⟨_ | _⟩
  · simp [bind, Except.bind]
  · simpa [bind, Except.bind, pure, Except.pure] using h rfl
  · simp [bind, Except.bind]

/-- What is asked about the text, which comes last. -/
def askText (m : Matcher) (f : Filter) (s : Snippet) : Except Fault Bool :=
  if Filter.isGiven f.freeText || !f.terms.isEmpty then m.hasText s f else return true

/-- What is asked from the date on. -/
def askDate (m : Matcher) (f : Filter) (s : Snippet) : Except Fault Bool := do
  if !(← hasDate s f) then return false
  m.askText f s

/-- What is asked from the language on. -/
def askLanguage (m : Matcher) (f : Filter) (s : Snippet) : Except Fault Bool := do
  if !(← given f.language (m.hasLanguage s)) then return false
  m.askDate f s

/-- What is asked from the type on. -/
def askType (m : Matcher) (f : Filter) (s : Snippet) : Except Fault Bool := do
  if !(← given f.contentType (hasType s)) then return false
  m.askLanguage f s

/-- What is asked about a snippet that is not left out. -/
def askApp (m : Matcher) (f : Filter) (s : Snippet) : Except Fault Bool := do
  if !(← given f.sourceApp (isFrom s)) then return false
  m.askType f s

theorem accepts_eq (m : Matcher) (f : Filter) (s : Snippet) (favoritesOnly : Bool) :
    m.accepts f s favoritesOnly =
      if (favoritesOnly || f.favoritesOnly) && !s.isFavorite then .ok false else m.askApp f s := rfl

theorem askText_succeeds_iff {m : Matcher} {f : Filter} {s : Snippet} :
    Succeeds (m.askText f s) ↔ (Filter.isGiven f.freeText ∨ f.terms ≠ [] →
      (∀ v ∈ textsOf s, v.isText) ∧
        (HasPhrase s f ∨ f.terms = [] ∨ Succeeds (needed m.minMatchRatio f.terms.length))) := by
  rw [← hasText_succeeds_iff, askText]
  have hgiven : (Filter.isGiven f.freeText || !f.terms.isEmpty) = true ↔
      Filter.isGiven f.freeText ∨ f.terms ≠ [] := by simp
  rw [← hgiven]
  split
  · rename_i h
    rw [imp_iff_right h]
  · rename_i h
    exact iff_of_true (succeeds_pure _) fun hg => absurd hg h

section

variable {m : Matcher} {s : Snippet} {f : Filter} (hf : f.Coherent)
include hf

theorem askText_succeeds (hnone : f.freeText = none) : Succeeds (m.askText f s) := by
  simp [askText, Filter.isGiven, hnone, hf.terms_of_text hnone]

theorem askDate_succeeds_iff :
    Succeeds (m.askDate f s) ↔ Succeeds (hasDate s f) ∧ Succeeds (m.askText f s) := by
  refine succeeds_guard_iff fun hno => askText_succeeds hf (hf.textless (.inr ?_))
  -- Only a filter that asks for a date is not met by a date.
  by_contra hcommand
  obtain ⟨hrange, htext⟩ := hf.undated hcommand
  simp [hasDate, hrange, htext] at hno

theorem askDate_succeeds (hcommand : f.command = some "app" ∨ f.contentType.isSome) :
    Succeeds (m.askDate f s) := by
  have hother : f.command ≠ some "date" ∧ f.freeText = none := by
    rcases hcommand with happ | htype
    · exact ⟨by simp [happ], hf.textless (.inl happ)⟩
    · exact ⟨by simp [hf.type (.inl htype)], hf.text_of_type htype⟩
  obtain ⟨hrange, htext⟩ := hf.undated hother.1
  refine (askDate_succeeds_iff hf).mpr ⟨?_, askText_succeeds hf hother.2⟩
  simp [hasDate, hrange, htext]

theorem askLanguage_succeeds_iff : Succeeds (m.askLanguage f s) ↔
    Succeeds (given f.language (m.hasLanguage s)) ∧ Succeeds (m.askDate f s) := by
  refine succeeds_guard_iff fun hno => askDate_succeeds hf (.inr ?_)
  cases hlanguage : f.language with
  | none => simp [given, hlanguage] at hno
  | some l => simp [hf.code_of_language (Option.isSome_of_mem hlanguage)]

theorem askType_succeeds_iff : Succeeds (m.askType f s) ↔
    Succeeds (given f.contentType (hasType s)) ∧ Succeeds (m.askLanguage f s) := by
  refine succeeds_guard_iff fun hno => ?_
  have htype : f.contentType.isSome := by
    by_contra hnone
    simp [given, Option.not_isSome_iff_eq_none.mp hnone] at hno
  refine (askLanguage_succeeds_iff hf).mpr ⟨?_, askDate_succeeds hf (.inr htype)⟩
  rw [given_succeeds_iff]
  intro l hl _
  -- A snippet that is found not to be code has a content that was read.
  have hcode : hasType s "code" = .ok false := by
    simpa [given, hf.code_of_language (Option.isSome_of_mem hl)] using hno
  have hkind : looksAtContent s.kind "code" := by
    by_contra hkind
    have hkind : s.kind = .code := by simpa [looksAtContent] using hkind
    simp [hasType, hkind] at hcode
  exact hasLanguage_succeeds_iff.mpr (hasType_succeeds_iff.mp ⟨_, hcode⟩ hkind)

theorem askApp_succeeds_iff : Succeeds (m.askApp f s) ↔
    Succeeds (given f.sourceApp (isFrom s)) ∧ Succeeds (m.askType f s) := by
  refine succeeds_guard_iff fun hno => ?_
  have happ : f.command = some "app" := by
    refine hf.app ?_
    by_contra hnone
    simp [given, Option.not_isSome_iff_eq_none.mp hnone] at hno
  obtain ⟨htype, hlanguage⟩ := hf.untyped (by simp [happ])
  refine (askType_succeeds_iff hf).mpr ⟨by simp [given, htype], ?_⟩
  refine (askLanguage_succeeds_iff hf).mpr ⟨by simp [given, hlanguage], ?_⟩
  exact askDate_succeeds hf (.inl happ)

end

/-- It can be told whether a snippet passes a filter from search input exactly if the snippet is none
of those that are left out for not being a favourite, or all that the filter asks can be told. -/
theorem accepts_succeeds_iff {m : Matcher} {s : Snippet} {f : Filter} (hf : f.Coherent)
    (hrange : ∀ range ∈ f.dateRange, range.IsUsual) (favoritesOnly : Bool) :
    Succeeds (m.accepts f s favoritesOnly) ↔
      ((favoritesOnly ∨ f.favoritesOnly) → s.isFavorite) → m.CanTell f s := by
  rw [accepts_eq]
  split
  · rename_i hhidden
    refine iff_of_true (succeeds_ok _) fun hshown => ?_
    simp only [Bool.and_eq_true, Bool.or_eq_true, Bool.not_eq_true'] at hhidden
    simp [hshown hhidden.1] at hhidden
  · rename_i hshown
    have hshown : favoritesOnly ∨ f.favoritesOnly → s.isFavorite := by
      simpa [Bool.or_eq_true] using hshown
    rw [imp_iff_right hshown, askApp_succeeds_iff hf, askType_succeeds_iff hf,
      askLanguage_succeeds_iff hf, askDate_succeeds_iff hf, hasDate_succeeds_iff hrange,
      askText_succeeds_iff]
    simp only [given_succeeds_iff, isFrom_succeeds_iff, hasType_succeeds_iff,
      hasLanguage_succeeds_iff]
    constructor
    · rintro ⟨happ, htype, hlanguage, hdate, htext⟩
      refine ⟨happ, fun wanted hw hlooks => htype wanted hw ?_ hlooks, hlanguage, hdate, htext⟩
      rintro rfl
      simp [looksAtContent] at hlooks
    · intro h
      exact ⟨h.app, fun wanted hw _ => h.type wanted hw, h.language, h.date, h.text⟩

/-- Where there are texts and moments without an offset, all can be told. -/
theorem canTell_of_isTextual {m : Matcher} {s : Snippet} {f : Filter} (hs : s.IsTextual)
    (hmoment : s.moment.offset = none) (hrange : ∀ range ∈ f.dateRange, range.IsPlain)
    (hterms : f.terms = [] ∨ Succeeds (needed m.minMatchRatio f.terms.length)) :
    m.CanTell f s where
  app _ _ _ := ⟨hs.app, .inr hs.source⟩
  type _ _ _ := hs.content
  language _ _ _ := hs.content
  date range h := (hrange range h).canTell hmoment
  text _ := by
    refine ⟨fun v hv => ?_, .inr hterms⟩
    have hv := (List.mem_filter.mp hv).1
    simp only [List.cons_append, List.mem_cons, List.mem_append] at hv
    rcases hv with rfl | hv | rfl | hv
    · exact hs.content
    · exact hs.notes v hv
    · exact hs.source
    · exact hs.tags v hv

end Matcher

end Clipboard
