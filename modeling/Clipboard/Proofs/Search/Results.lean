import Clipboard.Collection.Basic
import Clipboard.Proofs.Search.Match
import Clipboard.Proofs.Store.RoundTrip

/-!
When a search of a loaded collection gives a list. A record in a store can hold values that are no
texts, and moments with and without an offset side by side; a model can put an offset on the times
of a range. Where there is none of this, every search gives a list.
-/

namespace Clipboard

open Calendar (DateRange)
open Fallible
open Remote (Transcript)

theorem Calendar.Resolver.Finds.isUsual {r : Calendar.Resolver} {range : DateRange}
    (h : r.Finds range) : range.IsUsual ∧ (r.guesser = none → range.IsPlain) := by
  obtain ⟨_, _, _, _, _, _, _, hfound⟩ := h
  exact isUsual_resolve hfound

namespace Search

/-! ## Lists of snippets -/

theorem passing_succeeds_iff {p : Snippet → Except Fault Bool} {ss : List Snippet} :
    Succeeds (passing p ss) ↔ ∀ s ∈ ss, Succeeds (p s) := by
  induction ss with
  | nil => simp [passing]
  | cons s ss ih =>
      rw [passing, List.forall_mem_cons, ← ih]
      exact succeeds_both_iff

theorem passing_eq_filter {p : Snippet → Except Fault Bool} {ss kept : List Snippet}
    (h : passing p ss = .ok kept) : kept = ss.filter fun s => (p s).toOption.getD false := by
  induction ss generalizing kept with
  | nil =>
      cases h
      rfl
  | cons s ss ih =>
      obtain ⟨keep, hkeep, h⟩ := bind_eq_ok_iff.mp h
      obtain ⟨rest, hrest, h⟩ := bind_eq_ok_iff.mp h
      cases h
      rw [List.filter_cons, hkeep, ih hrest]
      rfl

theorem getD_toOption_iff {x : Except Fault Bool} : x.toOption.getD false ↔ x = .ok true := by
  cases x <;> simp [Except.toOption]

/-- The snippets that pass are those of which the answer is yes. -/
theorem mem_passing_iff {p : Snippet → Except Fault Bool} {ss kept : List Snippet}
    (h : passing p ss = .ok kept) (s : Snippet) : s ∈ kept ↔ s ∈ ss ∧ p s = .ok true := by
  rw [passing_eq_filter h, List.mem_filter, getD_toOption_iff]

theorem sorted_succeeds_iff {newestFirst : Bool} {ss : List Snippet} :
    Succeeds (sorted newestFirst ss) ↔
      (∀ s ∈ ss, s.moment.offset.isSome) ∨ ∀ s ∈ ss, s.moment.offset = none := by
  simp [sorted, comparable]

theorem perm_of_sorted {newestFirst : Bool} {ss kept : List Snippet}
    (h : sorted newestFirst ss = .ok kept) : kept.Perm ss := by
  unfold sorted at h
  split at h
  · cases h
    exact List.mergeSort_perm ss _
  · cases h

end Search

theorem Matcher.mem_results_iff {m : Matcher} {f : Filter} {ss kept : List Snippet}
    {view order : String} (h : m.results f ss view order = .ok kept) (s : Snippet) :
    s ∈ kept ↔ s ∈ ss ∧ m.accepts f s (view == "favorites") = .ok true := by
  unfold results at h
  dsimp only at h
  split at h
  · cases h
  · split at h
    · cases h
    · obtain ⟨passed, hpassed, hsorted⟩ := bind_eq_ok_iff.mp h
      exact (Search.perm_of_sorted hsorted).mem_iff.trans (Search.mem_passing_iff hpassed s)

/-- Where view and order are known, the snippets that pass are sorted by the order in force. -/
theorem Matcher.results_eq (m : Matcher) (f : Filter) (ss : List Snippet) {view order : String}
    (hview : view ∈ Search.views)
    (horder : (f.sortOrder.filter (!·.isEmpty)).getD order ∈ sortOrders) :
    m.results f ss view order = Search.passing (fun s => m.accepts f s (view == "favorites")) ss >>=
      Search.sorted ((f.sortOrder.filter (!·.isEmpty)).getD order == "newest") := by
  simp only [results, List.contains_iff_mem.mpr hview, List.contains_iff_mem.mpr horder]
  rfl

/-- Whether a list comes of a filter. -/
theorem Matcher.results_succeeds_iff (m : Matcher) (ss : List Snippet) {f : Filter}
    {view order : String} (hview : view ∈ Search.views) (horder : order ∈ sortOrders)
    (hf : ∀ name ∈ f.sortOrder, name ∈ sortOrders) :
    let p := fun s => m.accepts f s (view == "favorites")
    Succeeds (m.results f ss view order) ↔ (∀ s ∈ ss, Succeeds (p s)) ∧
      ((∀ s ∈ ss, p s = .ok true → s.moment.offset.isSome) ∨
        ∀ s ∈ ss, p s = .ok true → s.moment.offset = none) := by
  intro p
  have hchosen : (f.sortOrder.filter (!·.isEmpty)).getD order ∈ sortOrders := by
    cases hs : f.sortOrder.filter (!·.isEmpty) with
    | none => exact horder
    | some name => exact hf name (Option.filter_eq_some_iff.mp hs).1
  rw [m.results_eq f ss hview hchosen, ← Search.passing_succeeds_iff, succeeds_bind_iff]
  constructor
  · rintro ⟨kept, hkept, h⟩
    refine ⟨⟨kept, hkept⟩, ?_⟩
    simpa only [Search.sorted_succeeds_iff, Search.mem_passing_iff hkept, and_imp] using h
  · rintro ⟨⟨kept, hkept⟩, h⟩
    refine ⟨kept, hkept, ?_⟩
    simpa only [Search.sorted_succeeds_iff, Search.mem_passing_iff hkept, and_imp] using h

namespace Collection

theorem snippets_of_load {c c' : Collection} {ss : List Snippet} (h : c.load = (.ok ss, c')) :
    c'.snippets = ss := by
  unfold load at h
  split at h <;> cases h
  · exact Held.map_snippet_own ss
  · rfl

/-- Searching a loaded collection with a filter from search input gives a list exactly if all that the
filter asks about the snippets can be told, those apart that are left out for not being favourites,
and either all or none of the snippets that are found have a moment with an offset. So it does if all
fields of the records are texts that should be, no moment has an offset, the days do not come from a
model or have times without an offset, and the share of words to find is one. -/
theorem search_succeeds_iff {c c' : Collection} {ss : List Snippet} (hload : c.load = (.ok ss, c'))
    {k : Compiler} {turns : List Compiler.Turn} {t : Transcript} {fs : List Filter}
    (hrun : ((k.run none turns).run t).1 = .ok fs) {f : Filter} (hf : f ∈ fs) {view order : String}
    (hview : view ∈ Search.views) (horder : order ∈ sortOrders) (classifier : Classifier)
    (ratio : Float) :
    let m : Matcher := ⟨classifier.languageOf?, ratio⟩
    let isFound (s : Snippet) := m.accepts f s (view == "favorites") = .ok true
    let result := c'.search classifier ratio f view order
    (Succeeds result ↔
      (∀ s ∈ ss, (view = "favorites" ∨ f.favoritesOnly → s.isFavorite) → m.CanTell f s) ∧
        ((∀ s ∈ ss, isFound s → s.moment.offset.isSome) ∨
          ∀ s ∈ ss, isFound s → s.moment.offset = none)) ∧
      ((∀ s ∈ ss, s.IsTextual ∧ s.moment.offset = none) →
        (k.dates.guesser = none ∨ ∀ range ∈ f.dateRange, range.IsPlain) →
        (f.terms = [] ∨ Decimal.isShare ratio ∧ f.terms.length < 2 ^ 1023) → Succeeds result) := by
  intro m isFound result
  have hcoherent : f.Coherent :=
    Compiler.forall_of_run_none (fun _ _ hprevious h => h.coherent hprevious) hrun f hf
  have hgrounds : k.Grounds f :=
    Compiler.forall_of_run_none (fun _ _ hprevious h => h.grounds hprevious) hrun f hf
  have hrange : ∀ range ∈ f.dateRange,
      range.IsUsual ∧ (k.dates.guesser = none → range.IsPlain) :=
    fun range h => (hgrounds.range range h).isUsual
  have hiff : Succeeds result ↔
      (∀ s ∈ ss, (view = "favorites" ∨ f.favoritesOnly → s.isFavorite) → m.CanTell f s) ∧
        ((∀ s ∈ ss, isFound s → s.moment.offset.isSome) ∨
          ∀ s ∈ ss, isFound s → s.moment.offset = none) := by
    have hresults := m.results_succeeds_iff ss hview horder hgrounds.order
    simp only [Matcher.accepts_succeeds_iff hcoherent fun range h => (hrange range h).1,
      beq_iff_eq] at hresults
    rw [← hresults]
    simp only [result, search, snippets_of_load hload, m]
  refine ⟨hiff, fun hplain hdates hshare => hiff.mpr ⟨fun s hs _ => ?_, .inr fun s hs _ => ?_⟩⟩
  · obtain ⟨htextual, hmoment⟩ := hplain s hs
    refine Matcher.canTell_of_isTextual htextual hmoment (fun range h => ?_) ?_
    · rcases hdates with hnone | hdates
      · exact (hrange range h).2 hnone
      · exact hdates range h
    · rcases hshare with hnil | ⟨hshare, hfew⟩
      · exact .inl hnil
      · exact .inr (Matcher.needed_succeeds hshare hfew)
  · exact (hplain s hs).2

/-- A message whose moment has no offset. -/
def noon : Snippet where
  id := .text "2"
  content := .text "Mahlzeit"
  source := .text "Mail"
  moment := ⟨Store.mayDay, Calendar.DayPart.noon.start⟩
  tags := [.text "message"]
  variant := .message (.text "Ada")
  tags_ne_nil := by decide

theorem isTextual_noon : noon.IsTextual where
  id := rfl
  content := rfl
  source := rfl
  app := by simp [noon]
  tags := by simp [noon, Json.isText]
  notes := by simp [noon]
  own := by simp [noon, Json.isText, Variant.field?]

/-- A collection that is to be loaded. -/
def stored (ss : List Snippet) : Collection where
  store := ({} : Store).holding ss Store.snippetsKey

theorem load_stored (ss : List Snippet) (ht : ∀ s ∈ ss, s.IsTextual) (hs : Store.canBeStored ss) :
    (stored ss).load = (.ok (ss.map (·.restored)), (stored ss).load.2) := by
  rw [load, stored, Store.load_holding Store.snippetsKey rfl ht hs]

/-- A moment without an offset is found alone, but not beside one with an offset. -/
theorem search_succeeds_iff_noon :
    let greeting := Store.greeting ⟨0, by decide⟩
    let search (ss : List Snippet) := (stored ss).load.2.search {} 0.5 {} "all" "newest"
    Succeeds (search [noon]) ∧ ¬Succeeds (search [noon, greeting]) := by
  intro greeting search
  have hgreeting : greeting.IsTextual := Store.isTextual_greeting _
  have halone := load_stored [noon] (by simpa using isTextual_noon) (by decide)
  have hboth := load_stored [noon, greeting] (by simpa using ⟨isTextual_noon, hgreeting⟩)
    (by decide)
  have hrun : ((({} : Compiler).run none
      [⟨"", false, noon.moment, ⟨fun _ _ => .nothing, fun _ _ => .ok none, fun _ _ => .ok none⟩⟩]).run {}).1 =
        .ok [{}] := rfl
  have hall : "all" ∈ Search.views := by decide
  have hnewest : "newest" ∈ sortOrders := by decide
  obtain ⟨-, hplain⟩ :=
    search_succeeds_iff halone hrun (List.mem_singleton_self _) hall hnewest {} 0.5
  obtain ⟨hmixed, -⟩ :=
    search_succeeds_iff hboth hrun (List.mem_singleton_self _) hall hnewest {} 0.5
  refine ⟨hplain ?_ (.inl rfl) (.inl rfl), fun h => ?_⟩
  · exact List.forall_mem_singleton.mpr ⟨isTextual_noon, rfl⟩
  · rcases (hmixed.mp h).2 with hsome | hnone
    · exact absurd (hsome noon.restored (by simp) rfl) (by decide)
    · exact absurd (hnone greeting.restored (by simp) rfl) (by decide)

end Collection

end Clipboard
