import Clipboard.Proofs.Search.Notes
import Clipboard.Proofs.Search.Order

/-!
Filters that ask for nothing. They find every snippet, in whatever order, unless they have words
without a text: the words are still looked for, though the filter says that it asks for nothing.
Search input makes no such filter.
-/

namespace Clipboard

open Calendar (ResolveFault)
open Fallible
open Remote (Transcript)

namespace Filter

theorem isIdentity_iff (f : Filter) : f.isIdentity ↔ f.contentType = none ∧ f.language = none ∧
    ¬isGiven f.sourceApp ∧ f.dateRange = none ∧ ¬isGiven f.dateText ∧ ¬f.favoritesOnly ∧
      ¬isGiven f.freeText := by
  simp [isIdentity, and_assoc]

/-- There are no words without a text. -/
def IsWorded (f : Filter) : Prop := ¬isGiven f.freeText → f.terms = []

theorem isWorded_ofText (minTermLength : Int) (cs : List Char) (command : Option String) :
    (ofText minTermLength cs command).IsWorded := by
  intro hfree
  have hnil : cs = [] := by
    by_contra hne
    simp [ofText, isGiven, Text.lower_ne_nil hne] at hfree
  subst hnil
  rfl

end Filter

/-! ## Input -/

namespace Compiler

theorem Makes.isWorded {c : Compiler} {previous : Option Filter} {f : Filter}
    (hprevious : ∀ p ∈ previous, p.IsWorded) (h : c.Makes previous f) : f.IsWorded := by
  have hempty : ∀ command, Filter.IsWorded { command } := fun _ _ => rfl
  have hbase : ∀ command, (baseFor command previous).IsWorded :=
    fun command => baseFor_of hprevious (hempty _)
  cases h with
  | nothing | smart => exact hempty _
  | text cs command h => exact Filter.isWorded_ofText c.minTermLength cs command
  | order name h =>
      cases previous with
      | none => exact hempty none
      | some p => exact hprevious p rfl
  | noDate | unknownDate text label | foundDate range label h => exact hbase .date
  | noType => exact hbase .type
  | type kind language => exact fun _ => rfl
  | app name => exact hbase .app
  | favorite cs =>
      unfold favoriteFilter
      split
      · exact hbase .fav
      · exact Filter.isWorded_ofText c.minTermLength cs none

end Compiler

/-! ## Finding everything -/

namespace Matcher

variable {m : Matcher} {f : Filter}

theorem given_of_not_isGiven {o : Option String} {p : String → Except Search.Fault Bool}
    (h : ¬Filter.isGiven o) : given o p = .ok true := by
  cases o with
  | none => rfl
  | some t =>
      have hempty : t = "" := by simpa [Filter.isGiven] using h
      simp [given, hempty]

theorem hasDate_of_not_isGiven {s : Snippet} (hrange : f.dateRange = none)
    (htext : ¬Filter.isGiven f.dateText) : hasDate s f = .ok true := by
  cases hdate : f.dateText with
  | none => simp [hasDate, hrange, hdate]
  | some t =>
      have hempty : t = "" := by simpa [hdate, Filter.isGiven] using htext
      simp [hasDate, hrange, hdate, hempty]

/-- Where nothing but words can be asked for, the words decide. -/
theorem accepts_eq_askText (h : f.isIdentity) (s : Snippet) : m.accepts f s = m.askText f s := by
  obtain ⟨htype, hlanguage, happ, hrange, hdate, hall, -⟩ := f.isIdentity_iff.mp h
  have hnone : ¬Filter.isGiven none := by decide
  rw [accepts_eq, if_neg (by simp [hall]), askApp, given_of_not_isGiven happ, askType, htype,
    given_of_not_isGiven hnone, askLanguage, hlanguage, given_of_not_isGiven hnone, askDate,
    hasDate_of_not_isGiven hrange hdate]
  rfl

theorem askText_eq_true_iff (hfree : ¬Filter.isGiven f.freeText) (s : Snippet) :
    m.askText f s = .ok true ↔ f.terms = [] ∨ m.ShowsWords s f := by
  by_cases hterms : f.terms = []
  · exact iff_of_true (askText_of_textless hfree hterms) (.inl hterms)
  · have hphrase : ¬HasPhrase s f := by
      rintro ⟨_, -, phrase, hphrase, hne, -⟩
      simp [Filter.isGiven, Option.mem_def.mp hphrase, hne] at hfree
    rw [askText, if_pos (by simpa using .inr hterms), hasText_eq_true_iff, or_iff_right hphrase,
      or_iff_right hterms]

end Matcher

namespace Search

theorem passing_eq_self {p : Snippet → Except Fault Bool} {ss : List Snippet}
    (h : ∀ s ∈ ss, p s = .ok true) : passing p ss = .ok ss := by
  obtain ⟨kept, hkept⟩ := passing_succeeds_iff.mpr fun s hs => ⟨true, h s hs⟩
  have hall : kept = ss :=
    (passing_eq_filter hkept).trans (List.filter_eq_self.mpr fun s hs => by rw [h s hs]; rfl)
  rw [hkept, hall]

end Search

namespace Matcher

/-- A filter that asks for nothing finds a snippet if it has no words, or if enough of its words are
found. Without words it gives the whole collection, in any order that there is, if the moments can be
compared. Filters from search input that ask for nothing have no words. -/
theorem results_of_isIdentity (m : Matcher) {f : Filter} (h : f.isIdentity) :
    (∀ s, m.accepts f s = .ok true ↔ f.terms = [] ∨ m.ShowsWords s f) ∧
      (f.terms = [] → ∀ (ss : List Snippet) (asked chosen : String), f.Orders asked chosen →
        chosen ∈ sortOrders →
          (Succeeds (m.results f ss "all" asked) ↔ Search.comparable ss) ∧
            ∀ kept, m.results f ss "all" asked = .ok kept → kept.Perm ss) ∧
      ∀ (k : Compiler) (turns : List Compiler.Turn) (t : Transcript) (fs : List Filter),
        ((k.run none turns).run t).1 = .ok fs → f ∈ fs → f.terms = [] := by
  have hfree : ¬Filter.isGiven f.freeText := (f.isIdentity_iff.mp h).2.2.2.2.2.2
  have haccepts : ∀ s, m.accepts f s = .ok true ↔ f.terms = [] ∨ m.ShowsWords s f := fun s => by
    rw [accepts_eq_askText h, askText_eq_true_iff hfree]
  refine ⟨haccepts, fun hterms ss asked chosen hchosen hvalid => ?_, fun k turns t fs hrun hf => ?_⟩
  · have hall : Search.passing (fun s => m.accepts f s ("all" == "favorites")) ss = .ok ss :=
      Search.passing_eq_self fun s _ => (haccepts s).mpr (.inl hterms)
    have hforce := hchosen.getD_eq hvalid
    have hresults : m.results f ss "all" asked = Search.sorted (chosen == "newest") ss := by
      rw [m.results_eq f ss (by decide) (by rwa [hforce]), hall, hforce]
      rfl
    rw [hresults]
    exact ⟨succeeds_ite_iff _ _, fun kept => Search.perm_of_sorted⟩
  · exact Compiler.forall_of_run_none (fun _ _ hprevious h => h.isWorded hprevious) hrun f hf hfree

/-- Two messages are found where nothing is asked for. A filter with a word alone says that it asks for
nothing too, but finds neither. -/
theorem results_of_isIdentity_zebra :
    let word : Filter := { terms := ["zebra"] }
    let ss := [Collection.noon, { Collection.noon with id := .text "3" }]
    (word.isIdentity ∧ ({} : Matcher).accepts word Collection.noon ≠ .ok true ∧
        ¬({} : Matcher).ShowsWords Collection.noon word) ∧
      ∃ kept, ({} : Matcher).results {} ss "all" "newest" = .ok kept ∧ kept.Perm ss := by
  intro word ss
  have hmissing : (({} : Matcher).accepts word Collection.noon).toOption = some false := by
    decide +kernel
  have hno : ({} : Matcher).accepts word Collection.noon ≠ .ok true := fun h => by
    rw [h] at hmissing
    cases hmissing
  obtain ⟨hword, -, -⟩ := results_of_isIdentity {} (f := word) rfl
  obtain ⟨-, hall, -⟩ := results_of_isIdentity {} (f := {}) rfl
  obtain ⟨hsucceeds, hperm⟩ := hall rfl ss "newest" "newest" (.inr ⟨nofun, rfl⟩) (by decide)
  obtain ⟨kept, hkept⟩ := hsucceeds.mpr (by decide)
  exact ⟨⟨rfl, hno, fun hshown => hno ((hword _).mpr (.inr hshown))⟩, kept, hkept, hperm kept hkept⟩

end Matcher

end Clipboard
