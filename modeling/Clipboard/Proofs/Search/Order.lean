import Clipboard.Proofs.Calendar.Moments
import Clipboard.Proofs.Search.Results

/-!
The order of what is found. A search gives the snippets that pass, none lost and none twice, by their
moments in the order in force; snippets of one moment stand as they stand in the collection, whichever way
the moments go.
-/

namespace Clipboard

open Calendar (Moment)
open Fallible

namespace Search

/-! ## Sorting -/

/-- Items that may stand before each other keep their places among themselves. -/
theorem filter_mergeSort {α : Type} {le : α → α → Bool} {p : α → Bool}
    (trans : ∀ a b c, le a b → le b c → le a c) (total : ∀ a b, le a b || le b a)
    (h : ∀ a b, p a → p b → le a b) (l : List α) : (l.mergeSort le).filter p = l.filter p := by
  have hordered : (l.filter p).Pairwise fun a b => le a b :=
    List.pairwise_of_forall_mem_list fun a ha b hb =>
      h a b (List.mem_filter.mp ha).2 (List.mem_filter.mp hb).2
  have hsublist : (l.filter p).Sublist ((l.mergeSort le).filter p) := by
    have hsorted := (List.sublist_mergeSort trans total hordered List.filter_sublist).filter p
    rwa [List.filter_filter, show (fun a => p a && p a) = p from funext fun a => Bool.and_self (p a)]
      at hsorted
  exact (hsublist.eq_of_length ((List.mergeSort_perm l le).filter p).length_eq.symm).symm

section

variable (newestFirst : Bool)

theorem inOrder_trans (a b c : Snippet) (hab : inOrder newestFirst a b)
    (hbc : inOrder newestFirst b c) : inOrder newestFirst a c := by
  cases newestFirst <;> simp only [inOrder, Bool.false_eq_true, if_false, if_true, decide_eq_true_eq]
    at hab hbc ⊢ <;> omega

theorem inOrder_total (a b : Snippet) : inOrder newestFirst a b || inOrder newestFirst b a := by
  cases newestFirst <;> simp only [inOrder, Bool.false_eq_true, if_false, if_true, Bool.or_eq_true,
    decide_eq_true_eq] <;> omega

theorem inOrder_of_moment_eq {a b : Snippet} (h : a.moment = b.moment) : inOrder newestFirst a b := by
  cases newestFirst <;> simp [inOrder, h]

theorem inOrder_iff {a b : Snippet} (ha : a.moment.offset = none) (hb : b.moment.offset = none) :
    inOrder newestFirst a b ↔
      if newestFirst then b.moment.upTo a.moment = .ok true else a.moment.upTo b.moment = .ok true := by
  cases newestFirst <;> simp [inOrder, Moment.upTo, ha, hb]

/-- Moments without an offset can be sorted: nothing is lost, and snippets of one moment keep their
order. -/
theorem sorted_of_plain {ss : List Snippet} (h : ∀ s ∈ ss, s.moment.offset = none) :
    ∃ kept, sorted newestFirst ss = .ok kept ∧ kept.Perm ss ∧
      (kept.Pairwise fun a b => if newestFirst then b.moment.upTo a.moment = .ok true
        else a.moment.upTo b.moment = .ok true) ∧
      ∀ t, kept.filter (·.moment = t) = ss.filter (·.moment = t) := by
  have hcomparable : comparable ss := by simpa [comparable] using .inr h
  have htrans := inOrder_trans newestFirst
  have htotal := inOrder_total newestFirst
  have hperm := List.mergeSort_perm ss (inOrder newestFirst)
  refine ⟨_, if_pos hcomparable, hperm, ?_, fun t => filter_mergeSort htrans htotal ?_ ss⟩
  · refine (List.pairwise_mergeSort htrans htotal ss).imp_of_mem fun {a b} ha hb hab => ?_
    exact (inOrder_iff newestFirst (h a (hperm.mem_iff.mp ha)) (h b (hperm.mem_iff.mp hb))).mp hab
  · intro a b ha hb
    exact inOrder_of_moment_eq newestFirst ((of_decide_eq_true ha).trans (of_decide_eq_true hb).symm)

end

end Search

/-! ## Searching -/

/-- The order in force: the filter has one of its own, or it has none and the one asked for counts. -/
def Filter.Orders (f : Filter) (asked chosen : String) : Prop :=
  f.sortOrder = some chosen ∨ (∀ name ∈ f.sortOrder, name = "") ∧ chosen = asked

theorem Filter.Orders.getD_eq {f : Filter} {asked chosen : String} (h : f.Orders asked chosen)
    (hvalid : chosen ∈ sortOrders) : (f.sortOrder.filter (!·.isEmpty)).getD asked = chosen := by
  rcases h with hown | ⟨hnone, rfl⟩
  · have hne : chosen ≠ "" := by
      rintro rfl
      exact absurd hvalid (by decide)
    simp [hown, Option.filter_some, hne]
  · cases horder : f.sortOrder with
    | none => rfl
    | some name => simp [Option.filter_some, hnone name horder]

namespace Matcher

/-- Whether a snippet is told to pass a filter in a view. -/
def finds (m : Matcher) (f : Filter) (view : String) (s : Snippet) : Bool :=
  (m.accepts f s (view == "favorites")).toOption.getD false

/-- Where it can be told of each snippet whether it passes, and no moment has an offset, a search in a
known view and order gives the snippets that pass, each as often as it stands in the collection. Of two of
them the first is no later than the second, or with the newest in front no earlier. Those of one moment
stand as in the collection. An order of the filter goes before the one asked for. -/
theorem results_stable (m : Matcher) {f : Filter} {ss : List Snippet} {view asked chosen : String}
    (hview : view ∈ Search.views) (hchosen : f.Orders asked chosen) (hvalid : chosen ∈ sortOrders)
    (hplain : ∀ s ∈ ss, s.moment.offset = none)
    (htold : ∀ s ∈ ss, Succeeds (m.accepts f s (view == "favorites"))) :
    let found := ss.filter (m.finds f view)
    ∃ kept, m.results f ss view asked = .ok kept ∧ kept.Perm found ∧
      (chosen = "oldest" → kept.Pairwise fun a b => a.moment.upTo b.moment = .ok true) ∧
      (chosen = "newest" → kept.Pairwise fun a b => b.moment.upTo a.moment = .ok true) ∧
      ∀ t, kept.filter (·.moment = t) = found.filter (·.moment = t) := by
  intro found
  have hforce := hchosen.getD_eq hvalid
  have hpassing : Search.passing (fun s => m.accepts f s (view == "favorites")) ss = .ok found := by
    obtain ⟨passed, hpassed⟩ := Search.passing_succeeds_iff.mpr htold
    rw [hpassed, Search.passing_eq_filter hpassed]
    rfl
  obtain ⟨kept, hkept, hperm, hordered, hties⟩ :=
    Search.sorted_of_plain (chosen == "newest") fun s hs => hplain s (List.mem_filter.mp hs).1
  refine ⟨kept, ?_, hperm, ?_, ?_, hties⟩
  · rw [m.results_eq f ss hview (by rwa [hforce]), hpassing, hforce]
    exact hkept
  · rintro rfl
    simpa using hordered
  · rintro rfl
    simpa using hordered

/-- A greeting of an early hour and two of a later one, the filter wanting the newest first. -/
theorem results_stable_newest :
    let greeting (id : String) (t : Calendar.Time) : Snippet :=
      { Collection.noon with id := .text id, moment := ⟨Store.mayDay, t⟩ }
    let early := greeting "1" .midnight
    let first := greeting "2" .endOfDay
    let second := greeting "3" .endOfDay
    let found := [early, first, second]
    ∃ kept, ({} : Matcher).results { sortOrder := some "newest" } found "all" "oldest" = .ok kept ∧
      kept.Perm found ∧ (kept.Pairwise fun a b => b.moment.upTo a.moment = .ok true) ∧
      kept.filter (·.moment = first.moment) = [first, second] := by
  intro greeting early first second found
  have htold : ∀ s ∈ found, Succeeds (({} : Matcher).accepts { sortOrder := some "newest" } s false) :=
    fun s _ => ⟨true, rfl⟩
  have hplain : ∀ s ∈ found, s.moment.offset = none := by
    simp [found, early, first, second, greeting, Moment.offset, Calendar.Time.midnight,
      Calendar.Time.endOfDay]
  obtain ⟨kept, hkept, hperm, -, hnewest, hties⟩ :=
    results_stable {} (show "all" ∈ Search.views by decide) (.inl rfl) (by decide) hplain htold
  exact ⟨kept, hkept, hperm, hnewest rfl, hties first.moment⟩

end Matcher

end Clipboard
