import Clipboard.Proofs.Search.Match
import Clipboard.Proofs.Text.Words

/-!
The words of a search as parts of its text. Where the text stands in a snippet its words stand there too,
so that it makes no difference whether the text is looked for before its words are counted.
-/

namespace Clipboard

open Text (hasPart hasPart_iff_isInfix isSpace lower words)

namespace Search

theorem isInfix_of_mem_wordsOf {w : String} {cs : List Char} (h : w ∈ wordsOf cs) :
    w.toList <:+: lower cs := by
  obtain ⟨word, hword, rfl⟩ := List.mem_map.mp h
  rw [String.toList_ofList]
  refine Text.isInfix_of_mem_words_map (fun c _ hsolid => ?_) hword
  have hblank : isSpace ' ' := by decide
  split at hsolid
  · rename_i hkept
    rw [if_pos hkept]
  · exact absurd hblank hsolid

theorem termsOf_subset (minLength : Int) (cs : List Char) : termsOf minLength cs ⊆ wordsOf cs := by
  unfold termsOf
  refine List.foldlRecOn (motive := (· ⊆ wordsOf cs)) _ _ (List.nil_subset _) fun kept hkept t ht => ?_
  split
  · exact hkept
  · have hword : [t] ⊆ wordsOf cs := by simpa using (List.mem_filter.mp ht).1
    exact List.append_subset.mpr ⟨hkept, hword⟩

end Search

namespace Matcher

open Search (isInfix_of_mem_wordsOf termsOf termsOf_subset)

theorem holds_of_isInfix {texts : List (List Char)} {phrase word : String}
    (h : word.toList <:+: phrase.toList) (hphrase : holds texts phrase) : holds texts word := by
  obtain ⟨text, htext, hpart⟩ := List.any_eq_true.mp hphrase
  refine List.any_eq_true.mpr ⟨text, htext, ?_⟩
  exact hasPart_iff_isInfix.mpr (h.trans (hasPart_iff_isInfix.mp hpart))

/-- Of so many words no more than all have to be found. -/
theorem needed_le {ratio : Float} (h : Decimal.isShare ratio) {n : Nat} (hn : n ≤ 2 ^ 53) :
    ∃ k ≤ n, needed ratio n = .ok k := by
  obtain ⟨k, hle, hk⟩ := Decimal.ceilingOfProduct_le h hn
  exact ⟨k, hle, by rw [needed, hk]⟩

/-- A filter of which all words are found where its text is found. -/
theorem hasText_eq_of_holds {m : Matcher} {s : Snippet} {f : Filter} {k : Nat}
    (hterms : f.terms ≠ []) (hk : needed m.minMatchRatio f.terms.length = .ok k)
    (hle : k ≤ f.terms.length)
    (h : ∀ texts, ∀ phrase ∈ f.freeText, holds texts phrase → ∀ w ∈ f.terms, holds texts w) :
    m.hasText s f = m.hasText s { f with freeText := none } := by
  unfold hasText
  cases haystack s with
  | error e => rfl
  | ok texts =>
      cases hfound : (f.freeText.any fun t => !t.isEmpty && holds texts t) with
      | false => simp [bind, Except.bind, hfound]
      | true =>
          obtain ⟨phrase, hphrase, hholds⟩ := Option.any_eq_true _ _ |>.mp hfound
          have hall : f.terms.countP (holds texts) = f.terms.length :=
            List.countP_eq_length.mpr (h texts phrase hphrase (Bool.and_eq_true_iff.mp hholds).2)
          simp [bind, Except.bind, pure, Except.pure, hfound, hterms, hk, hall, hle]

/-- The words of a search are parts of its text in lower case. So it makes no difference to a filter with
words whether its text is looked for first, if the share of words to find is one, and their number one
that no rounding changes. -/
theorem hasText_of_terms (minLength : Int) (text : List Char) (command : Option String) :
    let f := Filter.ofText minLength text command
    (∀ w ∈ termsOf minLength text, w.toList <:+: lower text) ∧
      ∀ (m : Matcher) (s : Snippet), f.terms ≠ [] → f.terms.length ≤ 2 ^ 53 →
        Decimal.isShare m.minMatchRatio → m.hasText s f = m.hasText s { f with freeText := none } := by
  intro f
  have hparts : ∀ w ∈ termsOf minLength text, w.toList <:+: lower text :=
    fun w hw => isInfix_of_mem_wordsOf (termsOf_subset minLength text hw)
  refine ⟨hparts, fun m s hterms hcount hshare => ?_⟩
  obtain ⟨k, hle, hk⟩ := needed_le hshare hcount
  refine hasText_eq_of_holds hterms hk hle fun texts phrase hphrase hholds w hw => ?_
  refine holds_of_isInfix ?_ hholds
  obtain rfl : String.ofList (lower text) = phrase := Option.some.inj hphrase
  rw [String.toList_ofList]
  exact hparts w hw

/-- Both ways a text with two words is looked for, of which one has to be found. -/
theorem hasText_of_terms_rebase :
    let f := Filter.ofText 3 "Rebase the branch".toList none
    f.terms = ["rebase", "branch"] ∧ Decimal.isShare ({} : Matcher).minMatchRatio ∧
      ∀ s, ({} : Matcher).hasText s f = ({} : Matcher).hasText s { f with freeText := none } := by
  intro f
  have hterms : f.terms = ["rebase", "branch"] := by decide +kernel
  have hshare : Decimal.isShare ({} : Matcher).minMatchRatio := by decide +kernel
  obtain ⟨-, hsame⟩ := hasText_of_terms 3 "Rebase the branch".toList none
  refine ⟨hterms, hshare, fun s => hsame {} s ?_ ?_ hshare⟩
  · rw [hterms]
    decide
  · rw [hterms]
    decide

end Matcher

end Clipboard
