import Clipboard.Proofs.Classify.Ranking
import Clipboard.Proofs.Text.Words

/-!
Cleaning what is clean already. The hashes at the front of a tag are dropped before the characters that no
tag has, so that a hash behind such characters comes to the front of the clean tag, where a second
cleaning drops it.
-/

namespace Clipboard.Tags

open Text

/-! ## Cleaning again -/

/-- What of a tag is read for its words: the tag in lower case, without the hashes at its front. -/
def bare (tag : String) : List Char := trim ((lower (trim tag.toList)).dropWhile (· == '#'))

/-- Of the characters of the bare tag that leave something in the clean one, as a blank leaves a dash,
the first is a hash. -/
def HidesHash (tag : String) : Prop := (bare tag).find? (fun c => isTagChar c || isSpace c) = some '#'

theorem toList_clean (tag : String) :
    (clean tag).toList = (join ['-'] (words (bare tag))).filter isTagChar := String.toList_ofList

theorem head?_dropWhile_ne (cs : List Char) : (cs.dropWhile (· == '#')).head? ≠ some '#' := by
  intro h
  simpa [h] using List.head?_dropWhile_not (· == '#') cs

/-- A clean tag only loses the hashes at its front. -/
theorem clean_of_inAlphabet {tag : String} (h : ∀ c ∈ tag.toList, InAlphabet c) :
    clean tag = .ofList (tag.toList.dropWhile (· == '#')) := by
  have hrest : ∀ c ∈ tag.toList.dropWhile (· == '#'), InAlphabet c :=
    fun c hc => h c ((List.dropWhile_sublist _).subset hc)
  have hspace : ∀ c ∈ tag.toList.dropWhile (· == '#'), ¬isSpace c := fun c hc => (hrest c hc).spec.1
  have hbare : bare tag = tag.toList.dropWhile (· == '#') := by
    rw [bare, trim_of_no_space fun c hc => (h c hc).spec.1, lower_of_inAlphabet h,
      trim_of_no_space hspace]
  rw [← String.toList_inj, toList_clean, hbare, join_words_of_no_space hspace, String.toList_ofList,
    List.filter_eq_self]
  exact fun c hc => isTagChar_iff.mpr (hrest c hc)

theorem clean_clean (tag : String) :
    clean (clean tag) = .ofList ((clean tag).toList.dropWhile (· == '#')) :=
  clean_of_inAlphabet fun _ => inAlphabet_of_mem_clean

theorem clean_clean_eq_iff_head? {tag : String} :
    clean (clean tag) = clean tag ↔ (clean tag).toList.head? ≠ some '#' := by
  rw [clean_clean, ← String.toList_inj, String.toList_ofList, List.dropWhile_eq_self_iff]
  cases (clean tag).toList <;> simp

/-- Joining the words keeps the first character that leaves something, if it is a hash. -/
theorem find?_join_words {c : Char} (h : ¬isSpace c) (cs : List Char) :
    (join ['-'] (words (c :: cs))).find? isTagChar = some '#' ↔
      (c :: cs).find? (fun c => isTagChar c || isSpace c) = some '#' := by
  induction cs generalizing c with
  | nil => simp [words, join, h]
  | cons d ds ih =>
      rw [join_words_cons h, List.find?_cons, List.find?_cons]
      by_cases htag : isTagChar c
      · simp [htag]
      · simp only [htag, h, Bool.or_false]
        by_cases hd : isSpace d
        · -- A dash stands for the blank, unless no word follows.
          have hdash : isTagChar '-' := by decide
          have hne : d ≠ '#' := by
            rintro rfl
            exact absurd hd (by decide)
          cases hwords : words (d :: ds) with
          | nil => simp [hd, hne, join]
          | cons w ws => simp [hd, hne, hdash]
        · simpa [hd] using ih hd

theorem head?_clean_eq_iff {tag : String} :
    (clean tag).toList.head? = some '#' ↔ HidesHash tag := by
  rw [toList_clean, List.head?_filter, HidesHash]
  cases hbare : bare tag with
  | nil => simp [words, join]
  | cons c cs => exact find?_join_words (not_isSpace_of_trim hbare) cs

theorem clean_clean_eq_iff {tag : String} : clean (clean tag) = clean tag ↔ ¬HidesHash tag := by
  rw [clean_clean_eq_iff_head?, ne_eq, head?_clean_eq_iff]

/-! ## Lists of tags -/

theorem mem_dedupe_iff {tags : List String} {t : String} :
    t ∈ dedupe tags ↔ t ≠ "" ∧ ∃ raw ∈ tags, clean raw = t := by
  simp [dedupe_eq, and_comm]

theorem eraseDups_of_nodup {ts : List String} (h : ts.Nodup) : ts.eraseDups = ts := by
  induction ts with
  | nil => rfl
  | cons t ts ih =>
      obtain ⟨ht, hts⟩ := List.nodup_cons.mp h
      have hkept : (ts.filter fun u => !u == t) = ts := by
        refine List.filter_eq_self.mpr fun u hu => ?_
        have hne : u ≠ t := fun he => ht (he ▸ hu)
        simpa using hne
      rw [List.eraseDups_cons, hkept, ih hts]

theorem dedupe_dedupe_of_forall {tags : List String} (h : ∀ t ∈ tags, ¬HidesHash t) :
    dedupe (dedupe tags) = dedupe tags := by
  have hclean : (dedupe tags).map clean = (dedupe tags).map id := by
    refine List.map_congr_left fun t ht => ?_
    obtain ⟨-, raw, hraw, rfl⟩ := mem_dedupe_iff.mp ht
    exact clean_clean_eq_iff.mpr (h raw hraw)
  have hkept : (dedupe tags).filter (!·.isEmpty) = dedupe tags :=
    List.filter_eq_self.mpr fun t ht => by simpa using ((tidy_dedupe tags).isTag t ht).ne_empty
  rw [dedupe_eq (dedupe tags), hclean, List.map_id, hkept]
  exact eraseDups_of_nodup (tidy_dedupe tags).nodup

theorem not_hidesHash_of_dedupe_dedupe {tags : List String} (h : dedupe (dedupe tags) = dedupe tags) :
    ∀ t ∈ tags, ¬HidesHash t := by
  intro t ht hhides
  have hhead := head?_clean_eq_iff.mpr hhides
  have hne : clean t ≠ "" := by
    intro hempty
    simp [hempty] at hhead
  have hmem : clean t ∈ dedupe (dedupe tags) := by
    rw [h]
    exact mem_dedupe_iff.mpr ⟨hne, t, ht, rfl⟩
  -- The tag has been cleaned twice, so that no hash is left at its front.
  obtain ⟨-, u, hu, hclean⟩ := mem_dedupe_iff.mp hmem
  obtain ⟨-, raw, -, rfl⟩ := mem_dedupe_iff.mp hu
  rw [← hclean, clean_clean, String.toList_ofList] at hhead
  exact head?_dropWhile_ne _ hhead

/-- Cleaning a tag twice is cleaning it once exactly if the tag does not hide a hash, and from the second
time on it changes nothing. Cleaning a list twice is cleaning it once exactly if no tag of it hides a hash;
then the list and the clean list rank alike. -/
theorem dedupe_dedupe_iff (tag : String) (tags : List String) (detected : Option String) :
    (clean (clean tag) = clean tag ↔ ¬HidesHash tag) ∧
      clean (clean (clean tag)) = clean (clean tag) ∧
      (dedupe (dedupe tags) = dedupe tags ↔ ∀ t ∈ tags, ¬HidesHash t) ∧
      ((∀ t ∈ tags, ¬HidesHash t) → rank (dedupe tags) detected = rank tags detected) := by
  refine ⟨clean_clean_eq_iff, ?_, ⟨not_hidesHash_of_dedupe_dedupe, dedupe_dedupe_of_forall⟩, fun h => ?_⟩
  · rw [clean_clean_eq_iff_head?, clean_clean, String.toList_ofList]
    exact head?_dropWhile_ne _
  · unfold rank
    rw [dedupe_dedupe_of_forall h]

/-- A tag in quotes has its hash behind a quote; cleaned once, it is not the tag of a link yet. -/
theorem dedupe_dedupe_iff_quoted :
    let plain := [" #Error Message ", "C++", "c++"]
    (∀ t ∈ plain, ¬HidesHash t) ∧ rank (dedupe plain) none = rank plain none ∧
      HidesHash "'#Link'" ∧ clean "'#Link'" = "#link" ∧ clean "#link" = "link" ∧
      rank ["'#Link'"] none ≠ rank (dedupe ["'#Link'"]) none := by
  intro plain
  have hclean : ∀ t ∈ plain, clean (clean t) = clean t := by decide +kernel
  have hplain : ∀ t ∈ plain, ¬HidesHash t := fun t ht =>
    (dedupe_dedupe_iff t [] none).1.mp (hclean t ht)
  obtain ⟨-, -, -, hrank⟩ := dedupe_dedupe_iff "" plain none
  refine ⟨hplain, hrank hplain, ?_, ?_, ?_, ?_⟩
  · unfold HidesHash
    decide +kernel
  · decide +kernel
  · decide +kernel
  · decide +kernel

end Clipboard.Tags
