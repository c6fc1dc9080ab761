import Mathlib.Data.List.Nodup
import Clipboard.Classify.Tags

/-!
Lists of tags that a snippet can carry: every tag is well formed and none occurs twice. Cleaning,
ranking, topping up and putting a tag in front all give such lists. Ranking only ever adds behind the
pair of code and its language, so a ranked list names a language exactly in that pair.
-/

namespace Clipboard

theorem Language.name_injective {l m : Language} (h : l.name = m.name) : l = m := by
  cases l <;> cases m <;> first | rfl | exact absurd h (by decide)

theorem Language.name_ne_code (l : Language) : l.name ≠ "code" := by cases l <;> decide

theorem Language.ofName?_normalize_name (l : Language) :
    Language.ofName? (Language.normalize l.name) = some l := by cases l <;> decide

namespace Tags

/-! ## Well-formed tags -/

/-- The small letters, the digits and three signs. -/
def InAlphabet (c : Char) : Prop :=
  ('a' ≤ c ∧ c ≤ 'z') ∨ ('0' ≤ c ∧ c ≤ '9') ∨ c = '+' ∨ c = '#' ∨ c = '-'

structure IsTag (t : String) : Prop where
  ne_empty : t ≠ ""
  chars : ∀ c ∈ t.toList, InAlphabet c

/-- Well-formed tags, none of them twice. -/
structure Tidy (ts : List String) : Prop where
  nodup : ts.Nodup
  isTag : ∀ t ∈ ts, IsTag t

theorem isTagChar_iff {c : Char} : isTagChar c = true ↔ InAlphabet c := by
  have hlower : c.isLower = (decide ('a' ≤ c) && decide (c ≤ 'z')) := rfl
  simp [isTagChar, InAlphabet, hlower, Char.isDigit, Char.le_def, or_assoc]

theorem IsTag.of_all {t : String} (hne : t ≠ "") (h : t.toList.all isTagChar = true) : IsTag t :=
  ⟨hne, fun c hc => isTagChar_iff.mp (List.all_eq_true.mp h c hc)⟩

theorem isTag_name (l : Language) : IsTag l.name :=
  .of_all (by cases l <;> decide) (by cases l <;> rfl)

theorem isTag_code : IsTag "code" := .of_all (by decide) rfl

theorem Tidy.nil : Tidy [] := ⟨List.nodup_nil, by simp⟩

theorem Tidy.cons {t : String} {ts : List String} (ht : IsTag t) (hn : t ∉ ts) (h : Tidy ts) :
    Tidy (t :: ts) :=
  ⟨List.nodup_cons.mpr ⟨hn, h.nodup⟩, List.forall_mem_cons.mpr ⟨ht, h.isTag⟩⟩

theorem Tidy.snoc {t : String} {ts : List String} (ht : IsTag t) (hn : t ∉ ts) (h : Tidy ts) :
    Tidy (ts ++ [t]) := by
  refine ⟨List.nodup_append.mpr ⟨h.nodup, List.nodup_singleton t, ?_⟩, ?_⟩
  · intro a ha b hb he
    rw [List.mem_singleton.mp hb] at he
    exact hn (he ▸ ha)
  · intro a ha
    rcases List.mem_append.mp ha with ha | ha
    · exact h.isTag a ha
    · rw [List.mem_singleton.mp ha]; exact ht

theorem Tidy.take {ts : List String} (n : Nat) (h : Tidy ts) : Tidy (ts.take n) :=
  ⟨h.nodup.sublist (List.take_sublist n ts), fun t ht => h.isTag t (List.mem_of_mem_take ht)⟩

theorem tidy_codeWith (l : Option Language) : Tidy ("code" :: (l.map (·.name)).toList) := by
  cases l with
  | none => exact .cons isTag_code (by simp) .nil
  | some l =>
      exact .cons isTag_code (by simpa using l.name_ne_code.symm)
        (.cons (isTag_name l) (by simp) .nil)

/-! ## Cleaning -/

theorem inAlphabet_of_mem_clean {tag : String} {c : Char} (h : c ∈ (clean tag).toList) :
    InAlphabet c := by
  simp only [clean, String.toList_ofList, List.mem_filter] at h
  exact isTagChar_iff.mp h.2

theorem tidy_dedupe (tags : List String) : Tidy (dedupe tags) := by
  refine List.foldlRecOn _ _ Tidy.nil fun kept hk t ht => ?_
  split
  · exact hk
  · rename_i hc
    simp only [Bool.or_eq_true, String.isEmpty_iff, List.contains_iff_mem, not_or] at hc
    obtain ⟨raw, _, rfl⟩ := List.mem_map.mp ht
    exact hk.snoc ⟨hc.1, fun c => inAlphabet_of_mem_clean⟩ hc.2

/-! ## Ranking -/

/-- `r` is `base` with tags out of `pool` behind it, none of them twice. -/
structure Grown (pool base r : List String) : Prop where
  tidy : Tidy r
  eq_append : ∃ more, r = base ++ more ∧ ∀ t ∈ more, t ∈ pool

theorem Grown.refl {pool base : List String} (h : Tidy base) : Grown pool base base :=
  ⟨h, [], by simp, by simp⟩

theorem Grown.snoc {pool base r : List String} {t : String} (hpool : Tidy pool)
    (h : Grown pool base r) (ht : t ∈ pool) (hn : t ∉ r) : Grown pool base (r ++ [t]) := by
  obtain ⟨more, rfl, hm⟩ := h.eq_append
  refine ⟨h.tidy.snoc (hpool.isTag t ht) hn, more ++ [t], by simp, ?_⟩
  intro u hu
  rcases List.mem_append.mp hu with hu | hu
  · exact hm u hu
  · rw [List.mem_singleton.mp hu]; exact ht

theorem Grown.addNew {pool base r : List String} {t : String} (hpool : Tidy pool)
    (h : Grown pool base r) (ht : t ∈ pool) : Grown pool base (addNew r t) := by
  unfold Tags.addNew
  split
  · exact h
  · rename_i hn
    exact h.snoc hpool ht (by simpa using hn)

theorem Grown.fill {pool base : List String} (hpool : Tidy pool) {ts : List String}
    (hts : ∀ t ∈ ts, t ∈ pool) {r : List String} (h : Grown pool base r) :
    Grown pool base (fill r ts) := by
  induction ts generalizing r with
  | nil => exact h
  | cons t ts ih =>
      have hrest : ∀ u ∈ ts, u ∈ pool := fun u hu => hts u (List.mem_cons_of_mem t hu)
      unfold Tags.fill
      split
      · exact h
      · apply ih hrest
        split
        · exact h.addNew hpool (hts t List.mem_cons_self)
        · exact h

theorem codePair_eq (cleaned : List String) (d : Option Language) :
    codePair cleaned (d.map (·.name)) =
      if "code" ∈ cleaned then "code" :: ((languageIn cleaned <|> d).map (·.name)).toList
      else [] := by
  have hname : ∀ l : Language, l.name.isEmpty = false := by intro l; cases l <;> rfl
  unfold codePair
  cases languageIn cleaned <;> cases d <;> simp [Option.filter_some, hname]

theorem tidy_codePair (cleaned : List String) (d : Option Language) :
    Tidy (codePair cleaned (d.map (·.name))) := by
  rw [codePair_eq]
  split
  · exact tidy_codeWith _
  · exact .nil

/-- Ranking adds clean tags behind the pair of code and its language, and keeps two. -/
theorem exists_grown_rank (tags : List String) (d : Option Language) :
    ∃ r, Grown (dedupe tags) (codePair (dedupe tags) (d.map (·.name))) r ∧
      rank tags (d.map (·.name)) = r.take maxTags := by
  have hpool := tidy_dedupe tags
  refine ⟨_, ?_, rfl⟩
  refine Grown.fill hpool (fun _ h => h) ?_
  refine List.foldlRecOn _ _ ?_ fun r hr t ht => ?_
  · refine List.foldlRecOn _ _ (.refl (tidy_codePair _ d)) fun r hr t ht => ?_
    exact hr.addNew hpool (by simpa using (List.mem_filter.mp ht).2)
  · split
    · rename_i hf
      simp only [isFurther, Bool.and_eq_true, Bool.not_eq_true', List.contains_eq_mem,
        decide_eq_false_iff_not] at hf
      exact hr.snoc hpool ht hf.1.1
    · exact hr

theorem tidy_rank (tags : List String) (d : Option Language) :
    Tidy (rank tags (d.map (·.name))) := by
  obtain ⟨r, hr, he⟩ := exists_grown_rank tags d
  exact he ▸ hr.tidy.take maxTags

theorem length_rank_le (tags : List String) (d : Option String) :
    (rank tags d).length ≤ maxTags :=
  List.length_take_le _ _

theorem languageIn_codeWith (l : Language) : languageIn ["code", l.name] = some l := by
  cases l <;> decide

theorem languageIn_eq_none_iff {ts : List String} :
    languageIn ts = none ↔ ∀ t ∈ ts, Language.ofName? (Language.normalize t) = none :=
  List.findSome?_eq_none_iff

theorem name_notMem_of_languageIn_eq_none {ts : List String} (h : languageIn ts = none)
    (l : Language) : l.name ∉ ts := by
  intro hl
  have := languageIn_eq_none_iff.mp h _ hl
  rw [Language.ofName?_normalize_name] at this
  cases this

/-- Among ranked tags, code has a language exactly where the language is the other tag. -/
theorem languageIn_rank_eq_some_iff {tags : List String} {d : Option Language}
    (hcode : "code" ∈ rank tags (d.map (·.name))) (l : Language) :
    languageIn (rank tags (d.map (·.name))) = some l ↔
      rank tags (d.map (·.name)) = ["code", l.name] := by
  obtain ⟨r, hr, he⟩ := exists_grown_rank tags d
  obtain ⟨more, rfl, hmore⟩ := hr.eq_append
  rw [he] at hcode ⊢
  rw [codePair_eq] at hcode ⊢
  split at hcode
  · rename_i hc
    simp only [hc, if_true]
    cases hl : (languageIn (dedupe tags) <|> d) with
    | some m =>
        -- The pair fills both places.
        have hpair : (("code" :: ((some m).map (·.name)).toList) ++ more).take maxTags =
            ["code", m.name] := by simp [maxTags]
        rw [hpair, languageIn_codeWith]
        constructor
        · rintro ⟨⟩; rfl
        · intro h
          exact congrArg some (Language.name_injective (by simpa using h))
    | none =>
        -- No clean tag names a language, so neither does any tag that follows.
        have hnone : languageIn (dedupe tags) = none := by
          cases hn : languageIn (dedupe tags) with
          | none => rfl
          | some m => simp [hn] at hl
        have hrank : languageIn ((("code" :: ((none : Option Language).map (·.name)).toList)
            ++ more).take maxTags) = none := by
          rw [languageIn_eq_none_iff]
          intro t ht
          have ht := List.mem_of_mem_take ht
          simp only [Option.map_none, Option.toList_none, List.cons_append, List.nil_append,
            List.mem_cons] at ht
          rcases ht with rfl | ht
          · decide
          · exact languageIn_eq_none_iff.mp hnone t (hmore t ht)
        rw [hrank]
        constructor
        · intro h; cases h
        · intro h
          exact absurd (by rw [h]; simp) (name_notMem_of_languageIn_eq_none hrank l)
  · rename_i hc
    simp only [List.nil_append] at hcode
    exact absurd (hmore _ (List.mem_of_mem_take hcode)) hc

/-! ## Topping up and putting in front -/

theorem exists_floorOf_eq (k : Kind) :
    ∃ a b, floorOf k = [a, b] ∧ a ≠ b ∧ IsTag a ∧ IsTag b := by
  cases k <;> exact ⟨_, _, rfl, by decide, .of_all (by decide) rfl, .of_all (by decide) rfl⟩

/-- Topping up gives two tags, and what is new comes from the tags of the kind. -/
theorem withFloor_spec {tags : List String} (k : Kind) (h : Tidy tags)
    (hlen : tags.length ≤ maxTags) :
    Tidy (withFloor tags k) ∧ (withFloor tags k).length = maxTags ∧
      ∃ more, withFloor tags k = tags ++ more ∧ ∀ t ∈ more, t ∈ floorOf k ∧ t ∉ tags := by
  obtain ⟨a, b, hk, hab, ha, hb⟩ := exists_floorOf_eq k
  have hfold : withFloor tags k =
      ([a, b].foldl (fun r t => if maxTags ≤ r.length then r else addNew r t) tags).take maxTags := by
    rw [withFloor, hk]
  rw [hk, hfold]
  match tags, h, hlen with
  | [], _, _ =>
      have hba : ¬b = a := fun he => hab he.symm
      have he : (([a, b].foldl (fun r t => if maxTags ≤ r.length then r else addNew r t) []).take
          maxTags) = [] ++ [a, b] := by simp [maxTags, addNew, hba]
      rw [he]
      exact ⟨.cons ha (by simpa using hab) (.cons hb (by simp) .nil), rfl, _, rfl, by simp⟩
  | [x], h, _ =>
      by_cases hx : a = x
      · subst hx
        have hba : ¬b = a := fun he => hab he.symm
        have he : (([a, b].foldl (fun r t => if maxTags ≤ r.length then r else addNew r t) [a]).take
            maxTags) = [a] ++ [b] := by simp [maxTags, addNew, hba]
        rw [he]
        exact ⟨h.snoc hb (by simpa using hba), rfl, _, rfl, by simpa using hba⟩
      · have he : (([a, b].foldl (fun r t => if maxTags ≤ r.length then r else addNew r t) [x]).take
            maxTags) = [x] ++ [a] := by simp [maxTags, addNew, hx]
        rw [he]
        exact ⟨h.snoc ha (by simpa using hx), rfl, _, rfl, by simpa using hx⟩
  | [x, y], h, _ =>
      have he : (([a, b].foldl (fun r t => if maxTags ≤ r.length then r else addNew r t)
          [x, y]).take maxTags) = [x, y] ++ [] := by simp [maxTags]
      rw [he]
      exact ⟨by simpa using h, rfl, [], rfl, by simp⟩
  | _ :: _ :: _ :: _, _, hlen => simp [maxTags] at hlen

theorem tidy_ensure {tags : List String} {tag : String} (ht : IsTag tag) (h : Tidy tags) :
    Tidy (ensure tags tag) := by
  unfold ensure
  split
  · exact h
  · rename_i hn
    exact (Tidy.cons ht (by simpa using hn) h).take maxTags

theorem length_ensure_le {tags : List String} (tag : String) (h : tags.length ≤ maxTags) :
    (ensure tags tag).length ≤ maxTags := by
  unfold ensure
  split
  · exact h
  · exact List.length_take_le _ _

theorem mem_ensure_self (tags : List String) (tag : String) : tag ∈ ensure tags tag := by
  unfold ensure
  split
  · rename_i h; simpa using h
  · simp [maxTags]

theorem mem_of_mem_ensure {tags : List String} {tag t : String} (h : t ∈ ensure tags tag) :
    t = tag ∨ t ∈ tags := by
  unfold ensure at h
  split at h
  · exact .inr h
  · exact List.mem_cons.mp (List.mem_of_mem_take h)

end Tags

end Clipboard
