import Clipboard.Proofs.Classify.Coherence
import Clipboard.Proofs.Text.Lower

/-!
What the ranking of tags comes to. The passes that add tags one after the other give the first two tags of
one list, which goes from the strongest sign to the weakest. None of the tags that decide the kind of a
snippet is lost on the way.
-/

namespace Clipboard

/-! ## Names of languages -/

namespace Language

theorem ofName?_name (l : Language) : ofName? l.name = some l := by cases l <;> decide

/-- No other name of a language is the name of one. -/
theorem ofName?_of_ofAlias? {s : String} {l : Language} (h : ofAlias? s = some l) :
    ofName? s = none := by
  have hnone : ∀ p ∈ aliases, ofName? p.1 = none := by decide
  obtain ⟨front, back, haliases, -⟩ := List.lookup_eq_some_iff.mp h
  exact hnone (s, l) (haliases ▸ List.mem_append_right front List.mem_cons_self)

end Language

namespace Tags

theorem InAlphabet.spec {c : Char} (h : InAlphabet c) :
    ¬Text.isSpace c ∧ c.toNat < 128 ∧ c.toLower = c := by
  have hc : 32 < c.toNat ∧ c.toNat < 65 ∨ 90 < c.toNat ∧ c.toNat < 127 := by
    rcases h with h | h | rfl | rfl | rfl
    · have hletter : 97 ≤ c.toNat ∧ c.toNat ≤ 122 := h
      omega
    · have hdigit : 48 ≤ c.toNat ∧ c.toNat ≤ 57 := h
      omega
    · decide
    · decide
    · decide
  refine ⟨Text.not_isSpace_of_visible (by omega), by omega, ?_⟩
  unfold Char.toLower
  refine dif_neg fun hupper => ?_
  have hbig : 65 ≤ c.toNat ∧ c.toNat ≤ 90 := hupper
  omega

theorem lower_of_inAlphabet {cs : List Char} (h : ∀ c ∈ cs, InAlphabet c) : Text.lower cs = cs := by
  have hself : cs.map Char.toLower = cs.map id :=
    List.map_congr_left fun c hc => (h c hc).spec.2.2
  rw [Text.lower, Text.lowerFrom_of_ascii [] fun c hc => (h c hc).spec.2.1, hself, List.map_id]

/-- A well-formed tag is in lower case, without blanks around it. -/
theorem IsTag.lowerString_trimString {t : String} (h : IsTag t) :
    Text.lowerString (Text.trimString t) = t := by
  have htrim : Text.trim t.toList = t.toList :=
    Text.trim_of_no_space fun c hc => (h.chars c hc).spec.1
  simp [Text.lowerString, Text.trimString, htrim, lower_of_inAlphabet h.chars]

theorem IsTag.normalize_eq {t : String} (h : IsTag t) :
    Language.normalize t = ((Language.ofAlias? t).map (·.name)).getD t := by
  rw [Language.normalize, h.lowerString_trimString]

theorem IsTag.ofName?_normalize {t : String} (h : IsTag t) :
    Language.ofName? (Language.normalize t) = Language.named? t := by
  rw [h.normalize_eq, Language.named?]
  cases halias : Language.ofAlias? t with
  | none => simp
  | some l =>
      rw [Language.ofName?_of_ofAlias? halias, Option.map_some, Option.getD_some, l.ofName?_name]
      rfl

theorem IsTag.normalize_eq_self {t : String} (h : IsTag t)
    (hnone : Language.ofName? (Language.normalize t) = none) :
    Language.normalize t = t := by
  rw [h.normalize_eq] at hnone ⊢
  cases halias : Language.ofAlias? t with
  | none => rfl
  | some l => simp [halias, Language.ofName?_name] at hnone

theorem languageIn_eq {ts : List String} (h : ∀ t ∈ ts, IsTag t) :
    languageIn ts = ts.findSome? Language.named? := by
  unfold languageIn
  induction ts with
  | nil => rw [List.findSome?_nil, List.findSome?_nil]
  | cons t ts ih =>
      obtain ⟨ht, hts⟩ := List.forall_mem_cons.mp h
      rw [List.findSome?_cons, List.findSome?_cons, ht.ofName?_normalize, ih hts]

/-! ## Adding tags -/

theorem foldl_addNew (ts r : List String) :
    ts.foldl addNew r = r ++ (ts.filter (!r.contains ·)).eraseDups := by
  induction ts generalizing r with
  | nil => simp
  | cons t ts ih =>
      rw [List.foldl_cons, ih, addNew]
      by_cases ht : t ∈ r
      · simp [ht]
      · simp [ht, List.eraseDups_cons, List.filter_filter, Bool.and_comm, Bool.beq_eq_decide_eq]

theorem mem_addNew {t u : String} {r : List String} : u ∈ addNew r t ↔ u ∈ r ∨ u = t := by
  unfold addNew
  split
  · rename_i h
    exact (or_iff_left_of_imp fun he => he ▸ List.contains_iff_mem.mp h).symm
  · simp

theorem eraseDups_eq_foldl (ts : List String) : ts.eraseDups = ts.foldl addNew [] := by
  simp [foldl_addNew]

theorem dedupe_eq (tags : List String) :
    dedupe tags = ((tags.map clean).filter (!·.isEmpty)).eraseDups := by
  rw [eraseDups_eq_foldl, List.foldl_filter, dedupe]
  congr 1
  funext kept t
  cases t.isEmpty <;> simp [addNew]

theorem take_foldl_addNew {r : List String} (h : maxTags ≤ r.length) (ts : List String) :
    (ts.foldl addNew r).take maxTags = r.take maxTags := by
  rw [foldl_addNew, List.take_append_of_le_length h]

/-- Filling up stops early, which the first two tags do not show. -/
theorem take_fill (ts r : List String) :
    (fill r ts).take maxTags = ((ts.filter (generic.contains ·)).foldl addNew r).take maxTags := by
  induction ts generalizing r with
  | nil => rfl
  | cons t ts ih =>
      unfold fill
      by_cases hfull : maxTags ≤ r.length
      · rw [if_pos hfull, take_foldl_addNew hfull]
      · rw [if_neg hfull, ih]
        by_cases ht : generic.contains t
        · rw [if_pos ht, List.filter_cons_of_pos ht, List.foldl_cons]
        · rw [if_neg ht, List.filter_cons_of_neg ht]

/-- There is no code, or no tag is another name of a language. -/
def IsUnnamed (r ts : List String) : Prop :=
  ("code" ∉ r ∧ "code" ∉ ts) ∨ ∀ t ∈ ts, Language.normalize t = t

theorem IsUnnamed.isFurther_eq {t : String} {r ts : List String} (h : IsUnnamed r (t :: ts)) :
    isFurther r t = (!r.contains t && !generic.contains t) := by
  unfold isFurther
  rcases h with ⟨hcode, -⟩ | hself
  · simp [hcode]
  · rw [hself t List.mem_cons_self]
    cases r.contains t <;> simp

theorem IsUnnamed.of_cons {t : String} {r r' ts : List String} (h : IsUnnamed r (t :: ts))
    (hr : ∀ u ∈ r', u ∈ r ∨ u = t) : IsUnnamed r' ts := by
  rcases h with ⟨hcode, hts⟩ | hself
  · obtain ⟨hne, hts⟩ := List.ne_and_not_mem_of_not_mem_cons hts
    exact .inl ⟨fun hmem => (hr "code" hmem).elim hcode hne, hts⟩
  · exact .inr fun u hu => hself u (List.mem_cons_of_mem t hu)

/-- No tag is passed over as another name of the language of the code. -/
theorem IsUnnamed.foldl_isFurther {ts r : List String} (h : IsUnnamed r ts) :
    ts.foldl (fun r t => if isFurther r t then r ++ [t] else r) r =
      (ts.filter (!generic.contains ·)).foldl addNew r := by
  induction ts generalizing r with
  | nil => rfl
  | cons t ts ih =>
      rw [List.foldl_cons, h.isFurther_eq]
      cases hgeneric : generic.contains t with
      | true =>
          rw [List.filter_cons_of_neg (by simpa using hgeneric), Bool.not_true, Bool.and_false,
            if_neg Bool.false_ne_true, ih (h.of_cons fun u => .inl)]
      | false =>
          have hstep : (if (!r.contains t && !false) = true then r ++ [t] else r) = addNew r t := by
            unfold addNew
            cases r.contains t <;> rfl
          rw [List.filter_cons_of_pos (by simpa using hgeneric), List.foldl_cons, hstep]
          exact ih (h.of_cons fun u => mem_addNew.mp)

/-! ## From the strongest sign to the weakest -/

/-- Code with the language that a tag names, else with a detected one; then the tags for known shapes,
the other ones, and the generic ones. Tags may come twice. -/
def byStrength (cleaned : List String) (detected : Option Language) : List String :=
  let language := cleaned.findSome? Language.named? <|> detected
  (if "code" ∈ cleaned then "code" :: (language.map (·.name)).toList else [])
    ++ priority.filter (cleaned.contains ·)
    ++ cleaned.filter (!generic.contains ·)
    ++ cleaned.filter (generic.contains ·)

section

variable (tags : List String) (d : Option Language)

theorem byStrength_eq : byStrength (dedupe tags) d =
    codePair (dedupe tags) (d.map (·.name)) ++ priority.filter ((dedupe tags).contains ·)
      ++ (dedupe tags).filter (!generic.contains ·) ++ (dedupe tags).filter (generic.contains ·) := by
  rw [codePair_eq, languageIn_eq (tidy_dedupe tags).isTag]
  rfl

/-- Without a language the passes go through the list of all signs one after the other. -/
theorem rank_eq_of_unnamed
    (h : "code" ∈ dedupe tags → (languageIn (dedupe tags) <|> d) = none) :
    rank tags (d.map (·.name)) = (byStrength (dedupe tags) d).eraseDups.take maxTags := by
  have hstart : (codePair (dedupe tags) (d.map (·.name))).foldl addNew [] =
      codePair (dedupe tags) (d.map (·.name)) := by
    rw [codePair_eq]
    split
    · rw [h ‹_›]
      rfl
    · rfl
  have hunnamed : IsUnnamed ((priority.filter ((dedupe tags).contains ·)).foldl addNew
      (codePair (dedupe tags) (d.map (·.name)))) (dedupe tags) := by
    by_cases hcode : "code" ∈ dedupe tags
    · have hnone : languageIn (dedupe tags) = none := by
        have hboth := h hcode
        simp only [Option.orElse_eq_orElse, Option.orElse_eq_or, Option.or_eq_none_iff] at hboth
        exact hboth.1
      exact .inr fun t ht => ((tidy_dedupe tags).isTag t ht).normalize_eq_self
        (languageIn_eq_none_iff.mp hnone t ht)
    · refine .inl ⟨?_, hcode⟩
      rw [codePair_eq, if_neg hcode, ← eraseDups_eq_foldl, List.mem_eraseDups]
      exact fun hmem => absurd (List.mem_of_mem_filter hmem) (by decide)
  rw [byStrength_eq, eraseDups_eq_foldl, List.foldl_append, List.foldl_append, List.foldl_append,
    hstart, ← hunnamed.foldl_isFurther, ← take_fill]
  rfl

theorem rank_eq_byStrength :
    rank tags (d.map (·.name)) = (byStrength (dedupe tags) d).eraseDups.take maxTags := by
  by_cases hcode : "code" ∈ dedupe tags
  · cases hlanguage : languageIn (dedupe tags) <|> d with
    | none => exact rank_eq_of_unnamed tags d fun _ => hlanguage
    | some l =>
        -- The pair fills both places.
        obtain ⟨r, hr, hrank⟩ := exists_grown_rank tags d
        obtain ⟨more, rfl, -⟩ := hr.eq_append
        rw [hrank, byStrength_eq, codePair_eq, if_pos hcode, hlanguage]
        simp [List.eraseDups_cons, maxTags, l.name_ne_code]
  · exact rank_eq_of_unnamed tags d fun h => absurd h hcode

end

/-! ## The kind -/

section

variable {tags : List String} {d : Option Language}

theorem mem_rank_of_head {t : String} {ts : List String} (h : byStrength (dedupe tags) d = t :: ts) :
    t ∈ rank tags (d.map (·.name)) := by
  rw [rank_eq_byStrength, h, List.eraseDups_cons, maxTags, List.take_succ_cons]
  exact List.mem_cons_self

theorem mem_of_mem_rank (hcode : "code" ∉ dedupe tags) {t : String}
    (h : t ∈ rank tags (d.map (·.name))) : t ∈ dedupe tags := by
  rw [rank_eq_byStrength] at h
  have hmem := List.mem_eraseDups.mp (List.mem_of_mem_take h)
  rw [byStrength, if_neg hcode, List.nil_append] at hmem
  rcases List.mem_append.mp hmem with hmem | hmem
  · rcases List.mem_append.mp hmem with hmem | hmem
    · simpa using (List.mem_filter.mp hmem).2
    · exact List.mem_of_mem_filter hmem
  · exact List.mem_of_mem_filter hmem

/-- The first two tags have all that tells the kind. -/
theorem kindOf_rank : kindOf (rank tags (d.map (·.name))) = kindOf (dedupe tags) := by
  by_cases hcode : "code" ∈ dedupe tags
  · have hrank : "code" ∈ rank tags (d.map (·.name)) := by
      apply mem_rank_of_head
      rw [byStrength, if_pos hcode]
      rfl
    rw [kindOf_eq_code_iff.mpr hrank, kindOf_eq_code_iff.mpr hcode]
  · have hrank : "code" ∉ rank tags (d.map (·.name)) := fun h => hcode (mem_of_mem_rank hcode h)
    have hlink : "link" ∈ dedupe tags → "link" ∈ rank tags (d.map (·.name)) := by
      intro h
      apply mem_rank_of_head
      rw [byStrength, if_neg hcode, priority, List.filter_cons_of_pos (by simpa using h)]
      rfl
    have hurl : "url" ∈ dedupe tags → "link" ∉ dedupe tags → "url" ∈ rank tags (d.map (·.name)) := by
      intro h hn
      apply mem_rank_of_head
      rw [byStrength, if_neg hcode, priority, List.filter_cons_of_neg (by simpa using hn),
        List.filter_cons_of_pos (by simpa using h)]
      rfl
    by_cases hl : "link" ∈ dedupe tags
    · rw [kindOf_eq_link_iff.mpr ⟨hrank, .inl (hlink hl)⟩, kindOf_eq_link_iff.mpr ⟨hcode, .inl hl⟩]
    · by_cases hu : "url" ∈ dedupe tags
      · rw [kindOf_eq_link_iff.mpr ⟨hrank, .inr (hurl hu hl)⟩,
          kindOf_eq_link_iff.mpr ⟨hcode, .inr hu⟩]
      · have hnone : ∀ t ∉ dedupe tags, t ∉ rank tags (d.map (·.name)) :=
          fun t ht h => ht (mem_of_mem_rank hcode h)
        simp [kindOf, hcode, hl, hu, hnone]

end

/-- For any tags the ranked ones are the first two different ones of the clean tags from the strongest
sign to the weakest, and they stand for the same kind as all the clean tags. -/
theorem rank_spec (tags : List String) (detected : Option Language) :
    let cleaned := ((tags.map clean).filter (!·.isEmpty)).eraseDups
    let ranked := rank tags (detected.map (·.name))
    ranked = (byStrength cleaned detected).eraseDups.take 2 ∧ kindOf ranked = kindOf cleaned := by
  intro cleaned ranked
  have hcleaned : cleaned = dedupe tags := (dedupe_eq tags).symm
  rw [hcleaned]
  exact ⟨rank_eq_byStrength tags detected, kindOf_rank⟩

example : rank ["Text", "Py", "#Link", "code"] none = ["code", "python"] := by decide +kernel

end Tags

end Clipboard
