import Clipboard.Classify.Classification
import Clipboard.Proofs.Classify.Tags

/-!
How the parts of a classification hang together, whichever stage answered and whatever a model said:
the tags decide between code, links and the rest, and the language, the sender and the colour are
there for their kinds only. Each stage gives a coherent classification with at most two tags, the
upgrade to a message keeps it coherent, and topping up makes the tags exactly two.
-/

namespace Clipboard

open Remote (Outside Labels Transcript)

/-! ## The kind that tags stand for -/

namespace Tags

theorem kindOf_eq_code_iff {ts : List String} : kindOf ts = .code ↔ "code" ∈ ts := by
  unfold kindOf
  split
  · rename_i h; simpa using h
  · rename_i h
    split <;> simpa using h

theorem kindOf_eq_link_iff {ts : List String} :
    kindOf ts = .link ↔ "code" ∉ ts ∧ ("link" ∈ ts ∨ "url" ∈ ts) := by
  unfold kindOf
  split
  · rename_i h; simpa using fun hn => absurd h (by simpa using hn)
  · rename_i h
    split
    · rename_i hl; simpa using ⟨by simpa using h, by simpa using hl⟩
    · rename_i hl; simpa using fun _ => by simpa using hl

theorem kindOf_ne {ts : List String} : kindOf ts ≠ .color ∧ kindOf ts ≠ .message := by
  unfold kindOf
  split
  · decide
  · split <;> decide

end Tags

/-! ## Coherence -/

/-- The tags are well formed and at most two; they decide whether the text is code or a link, and
name the language of code. Only a colour has a colour, only a message a sender. -/
structure Classification.Coherent (r : Classification) : Prop where
  tidy : Tags.Tidy r.tags
  length_le : r.tags.length ≤ Tags.maxTags
  code_iff : r.kind = .code ↔ "code" ∈ r.tags
  link_iff : r.kind = .link ↔ "code" ∉ r.tags ∧ ("link" ∈ r.tags ∨ "url" ∈ r.tags)
  message_mem : r.kind = .message → "message" ∈ r.tags
  color_iff : r.color.isSome ↔ r.kind = .color
  kind_of_contact : r.contact.isSome → r.kind = .message
  language_iff : ∀ l, r.language = some l ↔ r.tags = ["code", l.name]

namespace Classification

theorem coherent_of_kindOf {r : Classification} (hk : r.kind = Tags.kindOf r.tags)
    (ht : Tags.Tidy r.tags) (hlen : r.tags.length ≤ Tags.maxTags) (hcolor : r.color = none)
    (hcontact : r.contact = none) (hl : ∀ l, r.language = some l ↔ r.tags = ["code", l.name]) :
    r.Coherent where
  tidy := ht
  length_le := hlen
  code_iff := hk ▸ Tags.kindOf_eq_code_iff
  link_iff := hk ▸ Tags.kindOf_eq_link_iff
  message_mem := fun h => absurd (hk ▸ h) Tags.kindOf_ne.2
  color_iff := by
    constructor
    · intro h; simp [hcolor] at h
    · intro h; exact absurd (hk ▸ h) Tags.kindOf_ne.1
  kind_of_contact := fun h => by simp [hcontact] at h
  language_iff := hl

/-- No tags of a kind but those of code and links stand for code or a link, and none is a language. -/
theorem mem_floorOf {k : Kind} {t : String} (h : t ∈ Tags.floorOf k) :
    (t = "code" → k = .code) ∧ (t = "link" ∨ t = "url" → k = .link) ∧
      ∀ l : Language, t ≠ l.name := by
  cases k <;> simp only [Tags.floorOf, List.mem_cons, List.not_mem_nil, or_false] at h <;>
    rcases h with rfl | rfl <;>
    exact ⟨by decide, by decide, by intro l; cases l <;> decide⟩

theorem Coherent.withFloor {r : Classification} (h : r.Coherent) :
    Coherent { r with tags := Tags.withFloor r.tags r.kind } := by
  obtain ⟨htidy, hlen, more, he, hmore⟩ := Tags.withFloor_spec r.kind h.tidy h.length_le
  have hcode : "code" ∈ r.tags ++ more ↔ "code" ∈ r.tags := by
    constructor
    · intro hm
      rcases List.mem_append.mp hm with hm | hm
      · exact hm
      · exact h.code_iff.mp ((mem_floorOf (hmore _ hm).1).1 rfl)
    · exact List.mem_append_left more
  refine ⟨htidy, Nat.le_of_eq hlen, ?_, ?_, ?_, h.color_iff, h.kind_of_contact, ?_⟩
  · simp only [he]; exact h.code_iff.trans hcode.symm
  · simp only [he]
    constructor
    · intro hk
      obtain ⟨hc, hl⟩ := h.link_iff.mp hk
      exact ⟨fun hm => hc (hcode.mp hm), hl.imp (List.mem_append_left more)
        (List.mem_append_left more)⟩
    · rintro ⟨hc, hl⟩
      have hc' : "code" ∉ r.tags := fun hm => hc (hcode.mpr hm)
      rcases hl with hl | hl <;> rcases List.mem_append.mp hl with hl | hl
      · exact h.link_iff.mpr ⟨hc', .inl hl⟩
      · exact (mem_floorOf (hmore _ hl).1).2.1 (.inl rfl)
      · exact h.link_iff.mpr ⟨hc', .inr hl⟩
      · exact (mem_floorOf (hmore _ hl).1).2.1 (.inr rfl)
  · simp only [he]; exact fun hk => List.mem_append_left more (h.message_mem hk)
  · intro l
    simp only [he]
    refine (h.language_iff l).trans ?_
    constructor
    · intro ht
      -- Two tags leave no place for more.
      have : more = [] := by
        rw [he, ht] at hlen
        simpa [Tags.maxTags] using hlen
      rw [ht, this]; rfl
    · intro ht
      -- The last of the tags is a language, which topping up never adds.
      have hnil : more = [] := by
        by_contra hne
        have hlast : l.name ∈ more := by
          have hget := congrArg List.getLast? ht
          rw [List.getLast?_append_of_ne_nil _ hne] at hget
          exact List.mem_of_getLast? hget
        exact (mem_floorOf (hmore _ hlast).1).2.2 l rfl
      simpa [hnil] using ht

end Classification

namespace Classifier

open Classification

/-! ## Stages -/

theorem coherent_asCode (c : Classifier) (cs : List Char) (reason : Reason) :
    (c.asCode cs reason).Coherent := by
  refine coherent_of_kindOf ?_ (Tags.tidy_codeWith _) ?_ rfl rfl ?_
  · exact (Tags.kindOf_eq_code_iff.mpr (by simp [asCode])).symm
  · cases hl : c.languageOf? cs <;> simp [asCode, hl, Tags.maxTags]
  · intro l
    cases hl : c.languageOf? cs with
    | none => simp [asCode, hl]
    | some m =>
        simp only [asCode, hl, Option.map_some, Option.toList_some, Option.some.injEq]
        constructor
        · rintro rfl; rfl
        · intro h; exact Language.name_injective (by simpa using h)

/-- A rule other than the one for code gives two tags that stand for a link or for text. -/
theorem rule_tags {r : Rule} (h : r ≠ .codeKeyword) :
    Tags.Tidy r.tags ∧ r.tags.length = Tags.maxTags ∧ "code" ∉ r.tags := by
  cases r <;> first
    | exact absurd rfl h
    | exact ⟨.cons (.of_all (by decide) rfl) (by decide) (.cons (.of_all (by decide) rfl) (by decide)
        .nil), rfl, by decide⟩

theorem coherent_byRules (c : Classifier) (cs : List Char) (app : Option String) :
    (c.byRules cs app).Coherent := by
  unfold byRules
  split
  · exact coherent_asCode c cs _
  · split
    · exact coherent_asCode c cs _
    · rename_i r hne _
      obtain ⟨ht, hlen, hc⟩ := rule_tags hne
      refine coherent_of_kindOf rfl ht (Nat.le_of_eq hlen) rfl rfl fun l => ?_
      simp only [reduceCtorEq, false_iff]
      exact fun he => hc (by rw [he]; exact List.mem_cons_self)
    · refine coherent_of_kindOf rfl ?_ (Nat.le_refl _) rfl rfl fun l => by simp
      exact .cons (.of_all (by decide) rfl) (by decide) (.cons (.of_all (by decide) rfl) (by decide)
        .nil)

/-- Tags that name a language only beside code say everything about a text. -/
theorem coherent_ofTags {tags : List String} (confidence : Float) (ht : Tags.Tidy tags)
    (hlen : tags.length ≤ Tags.maxTags)
    (hl : "code" ∈ tags → ∀ l, Tags.languageIn tags = some l ↔ tags = ["code", l.name]) :
    Coherent {
      kind := Tags.kindOf tags, tags, confidence
      language := if Tags.kindOf tags = .code then Tags.languageIn tags else none
      reason := .model } := by
  refine coherent_of_kindOf rfl ht hlen rfl rfl fun l => ?_
  dsimp only
  by_cases hc : "code" ∈ tags
  · rw [if_pos (Tags.kindOf_eq_code_iff.mpr hc)]
    exact hl hc l
  · rw [if_neg fun h => hc (Tags.kindOf_eq_code_iff.mp h)]
    constructor
    · intro h; cases h
    · intro h; exact absurd (h ▸ List.mem_cons_self) hc

theorem coherent_ofLabels (c : Classifier) (cs : List Char) (labels : Labels) :
    (c.ofLabels cs labels).Coherent := by
  have hrank := coherent_ofTags labels.confidence (Tags.tidy_rank labels.tags (c.languageOf? cs))
    (Tags.length_rank_le _ _) Tags.languageIn_rank_eq_some_iff
  unfold ofLabels
  dsimp only
  split
  · rename_i m _ _
    refine coherent_ofTags labels.confidence (Tags.tidy_codeWith (some m)) (Nat.le_refl _)
      fun _ l => ?_
    rw [Tags.languageIn_codeWith]
    constructor
    · rintro ⟨⟩; rfl
    · intro h; exact congrArg some (Language.name_injective (by simpa using h))
  · exact hrank

theorem coherent_ofColor (color : Color) :
    Coherent { kind := .color, tags := ["color", "design"], reason := .color, color } where
  tidy := .cons (.of_all (by decide) rfl) (by decide) (.cons (.of_all (by decide) rfl) (by decide)
    .nil)
  length_le := Nat.le_refl _
  code_iff := by simp
  link_iff := by simp
  message_mem := fun h => nomatch h
  color_iff := by simp
  kind_of_contact := fun h => nomatch h
  language_iff := fun l => by simp

theorem coherent_link :
    Coherent { kind := .link, tags := ["link", "url"], reason := .link } :=
  coherent_of_kindOf (by decide) (rule_tags (r := .link) (by decide)).1 (Nat.le_refl _) rfl rfl
    fun l => by simp

/-- A model answers with labels, or is passed over. -/
theorem byModel_cases (o : Outside) (c : Classifier) (cs : List Char) (t : Transcript) :
    (c.byModel o cs t).1 = none ∨ ∃ labels, (c.byModel o cs t).1 = some (c.ofLabels cs labels) := by
  unfold byModel
  cases c.labeller with
  | none => exact .inl rfl
  | some l =>
      rcases hr : (l.label o (.ofList cs)).run t with ⟨answer, t'⟩
      cases answer with
      | ok labels => exact .inr ⟨labels, by simp only [bind, StateT.bind, hr]; rfl⟩
      | error f => exact .inl (by simp only [bind, StateT.bind, hr]; rfl)

theorem coherent_byStages (o : Outside) (c : Classifier) (cs : List Char) (app : Option String)
    (t : Transcript) : (c.byStages o cs app t).1.Coherent := by
  unfold byStages
  cases Color.ofText? cs with
  | some color => exact coherent_ofColor color
  | none =>
      by_cases hl : Link.isLink cs = true
      · simp only [hl, if_true]; exact coherent_link
      · simp only [hl]
        show (((c.byModel o cs t).1).getD (c.byRules cs app)).Coherent
        rcases byModel_cases o c cs t with h | ⟨labels, h⟩
        · rw [h]; exact coherent_byRules c cs app
        · rw [h]; exact coherent_ofLabels c cs labels

/-! ## Messages -/

theorem coherent_upgradeMessage (c : Classifier) (cs : List Char) (app : Option String)
    {r : Classification} (h : r.Coherent) : (c.upgradeMessage cs app r).Coherent := by
  unfold upgradeMessage
  dsimp only
  split
  · rename_i hc
    simp only [Bool.and_eq_true, decide_eq_true_eq] at hc
    have hk := hc.1
    -- Plain text has none of the tags that decide the kind, and gets none but `message`.
    have hcode : "code" ∉ r.tags := fun hm => by simpa [hk] using h.code_iff.mpr hm
    have hlink : ¬("link" ∈ r.tags ∨ "url" ∈ r.tags) := fun hm => by
      simpa [hk] using h.link_iff.mpr ⟨hcode, hm⟩
    have hmem : ∀ t, t ≠ "message" → t ∉ r.tags → t ∉ Tags.ensure r.tags "message" :=
      fun t hne hn hm => (Tags.mem_of_mem_ensure hm).elim hne hn
    refine ⟨Tags.tidy_ensure (.of_all (by decide) rfl) h.tidy, Tags.length_ensure_le _ h.length_le,
      ?_, ?_, fun _ => Tags.mem_ensure_self _ _, ?_, fun _ => rfl, ?_⟩
    · simpa using hmem "code" (by decide) hcode
    · simp only [reduceCtorEq, false_iff]
      rintro ⟨-, hm⟩
      exact hm.elim (hmem "link" (by decide) fun hm => hlink (.inl hm))
        (hmem "url" (by decide) fun hm => hlink (.inr hm))
    · simp only [reduceCtorEq, iff_false]
      exact fun hs => by simpa [hk] using h.color_iff.mp hs
    · intro l
      constructor
      · intro hl
        exact absurd (by rw [(h.language_iff l).mp hl]; exact List.mem_cons_self) hcode
      · intro he
        dsimp only at he
        exact absurd (by rw [he]; exact List.mem_cons_self) (hmem "code" (by decide) hcode)
  · exact h

/-! ## The classifier -/

/-- A text that is not blank goes through the stages, may be upgraded, and is topped up. -/
theorem classify_eq (c : Classifier) (o : Outside) (text : String) (app : Option String)
    (t : Transcript) (h : ¬Text.isBlank text.toList) :
    let answer := c.byStages o text.toList app t
    let r := c.upgradeMessage text.toList app answer.1
    c.classify o text app t = (some { r with tags := Tags.withFloor r.tags r.kind }, answer.2) := by
  simp only [classify, h, Bool.false_eq_true, if_false]
  rfl

/-- Blank text is nothing. Any other text has exactly two tags, well formed and different, with
which its kind, language, sender and colour agree, whatever is consulted and whatever it says. -/
theorem classify_coherent (o : Outside) (c : Classifier) (text : String) (app : Option String)
    (t : Transcript) :
    if Text.isBlank text.toList then (c.classify o text app t).1 = none
    else ∃ r, (c.classify o text app t).1 = some r ∧ r.Coherent ∧ r.tags.length = 2 := by
  unfold classify
  by_cases hb : Text.isBlank text.toList = true
  · simp only [hb, if_true]; rfl
  · simp only [hb]
    have hs := c.coherent_upgradeMessage text.toList app (c.coherent_byStages o text.toList app t)
    exact ⟨_, rfl, hs.withFloor, (Tags.withFloor_spec _ hs.tidy hs.length_le).2.1⟩

end Classifier

end Clipboard
