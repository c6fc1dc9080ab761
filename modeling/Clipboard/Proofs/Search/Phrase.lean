import Clipboard.Proofs.Search.Match
import Clipboard.Proofs.Text.Lower
import Clipboard.Search.Query

/-!
Text that is searched for as it stands. The search and the snippet are lowered apart from each other,
so that a text is found where it stands in a snippet if its capital sigmas lower there as they do in
the search.
-/

namespace Clipboard

open Fallible
open Remote (Outside Transcript)
open Text (KeepsSigmas hasPart lower nextIsCased trim)

/-! ## Texts with halves of pairs -/

namespace Text.CodePoint

theorem runs_ne_nil (ps : List CodePoint) : runs ps ≠ [] := by
  cases ps with
  | nil => simp [runs]
  | cons p ps =>
      cases p with
      | half k => simp [runs]
      | char c =>
          unfold runs
          split <;> simp

theorem isPrefix_iff {part : List Char} {ps : List CodePoint} :
    part.map char <+: ps ↔ part <+: (runs ps).headD [] := by
  induction ps generalizing part with
  | nil => simp [runs]
  | cons p ps ih =>
      cases part with
      | nil => simp
      | cons d part =>
          cases p with
          | half k => simp [runs]
          | char c =>
              obtain ⟨run, rest, hruns⟩ := List.exists_cons_of_ne_nil (runs_ne_nil ps)
              have hrest : part.map char <+: ps ↔ part <+: (runs ps).headD [] := ih
              rw [hruns] at hrest
              simp only [runs, hruns, List.map_cons, List.headD_cons, List.cons_prefix_cons, char.injEq]
              exact and_congr_right fun _ => hrest

/-- A text of characters stands among code points exactly if it stands in one of their runs. -/
theorem isInfix_iff {part : List Char} {ps : List CodePoint} :
    part.map char <:+: ps ↔ ∃ run ∈ runs ps, part <:+: run := by
  induction ps with
  | nil => simp [runs]
  | cons p ps ih =>
      rw [List.infix_cons_iff, isPrefix_iff, ih]
      cases p with
      | half k =>
          simp only [runs, List.headD_cons, List.prefix_nil, List.exists_mem_cons_iff, List.infix_nil]
      | char c =>
          obtain ⟨run, rest, hruns⟩ := List.exists_cons_of_ne_nil (runs_ne_nil ps)
          simp only [runs, hruns, List.headD_cons, List.exists_mem_cons_iff, List.infix_cons_iff,
            or_assoc]

end Text.CodePoint

/-! ## Plain input -/

theorem Query.ofInput_text {input : List Char} (hgiven : trim input ≠ [])
    (hplain : (trim input).head? ≠ some '/') : ofInput input = .text (trim input) := by
  unfold ofInput
  split
  · rename_i hnil
    exact absurd hnil hgiven
  · rename_i hslash
    simp [hslash] at hplain
  · rfl

namespace Matcher

open Search (Fault)

/-! ## Finding a phrase -/

theorem mem_haystack_iff {s : Snippet} {texts : List (List Char)} (h : haystack s = .ok texts)
    (text : List Char) :
    text ∈ texts ↔ ∃ v ∈ textsOf s, ∃ cs ∈ v.runs, text = lower cs := by
  obtain ⟨lists, hlists, htexts⟩ := bind_eq_ok_iff.mp h
  obtain rfl : lists.flatten = texts := Except.ok.inj htexts
  have hall : ∀ v ∈ textsOf s, v.isText := haystack_succeeds_iff.mp ⟨_, h⟩
  rw [List.mem_flatten]
  constructor
  · rintro ⟨list, hlist, htext⟩
    obtain ⟨v, hv, hlowered⟩ := (mem_of_mapM hlists list).mp hlist
    obtain ⟨-, rfl⟩ := lowered_eq_ok_iff.mp hlowered
    obtain ⟨cs, hcs, rfl⟩ := List.mem_map.mp htext
    exact ⟨v, hv, cs, hcs, rfl⟩
  · rintro ⟨v, hv, cs, hcs, rfl⟩
    exact ⟨v.runs.map lower,
      (mem_of_mapM hlists _).mpr ⟨v, hv, lowered_eq_ok_iff.mpr ⟨hall v hv, rfl⟩⟩,
      List.mem_map_of_mem hcs⟩

/-- Some text of the snippet shows the text in lower case. -/
def ShowsPhrase (s : Snippet) (part : List Char) : Prop :=
  ∃ v ∈ s.content :: s.notes ++ s.source :: s.tags, ∃ cs ∈ v.runs, hasPart (lower part) (lower cs)

theorem isPresent_of_mem_runs {v : Json} {cs : List Char} (h : cs ∈ v.runs) (hcs : cs ≠ []) :
    v.isPresent := by
  cases v with
  | text s =>
      obtain rfl := List.mem_singleton.mp h
      simpa [Json.isPresent] using hcs
  | torn points =>
      cases points with
      | nil => exact absurd (List.mem_singleton.mp h) hcs
      | cons p points => rfl
  | _ => cases h

theorem hasPhrase_textFilter_iff {s : Snippet} (h : ∀ v ∈ textsOf s, v.isText) (c : Compiler)
    {part : List Char} (hpart : part ≠ []) :
    HasPhrase s (c.textFilter part) ↔ ShowsPhrase s part := by
  obtain ⟨texts, htexts⟩ := haystack_succeeds_iff.mpr h
  have hphrase : String.ofList (lower part) ≠ "" := by
    simpa using Text.lower_ne_nil hpart
  have hholds : HasPhrase s (c.textFilter part) ↔ ∃ text ∈ texts, hasPart (lower part) text := by
    simp [HasPhrase, htexts, Compiler.textFilter, Filter.ofText, hphrase, holds]
  rw [hholds]
  constructor
  · rintro ⟨text, htext, hfound⟩
    obtain ⟨v, hv, cs, hcs, rfl⟩ := (mem_haystack_iff htexts text).mp htext
    exact ⟨v, (List.mem_filter.mp hv).1, cs, hcs, hfound⟩
  · rintro ⟨v, hv, cs, hcs, hfound⟩
    have hne : cs ≠ [] := by
      rintro rfl
      have hnil : lower part = [] := List.infix_nil.mp (Text.hasPart_iff_isInfix.mp hfound)
      exact Text.lower_ne_nil hpart hnil
    have hpresent : v ∈ textsOf s := List.mem_filter.mpr ⟨hv, isPresent_of_mem_runs hcs hne⟩
    exact ⟨lower cs, (mem_haystack_iff htexts _).mpr ⟨v, hpresent, cs, hcs, rfl⟩, hfound⟩

/-- Enough of the words of the filter are found. -/
def ShowsWords (m : Matcher) (s : Snippet) (f : Filter) : Prop :=
  f.terms ≠ [] ∧ ∃ texts n, haystack s = .ok texts ∧
    needed m.minMatchRatio f.terms.length = .ok n ∧ n ≤ f.terms.countP (holds texts)

theorem hasText_eq_true_iff {m : Matcher} {s : Snippet} {f : Filter} :
    m.hasText s f = .ok true ↔ HasPhrase s f ∨ m.ShowsWords s f := by
  unfold hasText HasPhrase ShowsWords
  cases haystack s with
  | error e => simp [bind, Except.bind]
  | ok texts =>
      have hphrase : (f.freeText.any fun t => !t.isEmpty && holds texts t) = true ↔
          ∃ phrase ∈ f.freeText, phrase ≠ "" ∧ holds texts phrase := by
        simp [Option.any_eq_true]
      have hwords : f.terms.isEmpty = true ↔ f.terms = [] := List.isEmpty_iff
      simp only [Except.ok.injEq, exists_eq_left', ← hphrase]
      cases hfound : (f.freeText.any fun t => !t.isEmpty && holds texts t) with
      | true => simp [bind, Except.bind, pure, Except.pure, hfound]
      | false =>
          cases hnone : f.terms.isEmpty with
          | true => simp [bind, Except.bind, pure, Except.pure, hfound, hwords.mp hnone]
          | false =>
              have hsome : f.terms ≠ [] := fun hnil => by simp [hnil] at hnone
              cases needed m.minMatchRatio f.terms.length <;>
                simp [bind, Except.bind, pure, Except.pure, hfound, hsome]

theorem accepts_textFilter (m : Matcher) (c : Compiler) {part : List Char} (hpart : part ≠ [])
    (s : Snippet) : m.accepts (c.textFilter part) s = m.hasText s (c.textFilter part) := by
  have hgiven : Filter.isGiven (some (String.ofList (lower part))) := by
    simpa [Filter.isGiven] using Text.lower_ne_nil hpart
  simp [accepts, given, hasDate, hgiven, Compiler.textFilter, Filter.ofText, bind, Except.bind]

end Matcher

namespace Compiler

open Matcher (ShowsPhrase textsOf)

variable (m : Matcher) (c : Compiler) (o : Outside) (now : Calendar.Moment) (input : String)
  (previous : Option Filter) (relaxed : Bool) (t : Transcript)

theorem compile_text {part : List Char} (h : Query.ofInput input.toList = .text part) :
    ((c.compile o now input previous relaxed).run t).1 = .ok (c.textFilter part) := by
  simp only [compile, h]
  rfl

/-- A snippet passes the filter of a text exactly if one of its texts shows the text, letters in lower
case, or it has enough of the words. It does if the text stands in it as it is and the capital sigmas
of the text end the same words there as in the search; so they do if there are none, and if no letter
is next to the text. -/
theorem accepts_compile_iff {s : Snippet} (h : ∀ v ∈ textsOf s, v.isText)
    (hgiven : trim input.toList ≠ []) (hplain : (trim input.toList).head? ≠ some '/') :
    let part := trim input.toList
    ∃ f, ((c.compile o now input previous relaxed).run t).1 = .ok f ∧
      (m.accepts f s = .ok true ↔ ShowsPhrase s part ∨ m.ShowsWords s f) ∧
      ∀ v ∈ s.content :: s.notes ++ s.source :: s.tags, ∀ front back,
        front ++ part ++ back ∈ v.runs →
          (KeepsSigmas front.reverse back part → m.accepts f s = .ok true) ∧
          ('Σ' ∉ part ∨ ¬nextIsCased front.reverse ∧ ¬nextIsCased back →
            KeepsSigmas front.reverse back part) := by
  intro part
  have hcompile := compile_text c o now input previous relaxed t (Query.ofInput_text hgiven hplain)
  have hiff : m.accepts (c.textFilter part) s = .ok true ↔
      ShowsPhrase s part ∨ m.ShowsWords s (c.textFilter part) := by
    rw [Matcher.accepts_textFilter m c hgiven, Matcher.hasText_eq_true_iff,
      Matcher.hasPhrase_textFilter_iff h c hgiven]
  refine ⟨c.textFilter part, hcompile, hiff, fun v hv front back hverbatim => ⟨fun hkeeps => ?_, ?_⟩⟩
  · exact hiff.mpr (.inl ⟨v, hv, _, hverbatim, hkeeps.hasPart⟩)
  · rintro (hnone | ⟨hbefore, hafter⟩)
    · exact .of_not_mem hnone
    · exact .of_apart hbefore hafter

/-- A star, in capitals. -/
def star (now : Calendar.Moment) : Snippet where
  id := .text "1"
  content := .text "ΑΣΤΗΡ"
  source := .text "Mail"
  moment := now
  tags := [.text "note"]
  variant := .text
  tags_ne_nil := by decide

/-- The first three letters are found; the first two end in a sigma that lowers otherwise when it is
the last letter. -/
theorem accepts_compile_iff_star :
    let now : Calendar.Moment := ⟨⟨2024, 5, 1, by decide, by decide, by decide⟩, .midnight⟩
    let isFound (input : String) : Prop := ∃ f,
      ((({} : Compiler).compile (.replying "") now input none false).run {}).1 = .ok f ∧
        ({} : Matcher).accepts f (star now) = .ok true
    isFound "ΑΣΤ" ∧ ¬isFound "ΑΣ" := by
  intro now isFound
  have htexts : ∀ v ∈ textsOf (star now), v.isText := by
    intro v hv
    have hv := (List.mem_filter.mp hv).1
    simp only [star, List.mem_cons, List.not_mem_nil, or_false, List.cons_append,
      List.nil_append] at hv
    rcases hv with rfl | rfl | rfl <;> rfl
  have htrim : trim "ΑΣΤ".toList = "ΑΣΤ".toList ∧ trim "ΑΣ".toList = "ΑΣ".toList := by
    decide
  constructor
  · obtain ⟨f, hf, -, hverbatim⟩ := accepts_compile_iff {} {} (.replying "") now "ΑΣΤ"
      none false {} htexts (by decide) (by decide)
    rw [htrim.1] at hverbatim
    obtain ⟨hkeeps, -⟩ := hverbatim (star now).content List.mem_cons_self [] "ΗΡ".toList
      (List.mem_singleton_self _)
    exact ⟨f, hf, hkeeps (Text.lowerBetween_eq_lower_iff.mp (by decide +kernel))⟩
  · rintro ⟨f, hf, haccepts⟩
    obtain ⟨g, hg, hiff, -⟩ := accepts_compile_iff {} {} (.replying "") now "ΑΣ"
      none false {} htexts (by decide) (by decide)
    rw [htrim.2] at hiff
    obtain rfl : f = g := Except.ok.inj (hf.symm.trans hg)
    have hfilter : f = ({} : Compiler).textFilter (trim "ΑΣ".toList) :=
      Except.ok.inj (hf.symm.trans
        (compile_text _ _ _ _ _ _ _ (Query.ofInput_text (by decide) (by decide))))
    have hshown : ∀ text ∈ ["ΑΣΤΗΡ", "Mail", "note"],
        ¬hasPart (lower "ΑΣ".toList) (lower text.toList) := by
      decide +kernel
    rcases hiff.mp haccepts with ⟨v, hv, cs, hcs, hpart⟩ | ⟨hterms, -⟩
    · simp only [star, List.mem_cons, List.not_mem_nil, or_false, List.cons_append,
        List.nil_append] at hv
      rcases hv with rfl | rfl | rfl <;> obtain rfl := List.mem_singleton.mp hcs <;>
        exact hshown _ (by simp) hpart
    · have hnone : (({} : Compiler).textFilter (trim "ΑΣ".toList)).terms = [] := by
        decide +kernel
      exact hterms (hfilter ▸ hnone)

end Compiler

end Clipboard
