import Clipboard.Proofs.Classify.Model
import Clipboard.Proofs.Pattern.Match
import Clipboard.Proofs.Text.Lower

/-!
When a classifier without a model takes an error report for code. A report never looks like code, but that
is only the first question: the rules come after it, and the one for keywords of code does not ask whether
the text reports an error.
-/

namespace Clipboard

open Remote (Outside Transcript)

namespace Rule

/-- The rules that are tried before the one for keywords of code. -/
def beforeKeyword : List Rule := [link, email, error, list, message]

theorem first?_eq_codeKeyword_iff {s : ClassifierSettings} {cs : List Char} {app : Option String} :
    first? s cs app = some .codeKeyword ↔
      Shape.codeKeyword.found cs ∧ ∀ r ∈ beforeKeyword, ¬r.holds s cs app := by
  have hall : all = beforeKeyword ++ codeKeyword ::
      [todo, meeting, longText, multiLine, greeting, sentence] := rfl
  rw [first?, hall, List.find?_append]
  cases hbefore : beforeKeyword.find? (·.holds s cs app) with
  | some r =>
      have hmem := List.mem_of_find?_eq_some hbefore
      have hholds : r.holds s cs app := List.find?_some hbefore
      have hne : r ≠ codeKeyword := fun he => absurd (he ▸ hmem) (by decide)
      exact iff_of_false (by simpa using hne) fun h => h.2 r hmem hholds
  | none =>
      have hnone : ∀ r ∈ beforeKeyword, ¬r.holds s cs app := List.find?_eq_none.mp hbefore
      rw [Option.none_or, List.find?_cons, and_iff_left hnone]
      cases hkeyword : codeKeyword.holds s cs app with
      | true => exact iff_of_true rfl hkeyword
      | false =>
          have hfound : ¬Shape.codeKeyword.found cs := Bool.eq_false_iff.mp hkeyword
          refine iff_of_false (fun hlater => ?_) hfound
          exact absurd (List.mem_of_find?_eq_some hlater) (by decide)

/-- The head of a traceback is output of an error to the rules, too. -/
theorem error_holds_of_traceback {s : ClassifierSettings} {cs : List Char} {app : Option String}
    (h : "Traceback (most recent call last)".toList <:+: cs) : error.holds s cs app := by
  obtain ⟨front, back, rfl⟩ := h
  rw [List.append_assoc]
  refine Pattern.isSome_searchFrom (fun k hk => Pattern.isSome_match_oneOf ?_) front
  obtain ⟨l, hl⟩ := Pattern.run_exactly hk some
  exact Option.isSome_of_mem hl

end Rule

namespace Code

theorem not_looksLikeCode {cs : List Char} (h : reportsError (Text.trim cs)) (t : Thresholds) :
    ¬looksLikeCode cs t := by
  simp [looksLikeCode, h]

theorem not_isBlank_of_reportsError {cs : List Char} (h : reportsError (Text.trim cs)) :
    ¬Text.isBlank cs := by
  intro hblank
  rw [Text.trim_of_isBlank hblank] at h
  exact absurd h (by decide)

end Code

namespace Classifier

variable (o : Outside) (c : Classifier) (cs : List Char) (app : Option String) (t : Transcript)

theorem kind_upgradeMessage_eq_code_iff (r : Classification) :
    (c.upgradeMessage cs app r).kind = .code ↔ r.kind = .code := by
  rcases c.kind_upgradeMessage cs app r with h | ⟨htext, hmessage⟩
  · rw [h]
  · simp [htext, hmessage]

/-- Colours and addresses are no code. -/
theorem kind_byStages_of_not_isOpen (hblank : ¬Text.isBlank cs) (h : ¬IsOpen cs) :
    (c.byStages o cs app t).1.kind ≠ .code := by
  rcases color_or_link_of_not_isOpen hblank h with ⟨color, hcolor⟩ | ⟨hcolor, hlink⟩
  · simp only [byStages, hcolor]
    exact Kind.noConfusion
  · simp only [byStages, hcolor, hlink, if_true]
    exact Kind.noConfusion

theorem kind_byRules_eq_code_iff (h : ¬Code.looksLikeCode cs c.thresholds) :
    (c.byRules cs app).kind = .code ↔ Rule.first? c.settings cs app = some .codeKeyword := by
  unfold byRules
  rw [if_neg h]
  split
  · exact iff_of_true rfl ‹_›
  · rename_i r hne hfirst
    have hcode : Tags.kindOf r.tags ≠ .code := fun h =>
      (rule_tags hne).2.2 (Tags.kindOf_eq_code_iff.mp h)
    exact iff_of_false hcode (by simpa [hfirst] using hne)
  · exact iff_of_false nofun (by simp [*])

/-- An error report is code, without a model, exactly if it is left to the rules and the one for
keywords of code is the first that holds. A traceback never is. -/
theorem kind_of_reportsError (text : String) (hlabeller : c.labeller = none)
    (h : Code.reportsError (Text.trim text.toList)) :
    ∃ r, (c.classify o text app t).1 = some r ∧
      (r.kind = .code ↔ IsOpen text.toList ∧ Shape.codeKeyword.found text.toList ∧
        ∀ rule ∈ Rule.beforeKeyword, ¬rule.holds c.settings text.toList app) ∧
      ("Traceback (most recent call last)".toList <:+: text.toList → r.kind ≠ .code) := by
  have hblank := Code.not_isBlank_of_reportsError h
  have hkind : (c.upgradeMessage text.toList app (c.byStages o text.toList app t).1).kind = .code ↔
      IsOpen text.toList ∧ Shape.codeKeyword.found text.toList ∧
        ∀ rule ∈ Rule.beforeKeyword, ¬rule.holds c.settings text.toList app := by
    rw [kind_upgradeMessage_eq_code_iff]
    by_cases hopen : IsOpen text.toList
    · rw [byStages_of_not_takes o c text.toList app t hopen (by simp [hlabeller]),
        kind_byRules_eq_code_iff c text.toList app (Code.not_looksLikeCode h _),
        Rule.first?_eq_codeKeyword_iff, and_iff_right hopen]
    · exact iff_of_false (kind_byStages_of_not_isOpen o c text.toList app t hblank hopen)
        fun h => hopen h.1
  rw [classify_eq c o text app t hblank]
  refine ⟨_, rfl, hkind, fun htraceback hcode => ?_⟩
  obtain ⟨-, -, hbefore⟩ := hkind.mp hcode
  exact hbefore .error (by decide) (Rule.error_holds_of_traceback htraceback)

/-- A failed push is taken for code, since it begins with a command. A traceback is not. -/
theorem kind_of_reportsError_push :
    let kind (text : String) := (({} : Classifier).classify (.replying "") text none {}).1.map (·.kind)
    kind "git push failed: permission denied" = some .code ∧
      ∃ k ≠ Kind.code, kind "Traceback (most recent call last):\n  import os" = some k := by
  intro kind
  constructor
  · obtain ⟨r, hr, hcode, -⟩ := kind_of_reportsError (.replying "") {} none {}
      "git push failed: permission denied" rfl (by decide +kernel)
    have hopen : IsOpen "git push failed: permission denied".toList :=
      ⟨by decide +kernel, by decide +kernel, by decide +kernel⟩
    have hkind := hcode.mpr ⟨hopen, by decide +kernel, by decide +kernel⟩
    simp only [kind, hr, Option.map_some, hkind]
  · obtain ⟨r, hr, -, htraceback⟩ := kind_of_reportsError (.replying "") {} none {}
      "Traceback (most recent call last):\n  import os" rfl (by decide +kernel)
    refine ⟨r.kind, htraceback ?_, ?_⟩
    · exact ⟨[], ":\n  import os".toList, by decide +kernel⟩
    · simp only [kind, hr, Option.map_some]

end Classifier

end Clipboard
