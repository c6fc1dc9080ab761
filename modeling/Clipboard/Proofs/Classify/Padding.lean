import Clipboard.Proofs.Classify.Model
import Clipboard.Proofs.Code.Markers
import Clipboard.Proofs.Shape.Blanks

/-!
What a text with blanks around it is, without a model. The kind and the tags are those of the text alone unless a
rule decides that sees the blanks: the one for long text counts them, and the one for error output may need one in
front of a line of a stack trace. Some of the signs that tell the language of code see them too.
-/

namespace Clipboard

open Text (isSpace isBlank trim)
open Remote (Outside Transcript)

/-- What a text is said to be. -/
structure Verdict where
  kind : Kind
  tags : List String
  deriving DecidableEq

def Classification.verdict (r : Classification) : Verdict := ⟨r.kind, r.tags⟩

/-- The verdict in the end, on text that would be a message or not. -/
def Verdict.finished (message : Bool) (v : Verdict) : Verdict :=
  let v := if v.kind = .text && message then ⟨.message, Tags.ensure v.tags "message"⟩ else v
  ⟨v.kind, Tags.withFloor v.tags v.kind⟩

/-- Two searches agree if they agree on each item that is reached. -/
theorem find?_eq_find?_iff {α : Type} [DecidableEq α] {p q : α → Bool} {l : List α} : l.find? p = l.find? q ↔
    ∀ x ∈ l, (∀ y ∈ l.takeWhile (· != x), ¬p y) → (p x ↔ q x) := by
  induction l with
  | nil => simp
  | cons x l ih =>
      have hreach {y : α} (hy : y ≠ x) : (∀ z ∈ (x :: l).takeWhile (· != y), ¬p z) ↔
          ¬p x ∧ ∀ z ∈ l.takeWhile (· != y), ¬p z := by
        rw [List.takeWhile_cons_of_pos (by simpa using hy.symm), List.forall_mem_cons]
      have hfirst : (x :: l).takeWhile (· != x) = [] := List.takeWhile_cons_of_neg (by simp)
      rw [List.forall_mem_cons, hfirst]
      cases hp : p x <;> cases hq : q x
      · -- The first item is none of both, so that the rest decides.
        rw [List.find?_cons_of_neg (by simp [hp]), List.find?_cons_of_neg (by simp [hq]), ih]
        refine ⟨fun h => ⟨by simp, fun y hy hbefore => ?_⟩, fun h y hy hbefore => ?_⟩
        all_goals by_cases hyx : y = x
        · simp [hyx, hp, hq]
        · exact h y hy ((hreach hyx).mp hbefore).2
        · simp [hyx, hp, hq]
        · exact h.2 y hy ((hreach hyx).mpr ⟨by simp [hp], hbefore⟩)
      · rw [List.find?_cons_of_pos hq, List.find?_cons_of_neg (by simp [hp])]
        refine iff_of_false (fun h => ?_) fun h => by simpa using h.1
        simpa [hp] using List.find?_some h
      · rw [List.find?_cons_of_pos hp, List.find?_cons_of_neg (by simp [hq])]
        refine iff_of_false (fun h => ?_) fun h => by simpa using h.1
        simpa [hq] using List.find?_some h.symm
      · rw [List.find?_cons_of_pos hp, List.find?_cons_of_pos hq]
        refine iff_of_true rfl ⟨by simp, fun y _ hbefore => ?_⟩
        by_cases hyx : y = x
        · simp [hyx, hp, hq]
        · exact absurd hp ((hreach hyx).mp hbefore).1

section

variable {front back cs : List Char} (hfront : isBlank front) (hback : isBlank back)
include hfront hback

theorem Text.trim_padded : trim (front ++ cs ++ back) = trim cs := by
  rw [trim_append_of_isBlank hback, trim, List.dropWhile_append_of_pos (List.all_eq_true.mp hfront), trim]

theorem Text.isBlank_padded : isBlank (front ++ cs ++ back) = isBlank cs := by
  rw [isBlank, List.all_append, List.all_append, ← isBlank, ← isBlank, ← isBlank, hfront, hback, Bool.true_and,
    Bool.and_true]

end

namespace Rule

/-- The pattern that a rule looks for, if it looks for just one. -/
def pattern? : Rule → Option Pattern
  | link => some Link.part
  | email => some Shape.email
  | codeKeyword => some Shape.codeKeyword
  | todo => some Shape.reminder
  | meeting => some Shape.meeting
  | greeting => some Shape.greeting
  | error | list | message | longText | multiLine | sentence => none

section

variable {r : Rule} {a : Pattern} (s : ClassifierSettings) (app : Option String)

theorem holds_eq_found (h : a ∈ r.pattern?) (cs : List Char) : r.holds s cs app = a.found cs := by
  cases r <;> cases h <;> rfl

attribute [local simp] Link.part Link.opening Shape.email Shape.codeKeyword Shape.reminder Shape.meeting Shape.greeting

set_option maxRecDepth 10000 in
theorem overlooks_of_mem_pattern? (h : a ∈ r.pattern?) : a.Overlooks := by
  cases r <;> cases h
  case link => exact .solid
  case email => exact .solid
  case codeKeyword => exact .solid
  case todo => exact .alt .solid (.indented {})
  case meeting => exact .solid
  case greeting => exact .indented {}

/-- Most rules hold of the text with the blanks exactly if they hold of the text alone. -/
theorem holds_padded (herror : r ≠ error) (hlong : r ≠ longText) {front back cs : List Char}
    (hfront : isBlank front) (hback : isBlank back) : r.holds s (front ++ cs ++ back) app = r.holds s cs app := by
  have hpattern (a : Pattern) (ha : a ∈ r.pattern?) : r.holds s (front ++ cs ++ back) app = r.holds s cs app := by
    rw [holds_eq_found s app ha, holds_eq_found s app ha, (overlooks_of_mem_pattern? ha).found_eq hfront hback]
  cases r with
  | error => exact absurd rfl herror
  | list => exact decide_eq_decide.mpr (Shape.two_le_count_listItem_padded hfront hback)
  | message => rw [holds, holds, Shape.senderName?_padded hfront hback]
  | longText => exact absurd rfl hlong
  | multiLine | sentence => rw [holds, holds, Text.trim_padded hfront hback]
  | link | email | codeKeyword | todo | meeting | greeting => exact hpattern _ rfl

end

end Rule

namespace Classifier

/-! ## What decides without a model -/

section

variable (c : Classifier) (cs : List Char) (app : Option String)

/-- The rule that decides without a model. Text that looks like code is code as by the rule for it. -/
def decisive? : Option Rule :=
  if Code.looksLikeCode cs c.thresholds then some .codeKeyword else Rule.first? c.settings cs app

/-- Whether the rule is asked: the text does not look like code, and no rule before it holds. -/
def Asks (r : Rule) : Prop :=
  ¬Code.looksLikeCode cs c.thresholds ∧ ∀ r' ∈ Rule.all.takeWhile (· != r), ¬r'.holds c.settings cs app

theorem asks_of_decisive?_eq_none (h : c.decisive? cs app = none) (r : Rule) : c.Asks cs app r := by
  rw [decisive?] at h
  split at h
  · cases h
  · rename_i hlooks
    exact ⟨hlooks, fun r' hr' => List.find?_eq_none.mp h r' ((List.takeWhile_sublist _).subset hr')⟩

/-- Whether plain text would be a message. -/
def showsMessage : Bool :=
  (Shape.senderName? cs).isSome || isMessagingApp app c.settings.messagingApps ||
    ((trim cs).length : Int) ≤ c.settings.messageMaxChars && Shape.reportingVerb.found cs

/-- The verdict by a rule, or by none, on a text in a language. -/
def verdictBy (language : Option Language) : Option Rule → Verdict
  | some .codeKeyword => ⟨.code, "code" :: (language.map (·.name)).toList⟩
  | some r => ⟨Tags.kindOf r.tags, r.tags⟩
  | none => ⟨.text, ["text", "clipboard"]⟩

theorem verdict_byRules :
    (c.byRules cs app).verdict = verdictBy (c.languageOf? cs) (c.decisive? cs app) := by
  unfold byRules decisive?
  split
  · rfl
  · split
    · rename_i h
      rw [h]
      rfl
    · rename_i r hr hfirst
      rw [hfirst]
      cases r <;> first | rfl | exact absurd rfl hr
    · rename_i h
      rw [h]
      rfl

theorem verdict_upgradeMessage (r : Classification) :
    let r' := c.upgradeMessage cs app r
    ⟨r'.kind, Tags.withFloor r'.tags r'.kind⟩ = r.verdict.finished (c.showsMessage cs app) := by
  have hsome : ((Shape.senderName? cs).map String.ofList).isSome = (Shape.senderName? cs).isSome := Option.isSome_map
  unfold upgradeMessage Verdict.finished Classification.verdict showsMessage
  dsimp only
  rw [hsome]
  split <;> rfl

end

/-! ## What tells the rule -/

section

variable {m : Bool} {language language' : Option Language} {r r' : Option Rule}

theorem mem_rules (r : Option Rule) : r ∈ none :: Rule.all.map some := by
  rcases r with _ | (_ | _) <;> decide

theorem verdictBy_congr (language language' : Option Language) (h : r ≠ some .codeKeyword) :
    verdictBy language r = verdictBy language' r := by
  cases r with
  | none => rfl
  | some r => cases r <;> first | rfl | exact absurd rfl h

theorem finished_code : (verdictBy language (some .codeKeyword)).finished m =
    ⟨.code, ["code", (language.map (·.name)).getD "snippet"]⟩ := by
  cases m <;> cases language with
  | none => rfl
  | some l => cases l <;> decide

set_option maxRecDepth 2000 in
theorem kind_finished_ne_code (h : r ≠ some .codeKeyword) : ((verdictBy language r).finished m).kind ≠ .code := by
  have hrules : ∀ m, ∀ r ∈ none :: Rule.all.map some, r ≠ some .codeKeyword →
      ((verdictBy none r).finished m).kind ≠ .code := by decide
  rw [verdictBy_congr language none h]
  exact hrules m r (mem_rules r) h

set_option maxRecDepth 2000 in
/-- Different rules give different verdicts, and so do different languages of code. -/
theorem finished_eq_iff : (verdictBy language r).finished m = (verdictBy language' r').finished m ↔
    r = r' ∧ (r = some .codeKeyword → language = language') := by
  have hname (l : Language) : l.name ≠ "snippet" := by cases l <;> decide
  have hrules : ∀ m, ∀ r ∈ none :: Rule.all.map some, ∀ r' ∈ none :: Rule.all.map some,
      (verdictBy none r).finished m = (verdictBy none r').finished m → r = r' := by decide
  constructor
  · intro h
    by_cases hr : r = some .codeKeyword
    · subst hr
      have hr' : r' = some .codeKeyword := by
        by_contra hr'
        rw [finished_code] at h
        exact kind_finished_ne_code hr' (congrArg Verdict.kind h).symm
      subst hr'
      rw [finished_code, finished_code] at h
      have hlast : (language.map (·.name)).getD "snippet" = (language'.map (·.name)).getD "snippet" := by
        simpa using h
      refine ⟨rfl, fun _ => ?_⟩
      cases language with
      | none =>
          cases language' with
          | none => rfl
          | some l => exact absurd hlast.symm (hname l)
      | some l =>
          cases language' with
          | none => exact absurd hlast (hname l)
          | some l' => exact congrArg some (Language.name_injective hlast)
    · have hr' : r' ≠ some .codeKeyword := by
        rintro rfl
        rw [finished_code] at h
        exact kind_finished_ne_code hr (congrArg Verdict.kind h)
      rw [verdictBy_congr language none hr, verdictBy_congr language' none hr'] at h
      exact ⟨hrules m r (mem_rules r) r' (mem_rules r') h, fun h => absurd h hr⟩
  · rintro ⟨rfl, h⟩
    by_cases hr : r = some .codeKeyword
    · rw [h hr]
    · rw [verdictBy_congr language language' hr]

end

/-! ## Blanks around a text -/

section

variable {c : Classifier} {front back cs : List Char} (hfront : isBlank front) (hback : isBlank back)
include hfront hback

theorem looksLikeCode_padded (t : Code.Thresholds) :
    Code.looksLikeCode (front ++ cs ++ back) t = Code.looksLikeCode cs t := by
  rw [Code.looksLikeCode, Code.looksLikeCode, Text.trim_padded hfront hback]

/-- Colours and addresses are the same with the blanks. -/
theorem byStages_padded (o : Outside) (app : Option String) (t : Transcript) (hblank : ¬isBlank cs)
    (h : ¬IsOpen cs) : (c.byStages o (front ++ cs ++ back) app t).1 = (c.byStages o cs app t).1 := by
  have htrim : trim (front ++ cs ++ back) = trim cs := Text.trim_padded hfront hback
  have hcolor : Color.ofText? (front ++ cs ++ back) = Color.ofText? cs := by
    rw [Color.ofText?, Color.ofText?, htrim]
  have hlink : Link.isLink (front ++ cs ++ back) = Link.isLink cs := by rw [Link.isLink, Link.isLink, htrim]
  rcases color_or_link_of_not_isOpen hblank h with ⟨color, hsome⟩ | ⟨hnone, his⟩
  · simp only [byStages, hcolor, hsome]
  · simp only [byStages, hcolor, hlink, hnone, his, if_true]

theorem isOpen_padded_iff : IsOpen (front ++ cs ++ back) ↔ IsOpen cs := by
  have hblank : isBlank (front ++ cs ++ back) = isBlank cs := Text.isBlank_padded hfront hback
  have htrim : trim (front ++ cs ++ back) = trim cs := Text.trim_padded hfront hback
  constructor
  · rintro ⟨h, hcolor, hlink⟩
    exact ⟨hblank ▸ h, by rwa [Color.ofText?, htrim] at hcolor, by rwa [Link.isLink, htrim] at hlink⟩
  · rintro ⟨h, hcolor, hlink⟩
    exact ⟨hblank ▸ h, by rwa [Color.ofText?, htrim], by rwa [Link.isLink, htrim]⟩

theorem showsMessage_padded (app : Option String) :
    c.showsMessage (front ++ cs ++ back) app = c.showsMessage cs app := by
  rw [showsMessage, showsMessage, Shape.senderName?_padded hfront hback, Text.trim_padded hfront hback,
    Shape.overlooks_reportingVerb.found_eq hfront hback]

/-- The same rule decides, if it is not one of the two that see the blanks, or agrees on both texts. -/
theorem decisive?_padded_iff (app : Option String) :
    c.decisive? (front ++ cs ++ back) app = c.decisive? cs app ↔
      (c.Asks cs app .error → front ≠ [] → Shape.frameCall.starts cs → Shape.errorOutput.found cs) ∧
        (c.Asks cs app .longText → (cs.length : Int) ≤ c.settings.longTextChars →
          ((front ++ cs ++ back).length : Int) ≤ c.settings.longTextChars) := by
  rw [decisive?, decisive?, looksLikeCode_padded hfront hback]
  split
  · rename_i hlooks
    exact iff_of_true rfl ⟨fun h => absurd hlooks h.1, fun h => absurd hlooks h.1⟩
  · rename_i hlooks
    rw [eq_comm, Rule.first?, Rule.first?, find?_eq_find?_iff]
    constructor
    · intro h
      refine ⟨fun hasks hne hcall => ?_, fun hasks hle => ?_⟩
      · refine (h .error (by decide) hasks.2).mpr ?_
        rw [Rule.holds, Shape.found_errorOutput_padded hfront hback]
        simp [hne, hcall]
      · have hlong := h .longText (by decide) hasks.2
        simp only [Rule.holds, decide_eq_true_eq] at hlong
        exact Int.not_lt.mp fun hless => Int.not_lt.mpr hle (hlong.mpr hless)
    · rintro ⟨herror, hlong⟩ r - hbefore
      by_cases hr : r = .error
      · subst hr
        rw [Rule.holds, Rule.holds, Shape.found_errorOutput_padded hfront hback, Bool.or_eq_true, Bool.and_eq_true]
        refine ⟨.inl, fun h => h.elim id fun hcall => ?_⟩
        exact herror ⟨hlooks, hbefore⟩ (by simpa using hcall.1) hcall.2
      by_cases hr' : r = .longText
      · subst hr'
        have hlength : (cs.length : Int) ≤ ((front ++ cs ++ back).length : Int) := by simp; omega
        have hlong := hlong ⟨hlooks, hbefore⟩
        simp only [Rule.holds, decide_eq_true_eq]
        omega
      rw [Rule.holds_padded c.settings app hr hr' hfront hback]

theorem languageOf?_padded
    (hedge : ∀ a ∈ Language.edgeSignatures, a.found (front ++ cs ++ back) = a.found cs)
    (hscore : c.settings.statisticalDetector → ∀ l,
      c.detector.score (front ++ cs ++ back) l = c.detector.score cs l) :
    c.languageOf? (front ++ cs ++ back) = c.languageOf? cs := by
  rw [languageOf?, languageOf?, Language.ofMarkers?_padded hfront hback hedge]
  split
  · rename_i h
    rw [Detector.language?, Detector.language?, funext (hscore h)]
  · rfl

end

/-- The verdict on a text. -/
def verdict? (o : Outside) (c : Classifier) (text : String) (app : Option String) (t : Transcript) :
    Option Verdict :=
  (c.classify o text app t).1.map (·.verdict)

section

variable (o : Outside) (c : Classifier) (text : String) (app : Option String) (t : Transcript)

theorem verdict?_eq (h : ¬isBlank text.toList) : verdict? o c text app t =
    some ((c.byStages o text.toList app t).1.verdict.finished (c.showsMessage text.toList app)) := by
  rw [verdict?, c.classify_eq o text app t h, ← verdict_upgradeMessage]
  rfl

theorem verdict?_of_isOpen (hmodel : c.labeller = none) (h : IsOpen text.toList) : verdict? o c text app t =
    some ((verdictBy (c.languageOf? text.toList) (c.decisive? text.toList app)).finished
      (c.showsMessage text.toList app)) := by
  rw [verdict?_eq o c text app t h.not_blank, byStages_of_not_takes o c text.toList app t h (by simp [hmodel]),
    verdict_byRules]

theorem verdict?_of_isBlank (h : isBlank text.toList) : verdict? o c text app t = none := by
  rw [verdict?, classify, if_pos h]
  rfl

/-- Without a model a text has the kind and the tags with blanks around it that it has alone, except where a
rule that sees the blanks decides: there the call of a stack trace must not come behind its first blank, the text
must not become a long one, and code must show the same language. -/
theorem verdict?_padded (hmodel : c.labeller = none) {front back : List Char} (hfront : isBlank front)
    (hback : isBlank back) :
    let cs := text.toList
    let padded := front ++ cs ++ back
    (verdict? o c (.ofList padded) app t = verdict? o c text app t ↔ (IsOpen cs →
      (c.Asks cs app .error → front ≠ [] → Shape.frameCall.starts cs → Shape.errorOutput.found cs) ∧
        (c.Asks cs app .longText → (cs.length : Int) ≤ c.settings.longTextChars →
          (padded.length : Int) ≤ c.settings.longTextChars) ∧
        (c.decisive? cs app = some .codeKeyword → c.languageOf? padded = c.languageOf? cs))) ∧
      ((∀ a ∈ Language.edgeSignatures, a.found padded = a.found cs) →
        (c.settings.statisticalDetector → ∀ l, c.detector.score padded l = c.detector.score cs l) →
        c.languageOf? padded = c.languageOf? cs) := by
  intro cs padded
  have hlist : (String.ofList padded).toList = padded := String.toList_ofList
  have hblank : isBlank padded = isBlank cs := Text.isBlank_padded hfront hback
  have hmessage : c.showsMessage padded app = c.showsMessage cs app := showsMessage_padded hfront hback app
  refine ⟨?_, languageOf?_padded hfront hback⟩
  by_cases hcs : isBlank cs
  · rw [verdict?_of_isBlank o c text app t hcs, verdict?_of_isBlank o c _ app t (by rw [hlist, hblank, hcs])]
    exact iff_of_true rfl fun h => absurd hcs h.not_blank
  by_cases hopen : IsOpen cs
  · have hpadded : IsOpen padded := (isOpen_padded_iff hfront hback).mpr hopen
    rw [verdict?_of_isOpen o c text app t hmodel hopen, verdict?_of_isOpen o c _ app t hmodel (by rwa [hlist]), hlist,
      hmessage, Option.some_inj, finished_eq_iff]
    constructor
    · rintro ⟨hsame, hlanguage⟩ -
      obtain ⟨herror, hlong⟩ := (decisive?_padded_iff hfront hback app).mp hsame
      exact ⟨herror, hlong, fun h => hlanguage (hsame.trans h)⟩
    · intro h
      obtain ⟨herror, hlong, hlanguage⟩ := h hopen
      have hsame := (decisive?_padded_iff hfront hback app).mpr ⟨herror, hlong⟩
      exact ⟨hsame, fun h => hlanguage (hsame.symm.trans h)⟩
  · rw [verdict?_eq o c text app t hcs, verdict?_eq o c _ app t (by rwa [hlist, hblank]), hlist, hmessage,
      byStages_padded hfront hback o app t hcs hopen]
    exact iff_of_true rfl fun h => absurd h hopen

/-- Two plain words become an article behind three hundred blanks, and stay plain between two. -/
theorem verdict?_padded_plain :
    let o := Outside.replying ""
    let text := "plain words"
    let wide := List.replicate 300 ' '
    let padded (front back : List Char) := verdict? o {} (.ofList (front ++ text.toList ++ back)) none {}
    isBlank wide ∧ padded wide [] ≠ verdict? o {} text none {} ∧ padded [' '] ['\n'] = verdict? o {} text none {} := by
  intro o text wide padded
  have hwide : isBlank wide := by decide +kernel
  have hopen : IsOpen text.toList := ⟨by decide, by decide +kernel, by decide +kernel⟩
  have hplain : ({} : Classifier).decisive? text.toList none = none := by decide +kernel
  have hasks := asks_of_decisive?_eq_none {} text.toList none hplain .longText
  have hfar := (verdict?_padded o {} text none {} rfl hwide (by decide : isBlank [])).1
  have hnear := (verdict?_padded o {} text none {} rfl (by decide : isBlank [' ']) (by decide : isBlank ['\n'])).1
  refine ⟨hwide, fun h => ?_, hnear.mpr fun _ => ⟨fun _ _ hcall => ?_, fun _ _ => by decide, fun h => ?_⟩⟩
  · exact absurd ((hfar.mp h hopen).2.1 hasks (by decide)) (by decide +kernel)
  · exact absurd hcall (by decide +kernel)
  · exact absurd (hplain.symm.trans h) nofun

end

end Classifier

end Clipboard
