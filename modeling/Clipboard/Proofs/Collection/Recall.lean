import Clipboard.Proofs.Collection.Capture
import Clipboard.Proofs.Search.Describe
import Clipboard.Proofs.Search.Results

/-!
Finding again what was captured. A snippet that was classified without a model is found by its type, by
its language, by the name of where it came from, and by the day of the capture.
-/

namespace Clipboard

open Calendar (Moment)
open Fallible
open Remote (Outside Transcript)
open Text (isBlank)

/-! ## What a classifier without a model says -/

/-- The kind is one that can be told, and a language is the one that the text shows. -/
structure Classification.IsShown (c : Classifier) (cs : List Char) (r : Classification) : Prop where
  kind : r.kind ∈ tellableKinds
  language : ∀ l, r.language = some l → c.languageOf? cs = some l

namespace Classifier

variable (c : Classifier) (cs : List Char) (app : Option String)

theorem isShown_asCode (reason : Reason) : (c.asCode cs reason).IsShown c cs :=
  ⟨(by decide : Kind.code ∈ tellableKinds), fun _ => id⟩

theorem isShown_byRules : (c.byRules cs app).IsShown c cs := by
  unfold byRules
  split
  · exact isShown_asCode c cs _
  · split
    · exact isShown_asCode c cs _
    · rename_i r _ _
      refine ⟨?_, nofun⟩
      cases r <;> decide
    · exact ⟨by decide, nofun⟩

theorem isShown_byStages (h : c.labeller = none) (o : Outside) (t : Transcript) :
    (c.byStages o cs app t).1.IsShown c cs := by
  unfold byStages
  cases Color.ofText? cs with
  | some color => exact ⟨(by decide : Kind.color ∈ tellableKinds), nofun⟩
  | none =>
      dsimp only
      split
      · exact ⟨(by decide : Kind.link ∈ tellableKinds), nofun⟩
      · have hmodel : c.byModel o cs = pure none := by simp only [byModel, h]
        rw [hmodel]
        exact isShown_byRules c cs app

theorem isShown_upgradeMessage {r : Classification} (h : r.IsShown c cs) :
    (c.upgradeMessage cs app r).IsShown c cs := by
  unfold upgradeMessage
  dsimp only
  split
  · exact ⟨(by decide : Kind.message ∈ tellableKinds), h.language⟩
  · exact h

/-- Tags that are `code` and a language are there for code in the language that the text shows. -/
theorem languageOf?_of_classify {o : Outside} {text : String} {t : Transcript} {r : Classification}
    (h : c.labeller = none) (hr : (c.classify o text app t).1 = some r) :
    r.kind ∈ tellableKinds ∧ ∀ l : Language, r.tags = ["code", l.name] →
      r.kind = .code ∧ c.languageOf? text.toList = some l := by
  by_cases hblank : isBlank text.toList
  · simp [classify, hblank] at hr
    cases hr
  · have hstages := c.isShown_byStages text.toList app h o t
    have hshown := c.isShown_upgradeMessage text.toList app hstages
    have hcoherent := (c.coherent_upgradeMessage text.toList app
      (c.coherent_byStages o text.toList app t)).withFloor
    rw [c.classify_eq o text app t hblank] at hr
    cases hr
    refine ⟨hshown.kind, fun l htags => ?_⟩
    have hl := (hcoherent.language_iff l).mpr htags
    exact ⟨hcoherent.code_iff.mpr (htags ▸ List.mem_cons_self), hshown.language l hl⟩

end Classifier

/-! ## Captures -/

namespace Collection

variable {c c' : Collection} {classifier : Classifier} {newId : Nat → String} {now : Moment}
  {e : CaptureEvent} {x : Snippet}

theorem kind_of_variantOf {r : Classification} {v : Variant} (h : variantOf e r = .ok v) :
    v.kind = r.kind := by
  unfold variantOf at h
  cases hkind : r.kind with
  | link =>
      rw [hkind] at h
      dsimp only at h
      split at h <;> cases h
      rfl
  | _ =>
      rw [hkind] at h
      cases h
      rfl

/-- The parts of a snippet that come of the classification and the clock. -/
theorem parts_of_snippetFor {r : Classification} {id : String} (h : snippetFor e r id now = .ok x) :
    x.kind = r.kind ∧ x.tags = r.tags.map .text ∧ x.moment = now := by
  unfold snippetFor at h
  obtain ⟨v, hv, h⟩ := bind_eq_ok_iff.mp h
  split at h
  · cases h
    exact ⟨kind_of_variantOf hv, rfl, rfl⟩
  · cases h

theorem snippets_of_persist {α : Type} {result r : α} (h : c.persist result = (.ok r, c')) :
    r = result ∧ c'.snippets = c.snippets := by
  unfold persist at h
  split at h <;> cases h <;> exact ⟨rfl, rfl⟩

theorem keep_eq_ok {r : Classification} (h : c.keep e r newId now = (.ok (some x), c')) :
    snippetFor e r (newId c.drawn) now = .ok x ∧ c'.snippets = c.snippets ++ [x] := by
  unfold keep at h
  split at h
  · rename_i s hs
    obtain ⟨hresult, hsnippets⟩ := snippets_of_persist h
    cases hresult
    exact ⟨hs, hsnippets.trans List.map_append⟩
  · cases h

theorem capture_eq_ok {o : Outside} {t t' : Transcript}
    (h : c.capture o classifier newId now e t = ((.ok (some x), c'), t')) :
    c'.snippets = c.snippets ++ [x] ∧ ∃ r id, (classifier.classify o e.text e.app t).1 = some r ∧
      snippetFor e r id now = .ok x := by
  unfold capture at h
  split at h
  · cases h
  · simp only [bind, StateT.bind] at h
    rcases hclassify : classifier.classify o e.text e.app t with ⟨answer, asked⟩
    rw [hclassify] at h
    cases answer with
    | none => cases h
    | some r =>
        obtain ⟨hx, hsnippets⟩ := keep_eq_ok (Prod.mk.inj h).1
        exact ⟨hsnippets, r, _, rfl, hx⟩

theorem isFresh_of_capture {o : Outside} {t t' : Transcript} (hmodel : classifier.labeller = none)
    (h : c.capture o classifier newId now e t = ((.ok (some x), c'), t')) :
    IsFresh classifier now x := by
  obtain ⟨-, r, id, hclassify, hx⟩ := capture_eq_ok h
  obtain ⟨hkind, hlanguage⟩ := classifier.languageOf?_of_classify e.app hmodel hclassify
  obtain ⟨hxkind, htags, hmoment⟩ := parts_of_snippetFor hx
  obtain ⟨htextual, -, hcontent⟩ := snippetFor_spec hx
  refine ⟨htextual, hmoment, hxkind ▸ hkind, fun l hl => ?_⟩
  have hnames : r.tags = ["code", l.name] := by
    have hinjective : Function.Injective Json.text := fun _ _ => Json.text.inj
    exact List.map_injective_iff.mpr hinjective (htags.symm.trans hl)
  obtain ⟨hcode, hshown⟩ := hlanguage l hnames
  exact ⟨hxkind.trans hcode, e.text, hcontent, hshown⟩

/-- A snippet that was captured without a model, under a clock without an offset, is found by each
input that describes it, whatever compiler reads the input: it is among the results whenever there
are results, as there are if all other snippets have texts for values and moments without an offset. -/
theorem search_of_capture (hmodel : classifier.labeller = none) (hnow : now.offset = none)
    {o : Outside} {t t' : Transcript}
    (hcapture : c.capture o classifier newId now e t = ((.ok (some x), c'), t')) {query : String}
    (hquery : Describes x query) (k : Compiler) (o' : Outside) (relaxed : Bool) (asked : Transcript)
    (ratio : Float) (order : String) :
    ∃ f, ((k.compile o' now query none relaxed).run asked).1 = .ok f ∧
      (∀ kept, c'.search classifier ratio f "all" order = .ok kept → x ∈ kept) ∧
      ((∀ s ∈ c.snippets, s.IsTextual ∧ s.moment.offset = none) → order ∈ sortOrders →
        Succeeds (c'.search classifier ratio f "all" order)) := by
  have hfresh := isFresh_of_capture hmodel hcapture
  obtain ⟨hsnippets, -⟩ := capture_eq_ok hcapture
  obtain ⟨f, hcompile, hsuits⟩ :=
    compile_of_describes k o' relaxed asked ratio hfresh hnow hquery
  refine ⟨f, hcompile, fun kept hkept => ?_, fun hplain horder => ?_⟩
  · refine (Matcher.mem_results_iff hkept x).mpr ⟨?_, hsuits.accepts⟩
    rw [hsnippets]
    exact List.mem_append_right _ (List.mem_singleton_self x)
  · have hall : ∀ s ∈ c'.snippets, s.IsTextual ∧ s.moment.offset = none := by
      rw [hsnippets]
      refine List.forall_mem_append.mpr ⟨hplain, List.forall_mem_singleton.mpr ?_⟩
      exact ⟨hfresh.textual, hfresh.moment ▸ hnow⟩
    have hcoherent : f.Coherent := (Compiler.makes_of_compile hcompile).coherent (by simp)
    refine (Matcher.results_succeeds_iff _ _ (by decide) horder ?_).mpr ⟨fun s hs => ?_, ?_⟩
    · simp [hsuits.order]
    · obtain ⟨htextual, hmoment⟩ := hall s hs
      refine (Matcher.accepts_succeeds_iff hcoherent
        (fun range h => (hsuits.plain range h).toIsUsual) _).mpr fun _ => ?_
      exact Matcher.canTell_of_isTextual htextual hmoment hsuits.plain (.inl hsuits.textless.2)
    · exact .inr fun s hs _ => (hall s hs).2

/-- A line of Python in a mail. -/
def importLine : CaptureEvent := { text := "import os", app := some "Mail" }

/-- The line is found as code, as Python, as from the mail and as of today. -/
theorem search_of_capture_import : ∃ x c' t',
    ({} : Collection).capture (.replying "") {} (fun _ => "1") noon.moment importLine {} =
      ((.ok (some x), c'), t') ∧
    ∀ query ∈ ["/type code", "/type python", "/app Mail", "/date today"], ∃ f kept,
      ((({} : Compiler).compile (.replying "") noon.moment query).run {}).1 = .ok f ∧
        c'.search {} 0.5 f "all" "newest" = .ok kept ∧ x ∈ kept := by
  have hcaptured : ∃ x c' t',
      ({} : Collection).capture (.replying "") {} (fun _ => "1") noon.moment importLine {} =
        ((.ok (some x), c'), t') ∧ x.kind = .code ∧
      x.tags = [.text "code", .text Language.python.name] ∧ x.source = .text "Mail" :=
    ⟨_, _, _, rfl, rfl, rfl, rfl⟩
  obtain ⟨x, c', t', hcapture, hkind, htags, hsource⟩ := hcaptured
  have hdescribes : ∀ query ∈ ["/type code", "/type python", "/app Mail", "/date today"],
      Describes x query := by
    have htype : Describes x ("/type " ++ x.kind.name) := .type
    rw [hkind] at htype
    simp only [List.forall_mem_cons]
    exact ⟨htype, .language .python htags, .source "Mail" hsource (by decide), .today, by simp⟩
  refine ⟨x, c', t', hcapture, fun query hquery => ?_⟩
  obtain ⟨f, hcompile, hmem, hsucceeds⟩ := search_of_capture rfl rfl hcapture
    (hdescribes query hquery) {} (.replying "") false {} 0.5 "newest"
  obtain ⟨kept, hkept⟩ := hsucceeds (by rintro s ⟨⟩) (by decide)
  exact ⟨f, kept, hcompile, hkept, hmem kept hkept⟩

end Collection

end Clipboard
