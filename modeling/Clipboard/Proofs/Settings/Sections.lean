import Clipboard.Proofs.Settings.Setting

/-!
Sections read from joined fields. A section is read exactly if each of its settings has a value; only
the section of the search has rules besides, and only their breach is a fault of the rules.
-/

namespace Clipboard

namespace Settings

open Fallible

/-- The rules for the order of results and for the share of words. -/
def IsLawful (s : Settings) : Prop :=
  s.search.defaultSort ∈ sortOrders ∧ Decimal.isShare s.search.minMatchRatio

/-- Whether the fault is the breach of a rule of the search. -/
def Fault.isUnlawful : Fault → Bool
  | unknownOrder _ | noShare => true
  | _ => false

/-- A computation of the part of the settings that is in one section, given what each setting is set
to: it comes to the part that these values make if it obeys the law, and every fault is that of a
value or that of the law. -/
structure Gathers (value : (x : Setting) → Except Fault x.conversion.Result) (p : Section)
    {α : Type} (part : Settings → α) (law : Settings → Prop) (r : Except Fault α) : Prop where
  onto (a : α) : ∃ s, part s = a
  ok (s : Settings) : r = .ok (part s) ↔ (∀ x, x.place = p → value x = .ok (x.get s)) ∧ law s
  error (f : Fault) : r = .error f → (∃ x, x.place = p ∧ value x = .error f) ∨
    f.isUnlawful ∧ ∃ s, (∀ x, x.place = p → value x = .ok (x.get s)) ∧ ¬law s

/-! ## One section -/

/-- What the fields of a section set a setting to. -/
def Setting.among (home : String) (g : Fields) (x : Setting) : Except Fault x.conversion.Result :=
  x.valueOf home (lookup? x.key g)

section

variable (home : String) (g : Fields)

theorem ok_bool (key : String) (default : Bool) : (.ok (bool g key default) : Except Fault Bool) =
    (lookup? key g).elim (.ok default) fun v => .ok (toBool v) := by
  unfold bool
  cases lookup? key g <;> rfl

theorem messagingAppsOf_eq (o : Option Value) (default : List String) :
    messagingAppsOf o default = o.elim (.ok default) fun v => messagingAppsOf (some v) default := by
  cases o <;> rfl

theorem gathers_llm :
    Gathers (Setting.among home g) .llm (·.llm) (fun _ => True) (llmOf g) where
  onto a := ⟨{ Settings.default home with llm := a }, rfl⟩
  ok s := by
    obtain ⟨⟨model, enabled, timeout, retries⟩, _, _, _, _, _⟩ := s
    simp only [llmOf, text, real, whole, told, bind_eq_ok_iff]
    constructor
    · rintro ⟨_, hmodel, _, htimeout, _, hretries, hs⟩
      cases hs
      refine ⟨fun x hx => ?_, trivial⟩
      cases x with
      | model => exact hmodel
      | enabled => exact (ok_bool g _ _).symm
      | timeout => exact htimeout
      | retries => exact hretries
      | _ => cases hx
    · rintro ⟨h, -⟩
      have henabled := Except.ok.inj ((ok_bool g "enabled" true).trans (h .enabled rfl))
      refine ⟨_, h .model rfl, _, h .timeout rfl, _, h .retries rfl, ?_⟩
      rw [henabled]
      rfl
  error f := by
    simp only [llmOf, text, real, whole, told, bind_eq_error_iff]
    rintro (h | ⟨_, -, h | ⟨_, -, h | ⟨_, -, h⟩⟩⟩)
    · exact .inl ⟨.model, rfl, h⟩
    · exact .inl ⟨.timeout, rfl, h⟩
    · exact .inl ⟨.retries, rfl, h⟩
    · cases h

theorem gathers_classifier :
    Gathers (Setting.among home g) .classifier (·.classifier) (fun _ => True)
      (classifierOf g) where
  onto a := ⟨{ Settings.default home with classifier := a }, rfl⟩
  ok s := by
    obtain ⟨_, ⟨maxChars, longTextChars, multiLineLines, messageMaxChars, codeScoreSingleLine,
      codeScoreMultiLine, statisticalDetector, messagingApps⟩, _, _, _, _⟩ := s
    simp only [classifierOf, whole, told, bind_eq_ok_iff]
    rw [messagingAppsOf_eq]
    constructor
    · rintro ⟨_, hmax, _, hlong, _, hlines, _, hmessage, _, hsingle, _, hmulti, _, happs, hs⟩
      cases hs
      refine ⟨fun x hx => ?_, trivial⟩
      cases x with
      | maxChars => exact hmax
      | longTextChars => exact hlong
      | multiLineLines => exact hlines
      | messageMaxChars => exact hmessage
      | codeScoreSingleLine => exact hsingle
      | codeScoreMultiLine => exact hmulti
      | statisticalDetector => exact (ok_bool g _ _).symm
      | messagingApps => exact happs
      | _ => cases hx
    · rintro ⟨h, -⟩
      have hdetector := Except.ok.inj
        ((ok_bool g "statistical_detector" true).trans (h .statisticalDetector rfl))
      refine ⟨_, h .maxChars rfl, _, h .longTextChars rfl, _, h .multiLineLines rfl,
        _, h .messageMaxChars rfl, _, h .codeScoreSingleLine rfl, _, h .codeScoreMultiLine rfl,
        _, h .messagingApps rfl, ?_⟩
      rw [hdetector]
      rfl
  error f := by
    simp only [classifierOf, whole, told, bind_eq_error_iff]
    rw [messagingAppsOf_eq]
    rintro (h | ⟨_, -, h | ⟨_, -, h | ⟨_, -, h | ⟨_, -, h | ⟨_, -, h | ⟨_, -, h | ⟨_, -, h⟩⟩⟩⟩⟩⟩⟩)
    · exact .inl ⟨.maxChars, rfl, h⟩
    · exact .inl ⟨.longTextChars, rfl, h⟩
    · exact .inl ⟨.multiLineLines, rfl, h⟩
    · exact .inl ⟨.messageMaxChars, rfl, h⟩
    · exact .inl ⟨.codeScoreSingleLine, rfl, h⟩
    · exact .inl ⟨.codeScoreMultiLine, rfl, h⟩
    · exact .inl ⟨.messagingApps, rfl, h⟩
    · cases h

theorem gathers_dates :
    Gathers (Setting.among home g) .dates (·.dates) (fun _ => True) (datesOf g) where
  onto a := ⟨{ Settings.default home with dates := a }, rfl⟩
  ok s := by
    obtain ⟨_, _, ⟨smart, preferPast⟩, _, _, _⟩ := s
    constructor
    · intro hs
      cases hs
      refine ⟨fun x hx => ?_, trivial⟩
      cases x with
      | smart => exact (ok_bool g _ _).symm
      | preferPast => exact (ok_bool g _ _).symm
      | _ => cases hx
    · rintro ⟨h, -⟩
      have hsmart := Except.ok.inj ((ok_bool g "smart" false).trans (h .smart rfl))
      have hpast := Except.ok.inj ((ok_bool g "prefer_past" true).trans (h .preferPast rfl))
      simp only [datesOf]
      rw [hsmart, hpast]
      rfl
  error f h := by cases h

theorem gathers_search :
    Gathers (Setting.among home g) .search (·.search) IsLawful (searchOf g) where
  onto a := ⟨{ Settings.default home with search := a }, rfl⟩
  ok s := by
    obtain ⟨_, _, _, ⟨ratio, length, sort⟩, _, _⟩ := s
    simp only [searchOf, text, real, whole, told, bind_eq_ok_iff, IsLawful]
    constructor
    · rintro ⟨ratio', hratio, _, hlength, sort', hsort, hs⟩
      split at hs
      · cases hs
      · rename_i horder
        split at hs
        · cases hs
        · rename_i hshare
          cases hs
          refine ⟨fun x hx => ?_, by simpa using horder, by simpa using hshare⟩
          cases x with
          | minMatchRatio => exact hratio
          | minTermLength => exact hlength
          | defaultSort => exact hsort
          | _ => cases hx
    · rintro ⟨h, horder, hshare⟩
      refine ⟨_, h .minMatchRatio rfl, _, h .minTermLength rfl, _, h .defaultSort rfl, ?_⟩
      simp [Setting.get, horder, hshare]
      rfl
  error f := by
    simp only [searchOf, text, real, whole, told, bind_eq_error_iff, IsLawful]
    rintro (h | ⟨ratio, hratio, h | ⟨length, hlength, h | ⟨sort, hsort, h⟩⟩⟩)
    · exact .inl ⟨.minMatchRatio, rfl, h⟩
    · exact .inl ⟨.minTermLength, rfl, h⟩
    · exact .inl ⟨.defaultSort, rfl, h⟩
    · right
      -- What was read up to here makes the section that the rules are about.
      have hread : ∀ x : Setting, x.place = .search → x.among home g = .ok (x.get
          { Settings.default home with search := ⟨ratio, length, sort⟩ }) := by
        intro x hx
        cases x with
        | minMatchRatio => exact hratio
        | minTermLength => exact hlength
        | defaultSort => exact hsort
        | _ => cases hx
      split at h
      · rename_i horder
        cases h
        exact ⟨rfl, _, hread, fun hlaw => by simp [hlaw.1] at horder⟩
      · split at h
        · rename_i hshare
          cases h
          exact ⟨rfl, _, hread, fun hlaw => by simp [hlaw.2] at hshare⟩
        · cases h

theorem gathers_capture :
    Gathers (Setting.among home g) .capture (·.capture) (fun _ => True) (captureOf g) where
  onto a := ⟨{ Settings.default home with capture := a }, rfl⟩
  ok s := by
    obtain ⟨_, _, _, _, ⟨debounceMillis⟩, _⟩ := s
    simp only [captureOf, whole, told, bind_eq_ok_iff]
    constructor
    · rintro ⟨_, hmillis, hs⟩
      cases hs
      refine ⟨fun x hx => ?_, trivial⟩
      cases x with
      | debounceMillis => exact hmillis
      | _ => cases hx
    · rintro ⟨h, -⟩
      exact ⟨_, h .debounceMillis rfl, rfl⟩
  error f := by
    simp only [captureOf, whole, told, bind_eq_error_iff]
    rintro (h | ⟨_, -, h⟩)
    · exact .inl ⟨.debounceMillis, rfl, h⟩
    · cases h

theorem gathers_storage :
    Gathers (Setting.among home g) .storage (·.storage) (fun _ => True) (storageOf home g) where
  onto a := ⟨{ Settings.default home with storage := a }, rfl⟩
  ok s := by
    obtain ⟨_, _, _, _, _, ⟨path⟩⟩ := s
    simp only [storageOf, text, told, bind_eq_ok_iff]
    constructor
    · rintro ⟨_, hpath, hs⟩
      cases hs
      refine ⟨fun x hx => ?_, trivial⟩
      cases x with
      | path => exact hpath
      | _ => cases hx
    · rintro ⟨h, -⟩
      exact ⟨_, h .path rfl, rfl⟩
  error f := by
    simp only [storageOf, text, told, bind_eq_error_iff]
    rintro (h | ⟨_, -, h⟩)
    · exact .inl ⟨.path, rfl, h⟩
    · cases h

end

/-! ## The sections of joined fields -/

/-- The fields of a section; one that is not there has none. -/
def sectionIn (fields : Fields) (p : Section) : Except Fault Fields :=
  (section? fields p.name).map (·.getD [])

/-- What joined fields set a setting to. -/
def Setting.valueIn (home : String) (fields : Fields) (x : Setting) :
    Except Fault x.conversion.Result := do
  x.among home (← sectionIn fields x.place)

section

variable {home : String} {fields : Fields} {p : Section} {x : Setting} {f : Fault}
variable {α : Type} {read : Fields → Except Fault α} {part : Settings → α} {law : Settings → Prop}

theorem Section.exists_setting (p : Section) : ∃ x : Setting, x.place = p := by
  cases p with
  | llm => exact ⟨.model, rfl⟩
  | classifier => exact ⟨.maxChars, rfl⟩
  | dates => exact ⟨.smart, rfl⟩
  | search => exact ⟨.defaultSort, rfl⟩
  | capture => exact ⟨.debounceMillis, rfl⟩
  | storage => exact ⟨.path, rfl⟩

theorem sectionOr_eq {default : α} (h : read [] = .ok default) :
    sectionOr fields p.name read default = sectionIn fields p >>= read := by
  unfold sectionOr sectionIn
  cases section? fields p.name with
  | error f => rfl
  | ok g =>
      cases g with
      | none => exact h.symm
      | some g => rfl

theorem Setting.valueIn_of_ok {g : Fields} (hx : x.place = p) (h : sectionIn fields p = .ok g) :
    x.valueIn home fields = x.among home g := by
  subst hx
  rw [valueIn, h]
  rfl

theorem Setting.valueIn_of_error (hx : x.place = p) (h : sectionIn fields p = .error f) :
    x.valueIn home fields = .error f := by
  subst hx
  rw [valueIn, h]
  rfl

theorem Fault.isRule_of_isUnlawful (h : f.isUnlawful) : f.isRule := by
  cases f with
  | unknownOrder name => rfl
  | noShare => rfl
  | _ => cases h

theorem not_isRule_of_sectionIn (h : sectionIn fields p = .error f) : f.isRule = false := by
  unfold sectionIn section? at h
  split at h
  · cases h
  · cases h
  · split at h
    · cases h
      rfl
    · cases h

theorem Setting.not_isRule_of_valueIn (h : x.valueIn home fields = .error f) :
    f.isRule = false := by
  rcases bind_eq_error_iff.mp h with h | ⟨g, -, h⟩
  · exact not_isRule_of_sectionIn h
  · exact x.not_isRule_of_valueOf h

theorem Gathers.of_sectionIn (fields : Fields)
    (h : ∀ g, Gathers (Setting.among home g) p part law (read g)) :
    Gathers (Setting.valueIn home fields) p part law (sectionIn fields p >>= read) where
  onto := (h []).onto
  ok s := by
    cases hs : sectionIn fields p with
    | error f =>
        refine iff_of_false (fun he => by cases he) fun he => ?_
        obtain ⟨x, hx⟩ := p.exists_setting
        have hvalue := he.1 x hx
        rw [Setting.valueIn_of_error hx hs] at hvalue
        cases hvalue
    | ok g =>
        refine ((h g).ok s).trans (and_congr_left fun _ => forall₂_congr fun x hx => ?_)
        rw [Setting.valueIn_of_ok hx hs]
  error f he := by
    cases hs : sectionIn fields p with
    | error f' =>
        rw [hs] at he
        cases he
        obtain ⟨x, hx⟩ := p.exists_setting
        exact .inl ⟨x, hx, Setting.valueIn_of_error hx hs⟩
    | ok g =>
        rw [hs] at he
        rcases (h g).error f he with ⟨x, hx, hvalue⟩ | ⟨hrule, s, hvalues, hlaw⟩
        · exact .inl ⟨x, hx, (Setting.valueIn_of_ok hx hs).trans hvalue⟩
        · exact .inr ⟨hrule, s,
            fun x hx => (Setting.valueIn_of_ok hx hs).trans (hvalues x hx), hlaw⟩

end

namespace Gathers

variable {value : (x : Setting) → Except Fault x.conversion.Result} {p : Section} {α : Type}
variable {part : Settings → α} {law : Settings → Prop} {r : Except Fault α} {f : Fault} {a : α}

theorem of_ok (h : Gathers value p part law r) (hr : r = .ok a) :
    ∃ s, part s = a ∧ (∀ x, x.place = p → value x = .ok (x.get s)) ∧ law s := by
  obtain ⟨s, rfl⟩ := h.onto a
  exact ⟨s, rfl, (h.ok s).mp hr⟩

theorem succeeds (h : Gathers value p part law r) (hr : r = .ok a) {x : Setting}
    (hx : x.place = p) : Succeeds (value x) := by
  obtain ⟨s, -, hvalues, -⟩ := h.of_ok hr
  exact ⟨_, hvalues x hx⟩

theorem exists_of_error (h : Gathers value p part (fun _ => True) r) (hr : r = .error f) :
    ∃ x, x.place = p ∧ value x = .error f := by
  rcases h.error f hr with hx | ⟨-, s, -, hlaw⟩
  · exact hx
  · exact absurd trivial hlaw

end Gathers

/-! ## All sections -/

/-- Whether a section is read when the rules of the search have been checked. -/
def Section.isLate : Section → Bool
  | capture | storage => true
  | _ => false

/-- What stands under the keys with rules does not break them, as far as it can be read. -/
def ObeysRules (home : String) (fields : Fields) : Prop :=
  ∀ order share, Setting.defaultSort.valueIn home fields = .ok order →
    Setting.minMatchRatio.valueIn home fields = .ok share →
      order ∈ sortOrders ∧ Decimal.isShare share

section

variable {home : String} {fields : Fields} {s : Settings} {f : Fault}

theorem ofFields_eq : ofFields home fields = do
    let llm ← sectionIn fields .llm >>= llmOf
    let classifier ← sectionIn fields .classifier >>= classifierOf
    let dates ← sectionIn fields .dates >>= datesOf
    let search ← sectionIn fields .search >>= searchOf
    let capture ← sectionIn fields .capture >>= captureOf
    let storage ← sectionIn fields .storage >>= storageOf home
    return { llm, classifier, dates, search, capture, storage } := by
  have hllm : sectionOr fields "llm" llmOf (Settings.default home).llm =
      sectionIn fields .llm >>= llmOf :=
    sectionOr_eq (p := .llm) rfl
  have hclassifier : sectionOr fields "classifier" classifierOf (Settings.default home).classifier =
      sectionIn fields .classifier >>= classifierOf :=
    sectionOr_eq (p := .classifier) rfl
  have hdates : sectionOr fields "dates" datesOf (Settings.default home).dates =
      sectionIn fields .dates >>= datesOf :=
    sectionOr_eq (p := .dates) rfl
  have hsearch : sectionOr fields "search" searchOf (Settings.default home).search =
      sectionIn fields .search >>= searchOf :=
    sectionOr_eq (p := .search) rfl
  have hcapture : sectionOr fields "capture" captureOf (Settings.default home).capture =
      sectionIn fields .capture >>= captureOf :=
    sectionOr_eq (p := .capture) rfl
  have hstorage : sectionOr fields "storage" (storageOf home) (Settings.default home).storage =
      sectionIn fields .storage >>= storageOf home :=
    sectionOr_eq (p := .storage) rfl
  rw [ofFields, hllm, hclassifier, hdates, hsearch, hcapture, hstorage]

/-- The settings that joined fields make: each has what stands under its own key, and the rules of the
search are obeyed. -/
theorem ofFields_eq_ok_iff : ofFields home fields = .ok s ↔
    (∀ x : Setting, x.valueIn home fields = .ok (x.get s)) ∧ s.IsLawful := by
  have hllm := (Gathers.of_sectionIn fields (gathers_llm home)).ok s
  have hclassifier := (Gathers.of_sectionIn fields (gathers_classifier home)).ok s
  have hdates := (Gathers.of_sectionIn fields (gathers_dates home)).ok s
  have hsearch := (Gathers.of_sectionIn fields (gathers_search home)).ok s
  have hcapture := (Gathers.of_sectionIn fields (gathers_capture home)).ok s
  have hstorage := (Gathers.of_sectionIn fields (gathers_storage home)).ok s
  rw [ofFields_eq]
  constructor
  · intro h
    obtain ⟨_, rllm, h⟩ := bind_eq_ok_iff.mp h
    obtain ⟨_, rclassifier, h⟩ := bind_eq_ok_iff.mp h
    obtain ⟨_, rdates, h⟩ := bind_eq_ok_iff.mp h
    obtain ⟨_, rsearch, h⟩ := bind_eq_ok_iff.mp h
    obtain ⟨_, rcapture, h⟩ := bind_eq_ok_iff.mp h
    obtain ⟨_, rstorage, h⟩ := bind_eq_ok_iff.mp h
    cases h
    refine ⟨fun x => ?_, (hsearch.mp rsearch).2⟩
    cases hx : x.place with
    | llm => exact (hllm.mp rllm).1 x hx
    | classifier => exact (hclassifier.mp rclassifier).1 x hx
    | dates => exact (hdates.mp rdates).1 x hx
    | search => exact (hsearch.mp rsearch).1 x hx
    | capture => exact (hcapture.mp rcapture).1 x hx
    | storage => exact (hstorage.mp rstorage).1 x hx
  · rintro ⟨h, hlaw⟩
    rw [hllm.mpr ⟨fun x _ => h x, trivial⟩, hclassifier.mpr ⟨fun x _ => h x, trivial⟩,
      hdates.mpr ⟨fun x _ => h x, trivial⟩, hsearch.mpr ⟨fun x _ => h x, hlaw⟩,
      hcapture.mpr ⟨fun x _ => h x, trivial⟩, hstorage.mpr ⟨fun x _ => h x, trivial⟩]
    rfl

/-- The first fault met: a setting without a value, which stands behind the search only if the rules
are obeyed, or the breach of a rule, which needs values for all settings up to the search. -/
theorem ofFields_eq_error (h : ofFields home fields = .error f) :
    (∃ x : Setting, x.valueIn home fields = .error f ∧
      (x.place.isLate → ObeysRules home fields)) ∨
    f.isUnlawful ∧ ¬ObeysRules home fields ∧
      ∀ x : Setting, x.place.isLate = false → Succeeds (x.valueIn home fields) := by
  have hllm := Gathers.of_sectionIn fields (gathers_llm home)
  have hclassifier := Gathers.of_sectionIn fields (gathers_classifier home)
  have hdates := Gathers.of_sectionIn fields (gathers_dates home)
  have hsearch := Gathers.of_sectionIn fields (gathers_search home)
  have hcapture := Gathers.of_sectionIn fields (gathers_capture home)
  have hstorage := Gathers.of_sectionIn fields (gathers_storage home)
  -- A fault in front of the search is that of a value, and the rules are not asked for.
  have hearly : ∀ {p : Section}, p.isLate = false →
      (∃ x : Setting, x.place = p ∧ x.valueIn home fields = .error f) →
      ∃ x : Setting, x.valueIn home fields = .error f ∧
        (x.place.isLate → ObeysRules home fields) := by
    rintro p hp ⟨x, rfl, hx⟩
    exact ⟨x, hx, fun hlate => by simp [hp] at hlate⟩
  rw [ofFields_eq] at h
  rcases bind_eq_error_iff.mp h with h | ⟨_, rllm, h⟩
  · exact .inl (hearly rfl (hllm.exists_of_error h))
  rcases bind_eq_error_iff.mp h with h | ⟨_, rclassifier, h⟩
  · exact .inl (hearly rfl (hclassifier.exists_of_error h))
  rcases bind_eq_error_iff.mp h with h | ⟨_, rdates, h⟩
  · exact .inl (hearly rfl (hdates.exists_of_error h))
  rcases bind_eq_error_iff.mp h with h | ⟨_, rsearch, h⟩
  · rcases hsearch.error f h with hx | ⟨hrule, s, hvalues, hlaw⟩
    · exact .inl (hearly rfl hx)
    · refine .inr ⟨hrule, fun hobeys => hlaw ?_, fun x hx => ?_⟩
      · exact hobeys _ _ (hvalues .defaultSort rfl) (hvalues .minMatchRatio rfl)
      · cases hplace : x.place with
        | llm => exact hllm.succeeds rllm hplace
        | classifier => exact hclassifier.succeeds rclassifier hplace
        | dates => exact hdates.succeeds rdates hplace
        | search => exact ⟨_, hvalues x hplace⟩
        | capture => simp [hplace, Section.isLate] at hx
        | storage => simp [hplace, Section.isLate] at hx
  have hobeys : ObeysRules home fields := by
    obtain ⟨s, -, hvalues, hlaw⟩ := hsearch.of_ok rsearch
    intro order share horder hshare
    cases (hvalues .defaultSort rfl).symm.trans horder
    cases (hvalues .minMatchRatio rfl).symm.trans hshare
    exact hlaw
  rcases bind_eq_error_iff.mp h with h | ⟨_, -, h⟩
  · obtain ⟨x, -, hx⟩ := hcapture.exists_of_error h
    exact .inl ⟨x, hx, fun _ => hobeys⟩
  rcases bind_eq_error_iff.mp h with h | ⟨_, -, h⟩
  · obtain ⟨x, -, hx⟩ := hstorage.exists_of_error h
    exact .inl ⟨x, hx, fun _ => hobeys⟩
  cases h

/-- Joined fields come to a fault that is none of the rules exactly if some setting has no value, and
no rule is found broken before. -/
theorem ofFields_spoiled_iff : (∃ f, ofFields home fields = .error f ∧ f.isRule = false) ↔
    ∃ x : Setting, ¬Succeeds (x.valueIn home fields) ∧
      (x.place.isLate → ObeysRules home fields) := by
  constructor
  · rintro ⟨f, h, hf⟩
    rcases ofFields_eq_error h with ⟨x, hx, hobeys⟩ | ⟨hrule, -⟩
    · exact ⟨x, by simp [hx], hobeys⟩
    · rw [Fault.isRule_of_isUnlawful hrule] at hf
      cases hf
  · rintro ⟨x, hx, hobeys⟩
    cases h : ofFields home fields with
    | ok s => exact absurd ⟨_, (ofFields_eq_ok_iff.mp h).1 x⟩ hx
    | error f =>
        refine ⟨f, rfl, ?_⟩
        rcases ofFields_eq_error h with ⟨y, hy, -⟩ | ⟨-, hbreaks, hearly⟩
        · exact Setting.not_isRule_of_valueIn hy
        · cases hlate : x.place.isLate with
          | true => exact absurd (hobeys hlate) hbreaks
          | false => exact absurd (hearly x hlate) hx

end

end Settings

end Clipboard
