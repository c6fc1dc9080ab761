import Clipboard.Proofs.Settings.Sections

/-!
Settings with those of the environment in their place. A variable replaces the value of one setting,
after the values of all settings have been read and the rules of the search have been checked.
-/

namespace Clipboard

namespace Settings

open Remote (Environment)

/-! ## Settings by their values -/

def ofValues (value : (x : Setting) → x.conversion.Result) : Settings where
  llm :=
    { model := value .model
      enabled := value .enabled
      timeout := value .timeout
      retries := value .retries }
  classifier :=
    { maxChars := value .maxChars
      longTextChars := value .longTextChars
      multiLineLines := value .multiLineLines
      messageMaxChars := value .messageMaxChars
      codeScoreSingleLine := value .codeScoreSingleLine
      codeScoreMultiLine := value .codeScoreMultiLine
      statisticalDetector := value .statisticalDetector
      messagingApps := value .messagingApps }
  dates := { smart := value .smart, preferPast := value .preferPast }
  search :=
    { minMatchRatio := value .minMatchRatio
      minTermLength := value .minTermLength
      defaultSort := value .defaultSort }
  capture := { debounceMillis := value .debounceMillis }
  storage := { path := value .path }

theorem Setting.get_ofValues (value : (x : Setting) → x.conversion.Result) (x : Setting) :
    x.get (ofValues value) = value x := by
  cases x <;> rfl

theorem eq_of_get {s s' : Settings} (h : ∀ x : Setting, x.get s = x.get s') : s = s' := by
  calc s = ofValues (fun x => x.get s) := rfl
    _ = ofValues (fun x => x.get s') := congrArg ofValues (funext h)
    _ = s' := rfl

/-! ## The environment -/

namespace Setting

/-- The variable of the environment for a setting. -/
def environmentName? : Setting → Option String
  | model => some "SNIPSTACK_MODEL"
  | enabled => some "SNIPSTACK_LLM_ENABLED"
  | path => some "SNIPSTACK_DB"
  | _ => none

/-- What a variable says; an empty text says nothing where a text is wanted. -/
def fromEnvironment? : (x : Setting) → String → Option x.conversion.Result
  | model, t => if t.isEmpty then none else some t
  | enabled, t => some (saysYes t)
  | path, t => if t.isEmpty then none else some t
  | _, _ => none

def inEnvironment? (env : Environment) (x : Setting) : Option x.conversion.Result :=
  x.environmentName?.bind fun name => (env.lookup name).bind x.fromEnvironment?

/-- The value of a setting from what stands under its key, or from the environment. -/
def settled (home : String) (env : Environment) (x : Setting) (given : Option Value) :
    Except Fault x.conversion.Result :=
  (x.valueOf home given).map (x.inEnvironment? env).getD

theorem get_withEnvironment (env : Environment) (s : Settings) (x : Setting) :
    x.get (withEnvironment env s) = (x.inEnvironment? env).getD (x.get s) := by
  have hgiven : ∀ name (d : String),
      ((env.lookup name).filter (!·.isEmpty)).getD d =
        ((env.lookup name).bind fun t => if t.isEmpty then none else some t).getD d := by
    intro name d
    cases env.lookup name with
    | none => rfl
    | some t =>
        rw [Option.bind_some, Option.filter_some]
        cases t.isEmpty <;> rfl
  cases x with
  | model => exact hgiven "SNIPSTACK_MODEL" _
  | path => exact hgiven "SNIPSTACK_DB" _
  | enabled =>
      simp only [get, withEnvironment, inEnvironment?, environmentName?, Option.bind_some]
      cases env.lookup "SNIPSTACK_LLM_ENABLED" <;> rfl
  | _ => rfl

theorem inEnvironment?_of_search {x : Setting} (env : Environment) (h : x.place = .search) :
    x.inEnvironment? env = none := by
  cases x with
  | minMatchRatio => rfl
  | minTermLength => rfl
  | defaultSort => rfl
  | _ => cases h

/-- What joined fields and the environment set a setting to. -/
def settledIn (home : String) (env : Environment) (fields : Fields) (x : Setting) :
    Except Fault x.conversion.Result := do
  x.settled home env (lookup? x.key (← sectionIn fields x.place))

theorem settledIn_eq (home : String) (env : Environment) (fields : Fields) (x : Setting) :
    x.settledIn home env fields = (x.valueIn home fields).map (x.inEnvironment? env).getD := by
  unfold settledIn valueIn
  cases sectionIn fields x.place <;> rfl

end Setting

/-- The settings that joined fields make with the environment: each has the value that is left for it,
and the rules of the search are obeyed. -/
theorem ofFields_settled_iff {home : String} {env : Environment} {fields : Fields} {s : Settings} :
    (∃ s', ofFields home fields = .ok s' ∧ withEnvironment env s' = s) ↔
      (∀ x : Setting, x.settledIn home env fields = .ok (x.get s)) ∧ s.IsLawful := by
  simp only [ofFields_eq_ok_iff, Setting.settledIn_eq]
  constructor
  · rintro ⟨s', ⟨hvalues, hlaw⟩, rfl⟩
    refine ⟨fun x => ?_, hlaw⟩
    rw [hvalues, Setting.get_withEnvironment]
    rfl
  · rintro ⟨hsettled, hlaw⟩
    have hvalue (x : Setting) : ∃ a, x.valueIn home fields = .ok a ∧
        (x.inEnvironment? env).getD a = x.get s := by
      have hx := hsettled x
      cases hv : x.valueIn home fields with
      | error f =>
          rw [hv] at hx
          cases hx
      | ok a =>
          rw [hv] at hx
          exact ⟨a, rfl, Except.ok.inj hx⟩
    choose value hvalue hleft using hvalue
    have hsearch (x : Setting) (hx : x.place = .search) : value x = x.get s := by
      rw [← hleft, x.inEnvironment?_of_search env hx]
      rfl
    refine ⟨ofValues value, ⟨fun x => ?_, ?_⟩, eq_of_get fun x => ?_⟩
    · rw [Setting.get_ofValues, hvalue]
    · -- No variable of the environment replaces what the rules are about.
      have horder : (ofValues value).search.defaultSort = s.search.defaultSort :=
        hsearch .defaultSort rfl
      have hshare : (ofValues value).search.minMatchRatio = s.search.minMatchRatio :=
        hsearch .minMatchRatio rfl
      rw [IsLawful, horder, hshare]
      exact hlaw
    · rw [Setting.get_withEnvironment, Setting.get_ofValues, hleft]

end Settings

end Clipboard
