import Clipboard.Proofs.Decimal.Value
import Clipboard.Proofs.Settings.Loading

/-!
What loading can end with: settings that obey the rules, the breach of a rule, or another fault, and
exactly when it is which.
-/

namespace Clipboard.Settings

open Fallible
open Remote (Environment)

/-- What stands where a setting is looked for is of use: the section is an object, or as good as
nothing, and what stands under the key can be converted. -/
structure Setting.IsUsable (home : String) (fields : Fields) (x : Setting) : Prop where
  inObject (v : Value) : lookup? x.place.name fields = some v → v.isPresent → ∃ g, v = .object g
  converts (v : Value) : lookup? x.key (fieldsUnder fields x.place.name) = some v →
    Succeeds (x.conversion.apply (x.get (Settings.default home)) v)

/-- A key of the file for all projects cannot be checked, or no secret is refused, but a file cannot be
used, or what stands for a setting is of no use. Behind the search that comes to light only if the
rules of the search are obeyed. -/
def IsSpoiled (home : String) (shared project : Option Layer) : Prop :=
  (∃ l ∈ shared, ∃ path key, l.stop? = some (path, key) ∧ key.isOverlong) ∨
  (∀ l ∈ shared, l.stop? = none) ∧
    ((∃ l, (l ∈ shared ∨ l ∈ project) ∧ ¬l.IsReadable) ∨
      ∃ x : Setting, ¬x.IsUsable home (joined shared project) ∧
        (x.place.isLate → ObeysRules home (joined shared project)))

section

variable {home : String} {fields : Fields} {s : Settings} {p : Section}

theorem sectionIn_eq_ok_iff {g : Fields} : sectionIn fields p = .ok g ↔
    (∀ v, lookup? p.name fields = some v → v.isPresent → ∃ g, v = .object g) ∧
      fieldsUnder fields p.name = g := by
  unfold sectionIn section? fieldsUnder
  cases lookup? p.name fields with
  | none => simp [Except.map]
  | some v =>
      cases v with
      | object h => simp [Except.map]
      | _ =>
          dsimp only
          split <;> simp_all [Except.map]

theorem Setting.succeeds_valueIn_iff {x : Setting} :
    Succeeds (x.valueIn home fields) ↔ x.IsUsable home fields := by
  have hamong (g : Fields) : Succeeds (x.among home g) ↔
      ∀ v, lookup? x.key g = some v →
        Succeeds (x.conversion.apply (x.get (Settings.default home)) v) := by
    rw [among, valueOf]
    cases lookup? x.key g with
    | none => simp
    | some v => simp
  rw [valueIn, succeeds_bind_iff]
  constructor
  · rintro ⟨g, hg, hvalue⟩
    obtain ⟨hobject, rfl⟩ := sectionIn_eq_ok_iff.mp hg
    exact ⟨hobject, (hamong _).mp hvalue⟩
  · rintro ⟨hobject, hconverts⟩
    exact ⟨_, sectionIn_eq_ok_iff.mpr ⟨hobject, rfl⟩, (hamong _).mpr hconverts⟩

end

section

variable (home : String) (env : Environment) (shared project : Option Layer)

/-- Loading comes to settings or the breach of a rule exactly if it is not spoiled, and the settings
have a share of words above 0 and at most 1 and one of the two orders. -/
theorem loaded_faults :
    ((∃ s, loaded home env shared project = .ok s) ∨
      (∃ f, loaded home env shared project = .error f ∧ f.isRule) ↔
      ¬IsSpoiled home shared project) ∧
    ∀ s, loaded home env shared project = .ok s →
      (∃ q, (Decimal.Parts.of s.search.minMatchRatio).value? = some q ∧ 0 < q ∧ q ≤ 1) ∧
      (s.search.defaultSort = "newest" ∨ s.search.defaultSort = "oldest") := by
  constructor
  · have hspoiled : (∃ f, loaded home env shared project = .error f ∧ f.isRule = false) ↔
        IsSpoiled home shared project := by
      simp only [loaded_spoiled_iff, Setting.succeeds_valueIn_iff, IsSpoiled]
    rw [← hspoiled]
    constructor
    · rintro (⟨s, hs⟩ | ⟨f, hf, hrule⟩) ⟨f', hf', hforeign⟩
      · cases hs.symm.trans hf'
      · cases hf.symm.trans hf'
        exact absurd hrule (by simp [hforeign])
    · intro hnone
      cases h : loaded home env shared project with
      | ok s => exact .inl ⟨s, rfl⟩
      | error f =>
          cases hrule : f.isRule with
          | true => exact .inr ⟨f, rfl, hrule⟩
          | false => exact absurd ⟨f, h, hrule⟩ hnone
  · intro s h
    obtain ⟨-, -, -, -, horder, hshare⟩ := loaded_eq_ok_iff.mp h
    exact ⟨Decimal.isShare_iff.mp hshare, by simpa [sortOrders] using horder⟩

end

/-- A file of a project with a share of words. -/
def withRatio (v : Value) : Layer :=
  ⟨"snipstack.yaml", .object [("search", .object [("min_match_ratio", v)])]⟩

/-- A share above 1 is against the rules, but what is no number at all is another fault. -/
theorem loaded_faults_ratio :
    let outcome (v : Value) := loaded "/home/user" [] none (some (withRatio v))
    (∃ f, outcome (.scalar "2") = .error f ∧ f.isRule) ∧
    ¬((∃ s, outcome (.scalar "high") = .ok s) ∨
      ∃ f, outcome (.scalar "high") = .error f ∧ f.isRule) := by
  intro outcome
  refine ⟨⟨.noShare, rfl, rfl⟩, fun h => ?_⟩
  refine (loaded_faults "/home/user" [] none (some (withRatio (.scalar "high")))).1.mp h ?_
  refine .inr ⟨nofun, .inr ⟨.minMatchRatio, fun husable => ?_, nofun⟩⟩
  obtain ⟨x, hx⟩ := husable.converts (.scalar "high") rfl
  cases hx

end Clipboard.Settings
