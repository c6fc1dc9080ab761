import Clipboard.Proofs.Settings.Loading

/-!
Sections without keys: null in the place of a section, and an empty object. In the file for all
projects they are the same. In the file of a project an empty object leaves what the section says in
the file for all projects, and null does not.
-/

namespace Clipboard.Settings

open Remote (Environment)

/-- A file with a value under a name. -/
def Layer.withSection (l : Layer) (name : String) (v : Value) : Layer :=
  { l with value := .object (setField name v l.fields) }

section

variable {home : String} {env : Environment} {shared project layer : Option Layer} {l : Layer}
variable {base fields : Fields} {name : String} {p : Section} {v : Value}

/-! ## A section put in -/

theorem Layer.isReadable_withSection :
    (l.withSection name v).IsReadable ↔ ∀ f ∈ l.fields, f.1.isOverlong = false :=
  isReadable_object_iff.trans (forall_setField_iff (P := fun k => k.isOverlong = false) rfl)

theorem isKeyed_setField (h : (Value.object fields).IsKeyed) (hv : v.IsKeyed) :
    (Value.object (setField name v fields)).IsKeyed := by
  refine Value.isKeyed_object_iff.mpr ⟨isDistinct_setField h.isDistinct, fun f hf => ?_⟩
  rcases mem_setField hf with ⟨-, hf⟩ | hf
  · exact hf ▸ hv
  · exact h.of_mem hf

theorem stopAmong_setField (name : String) (fields : Fields) (path : Scalar) :
    stopAmong? path (setField name (.scalar .null) fields) =
      stopAmong? path (setField name (.object []) fields) := by
  induction fields with
  | nil => rfl
  | cons f fields ih =>
      obtain ⟨k, w⟩ := f
      rw [setField, setField]
      split
      · rfl
      · rw [stopAmong?, stopAmong?, ih]

/-! ## Sections of joined fields -/

theorem sectionIn_congr {fields' : Fields} (h : lookup? p.name fields = lookup? p.name fields') :
    sectionIn fields p = sectionIn fields' p := by
  rw [sectionIn, sectionIn, section?, section?, h]

theorem sectionIn_over_emptied (h : IsDistinct fields) :
    sectionIn (overlayFields (setField name (.scalar .null) base) fields) p =
      sectionIn (overlayFields (setField name (.object []) base) fields) p := by
  by_cases hp : p.name = name
  · subst hp
    rw [sectionIn, sectionIn, section?, section?, lookup_overlayFields h, lookup_overlayFields h,
      lookup_setField_self, lookup_setField_self]
    cases lookup? p.name fields with
    | none => rfl
    | some v => cases v <;> rfl
  · refine sectionIn_congr ?_
    rw [lookup_overlayFields h, lookup_overlayFields h, lookup_setField_of_ne (identity_text_ne hp),
      lookup_setField_of_ne (identity_text_ne hp)]

theorem sectionIn_null_over (h : IsDistinct fields) (hp : p.name = name) :
    sectionIn (overlayFields base (setField name (.scalar .null) fields)) p = .ok [] := by
  subst hp
  rw [sectionIn, section?, lookup_overlayFields (isDistinct_setField h),
    lookup_setField_self]
  rfl

theorem sectionIn_empty_over (h : IsDistinct fields) (hp : p.name = name) :
    sectionIn (overlayFields base (setField name (.object []) fields)) p =
      .ok (fieldsUnder base name) := by
  subst hp
  rw [sectionIn, section?, lookup_overlayFields (isDistinct_setField h),
    lookup_setField_self]
  rfl

theorem sectionIn_emptied_over_of_ne (h : IsDistinct fields) (hp : p.name ≠ name) :
    sectionIn (overlayFields base (setField name v fields)) p =
      sectionIn (overlayFields base fields) p := by
  refine sectionIn_congr ?_
  rw [lookup_overlayFields (isDistinct_setField h), lookup_overlayFields h,
    lookup_setField_of_ne (identity_text_ne hp)]

theorem Setting.settledIn_congr {fields' : Fields} {x : Setting}
    (h : sectionIn fields x.place = sectionIn fields' x.place) :
    x.settledIn home env fields = x.settledIn home env fields' := by
  rw [settledIn, settledIn, h]

end

/-! ## Settings of files with an emptied section -/

section

variable {home : String} {env : Environment} {shared project : Option Layer} {g l : Layer}
variable {name : String} {v : Value} {x : Setting}

theorem joined_withSection_shared (hg : g.value.IsKeyed) (hv : v.IsKeyed) :
    joined (some (g.withSection name v)) project =
      overlayFields (setField name v g.fields) (fieldsOf project) :=
  congrArg (overlayFields · (fieldsOf project))
    (overlayFields_nil (isKeyed_setField (Layer.isKeyed_fields hg) hv))

theorem joined_withSection_project (hshared : ∀ l ∈ shared, l.value.IsKeyed) :
    joined shared (some (l.withSection name v)) =
      overlayFields (fieldsOf shared) (setField name v l.fields) :=
  congrArg (overlayFields · (setField name v l.fields))
    (overlayFields_nil (isKeyed_fieldsOf hshared))

theorem settledIn_shared_emptied (hg : g.value.IsKeyed) (hproject : ∀ l ∈ project, l.value.IsKeyed)
    (x : Setting) : x.settledIn home env (joined (some (g.withSection name (.scalar .null))) project) =
      x.settledIn home env (joined (some (g.withSection name (.object []))) project) := by
  refine Setting.settledIn_congr ?_
  rw [joined_withSection_shared hg (Value.isKeyed_scalar _),
    joined_withSection_shared hg Value.isKeyed_object_nil]
  exact sectionIn_over_emptied (isKeyed_fieldsOf hproject).isDistinct

theorem settledIn_project_null (hshared : ∀ l ∈ shared, l.value.IsKeyed) (hl : l.value.IsKeyed)
    (hx : x.place.name = name) :
    x.settledIn home env (joined shared (some (l.withSection name (.scalar .null)))) =
      x.settled home env none := by
  rw [Setting.settledIn, joined_withSection_project hshared,
    sectionIn_null_over (Layer.isKeyed_fields hl).isDistinct hx]
  rfl

theorem settledIn_project_empty (hshared : ∀ l ∈ shared, l.value.IsKeyed) (hl : l.value.IsKeyed)
    (hx : x.place.name = name) :
    x.settledIn home env (joined shared (some (l.withSection name (.object [])))) =
      x.settled home env (x.given? shared) := by
  rw [Setting.settledIn, joined_withSection_project hshared,
    sectionIn_empty_over (Layer.isKeyed_fields hl).isDistinct hx, ← hx]
  rfl

theorem settledIn_project_of_ne (hshared : ∀ l ∈ shared, l.value.IsKeyed) (hl : l.value.IsKeyed)
    (hx : x.place.name ≠ name) :
    x.settledIn home env (joined shared (some (l.withSection name (.scalar .null)))) =
      x.settledIn home env (joined shared (some (l.withSection name (.object [])))) := by
  refine Setting.settledIn_congr ?_
  rw [joined_withSection_project hshared, joined_withSection_project hshared,
    sectionIn_emptied_over_of_ne (Layer.isKeyed_fields hl).isDistinct hx,
    sectionIn_emptied_over_of_ne (Layer.isKeyed_fields hl).isDistinct hx]

theorem loaded_shared_emptied (hg : g.value.IsKeyed) (hproject : ∀ l ∈ project, l.value.IsKeyed)
    (s : Settings) : loaded home env (some (g.withSection name (.scalar .null))) project = .ok s ↔
      loaded home env (some (g.withSection name (.object []))) project = .ok s := by
  have hstop : (g.withSection name (.scalar .null)).stop? =
      (g.withSection name (.object [])).stop? :=
    stopAmong_setField name g.fields ""
  simp only [loaded_eq_ok_iff, Option.mem_some_iff, forall_eq', hstop,
    Layer.isReadable_withSection, settledIn_shared_emptied hg hproject]

theorem loaded_project_emptied (hshared : ∀ l ∈ shared, l.value.IsKeyed) (hl : l.value.IsKeyed)
    (hsame : ∀ x : Setting, x.place.name = name →
      x.settled home env (x.given? shared) = x.settled home env none)
    (s : Settings) : loaded home env shared (some (l.withSection name (.scalar .null))) = .ok s ↔
      loaded home env shared (some (l.withSection name (.object []))) = .ok s := by
  have hsettled (x : Setting) :
      x.settledIn home env (joined shared (some (l.withSection name (.scalar .null)))) =
        x.settledIn home env (joined shared (some (l.withSection name (.object [])))) := by
    by_cases hx : x.place.name = name
    · rw [settledIn_project_null hshared hl hx, settledIn_project_empty hshared hl hx, hsame x hx]
    · exact settledIn_project_of_ne hshared hl hx
  simp only [loaded_eq_ok_iff, Option.mem_some_iff, forall_eq', Layer.isReadable_withSection,
    hsettled]

/-- Null in the place of an empty section of the file for all projects changes nothing. In the file of
a project it changes nothing exactly if the settings of the section are the same from the file for all
projects and from nothing. -/
theorem loaded_emptied (hg : g.value.IsKeyed) (hl : l.value.IsKeyed)
    (hshared : ∀ l ∈ shared, l.value.IsKeyed) (hproject : ∀ l ∈ project, l.value.IsKeyed) :
    (∀ s, loaded home env (some (g.withSection name (.scalar .null))) project = .ok s ↔
      loaded home env (some (g.withSection name (.object []))) project = .ok s) ∧
    ∀ s, loaded home env shared (some (l.withSection name (.scalar .null))) = .ok s ∨
        loaded home env shared (some (l.withSection name (.object []))) = .ok s →
      (loaded home env shared (some (l.withSection name (.scalar .null))) =
          loaded home env shared (some (l.withSection name (.object []))) ↔
        ∀ x : Setting, x.place.name = name →
          x.settled home env (x.given? shared) = x.settled home env none) := by
  refine ⟨loaded_shared_emptied hg hproject, fun s hs => ⟨fun h x hx => ?_, fun hsame => ?_⟩⟩
  · -- Both load, so that each setting is settled to its value in the one and in the other.
    have hnull : loaded home env shared (some (l.withSection name (.scalar .null))) = .ok s :=
      hs.elim id h.trans
    obtain ⟨-, -, -, hsettled, -⟩ := loaded_eq_ok_iff.mp hnull
    obtain ⟨-, -, -, hsettled', -⟩ := loaded_eq_ok_iff.mp (h.symm.trans hnull)
    rw [← settledIn_project_empty hshared hl hx, ← settledIn_project_null hshared hl hx, hsettled,
      hsettled']
  · have hiff := loaded_project_emptied hshared hl hsame s
    rcases hs with hs | hs
    · rw [hs, hiff.mp hs]
    · rw [hs, hiff.mpr hs]

end

/-- A model in the file for all projects, under an emptied section of the file of a project. -/
theorem loaded_emptied_model :
    let shared : Layer := ⟨"/home/user/.snipstack/config.yaml",
      .object [("llm", .object [("model", .scalar "ollama/llama3")])]⟩
    let project (name : String) (v : Value) : Layer :=
      (Layer.mk "snipstack.yaml" (.object [])).withSection name v
    let outcome (name : String) (v : Value) :=
      loaded "/home/user" [] (some shared) (some (project name v))
    outcome "llm" (.scalar .null) ≠ outcome "llm" (.object []) ∧
      outcome "search" (.scalar .null) = outcome "search" (.object []) := by
  intro shared project outcome
  have hshared : ∀ l ∈ some shared, l.value.IsKeyed := by
    intro l hl
    obtain rfl := Option.mem_some_iff.mp hl
    simp [shared, Value.isKeyed_object_iff, Value.isKeyed_scalar, IsDistinct]
  have hnone : ∀ l ∈ (none : Option Layer), l.value.IsKeyed := by
    rintro l ⟨⟩
  have hiff (name : String) (s : Settings) (hs : outcome name (.scalar .null) = .ok s) :=
    (loaded_emptied (hshared shared rfl) Value.isKeyed_object_nil hshared hnone).2 s (.inl hs)
  constructor
  · obtain ⟨s, hs⟩ : ∃ s, outcome "llm" (.scalar .null) = .ok s := ⟨_, rfl⟩
    intro h
    have hmodel := (hiff "llm" s hs).mp h .model rfl
    exact absurd (Except.ok.inj hmodel) (by decide)
  · obtain ⟨s, hs⟩ : ∃ s, outcome "search" (.scalar .null) = .ok s := ⟨_, rfl⟩
    refine (hiff "search" s hs).mpr fun x hx => ?_
    cases x with
    | minMatchRatio => rfl
    | minTermLength => rfl
    | defaultSort => rfl
    | _ => exact absurd hx (by decide)

end Clipboard.Settings
