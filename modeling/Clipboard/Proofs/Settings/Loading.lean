import Clipboard.Proofs.Settings.Environment

/-!
Settings loaded from both files and the environment: what loading comes to, whatever is warned of on
the way, and which faults it can end with.
-/

namespace Clipboard

namespace Settings

open Fallible
open Remote (Environment)

/-! ## One layer -/

theorem Reading.bind_outcome {α β : Type} (x : Reading α) (k : α → Reading β) (w : List String) :
    ((x >>= k).run.run w).1 = (x.run.run w).1 >>= fun a => ((k a).run.run (x.run.run w).2).1 := by
  simp only [bind, ExceptT.bind, ExceptT.run, ExceptT.mk, StateT.bind, StateT.run,
    ExceptT.bindCont]
  rcases x w with ⟨_ | _, w'⟩ <;> rfl

theorem Reading.pure_outcome {α : Type} (a : α) (w : List String) :
    ((pure a : Reading α).run.run w).1 = .ok a :=
  rfl

theorem Reading.of_run {α : Type} (c : Except Fault α) (w : List String) :
    (Reading.of c).run.run w = (c, w) := by
  cases c <;> rfl

namespace Layer

/-- The value of a file that can be used: an object with keys that can be shown, or as good as
nothing. -/
def IsReadable (l : Layer) : Prop :=
  l.value.isPresent → ∃ fields, l.value = .object fields ∧ ∀ f ∈ fields, f.1.isOverlong = false

variable {l : Layer}

theorem isReadable_object_iff {path : String} {fields : Fields} :
    IsReadable ⟨path, .object fields⟩ ↔ ∀ f ∈ fields, f.1.isOverlong = false := by
  constructor
  · intro h f hf
    have hpresent : (Value.object fields).isPresent := by
      cases fields with
      | nil => cases hf
      | cons => rfl
    obtain ⟨_, hfields, hshown⟩ := h hpresent
    cases hfields
    exact hshown f hf
  · intro h _
    exact ⟨fields, rfl, h⟩

theorem unknownKeys_scalars (l : Layer) {keys : List Scalar}
    (h : ∀ k ∈ keys, k.isOverlong = false) : (unknownKeys l (keys.map .scalar)).2 = none := by
  induction keys with
  | nil => rfl
  | cons key keys ih =>
      obtain ⟨hkey, hkeys⟩ := List.forall_mem_cons.mp h
      have hshown : (Value.scalar key).isOverlong = false := hkey
      rw [List.map_cons, unknownKeys, if_neg (by simp [isSought, Value.isKey]),
        if_neg (by simp [hshown])]
      dsimp only
      split
      · exact ih hkeys
      · exact ih hkeys

theorem not_isRule_of_unknownKeys {keys : List Value} {f : Fault}
    (h : (unknownKeys l keys).2 = some f) : f.isRule = false := by
  fun_induction unknownKeys l keys with
  | case1 => cases h
  | case2 =>
      cases h
      rfl
  | case3 =>
      cases h
      rfl
  | case4 v vs _ _ warnings fault hrest _ ih => exact ih (hrest ▸ h)
  | case5 v vs _ _ warnings fault hrest _ ih => exact ih (hrest ▸ h)

/-- A key that cannot be shown is met at the latest when it is warned of. -/
theorem unknownKeys_of_overlong (l : Layer) {keys : List Scalar} {key : Scalar}
    (hmem : key ∈ keys) (h : key.isOverlong) :
    (unknownKeys l (keys.map .scalar)).2 = some (.convert .overlong) := by
  induction keys with
  | nil => cases hmem
  | cons k keys ih =>
      rw [List.map_cons, unknownKeys, if_neg (by simp [isSought, Value.isKey])]
      cases hk : k.isOverlong with
      | true => exact congrArg Prod.snd (if_pos hk)
      | false =>
          have hmem : key ∈ keys := by
            rcases List.mem_cons.mp hmem with rfl | hmem
            · simp [h] at hk
            · exact hmem
          have hshown : (Value.scalar k).isOverlong = false := hk
          rw [if_neg (by simp [hshown])]
          dsimp only
          split
          · exact ih hmem
          · exact ih hmem

/-- The value of a file, an empty object for as good as nothing. -/
def content (l : Layer) : Value := if l.value.isPresent then l.value else .object []

theorem content_of_isReadable (h : l.IsReadable) :
    l.content = .object l.fields ∧ ∀ f ∈ l.fields, f.1.isOverlong = false := by
  obtain ⟨path, value⟩ := l
  cases hpresent : value.isPresent with
  | true =>
      obtain ⟨fields, hvalue, hshown⟩ := h hpresent
      cases hvalue
      exact ⟨if_pos hpresent, hshown⟩
  | false =>
      have hcontent : content ⟨path, value⟩ = .object [] := if_neg (by simp [hpresent])
      rw [hcontent]
      cases value with
      | object fields =>
          have hnil : fields = [] := by simpa [Value.isPresent] using hpresent
          subst hnil
          exact ⟨rfl, List.forall_mem_nil _⟩
      | _ => exact ⟨rfl, List.forall_mem_nil _⟩

/-- If a file cannot be used and holds an object all the same, one of its keys cannot be shown. -/
theorem content_of_not_isReadable (h : ¬l.IsReadable) {fields : Fields}
    (hcontent : l.content = .object fields) : ∃ f ∈ fields, f.1.isOverlong := by
  obtain ⟨hpresent, hobject⟩ := Classical.not_imp.mp h
  rw [content, if_pos hpresent] at hcontent
  by_contra hnone
  refine hobject ⟨fields, hcontent, fun f hf => ?_⟩
  exact eq_false_of_ne_true fun hlong => hnone ⟨f, hf, hlong⟩

theorem keysOf_object (fields : Fields) :
    keysOf (.object fields) = .ok ((fields.map (·.1)).map .scalar) := by
  rw [keysOf, List.map_map]
  rfl

/-- What comes of a layer over others when its keys have been looked at. -/
def laidOver (l : Layer) (base : Fields) (keys : List Value) : Except Fault Fields :=
  match (unknownKeys l keys).2, l.content with
  | some f, _ => .error f
  | none, .object fields => .ok (overlayFields base fields)
  | none, _ => .error .notObject

/-- What the addition of a layer comes to, whatever has been warned of before. -/
theorem addLayer_outcome (base : Fields) (l : Layer) (w : List String) :
    ((addLayer base l).run.run w).1 = keysOf l.content >>= l.laidOver base := by
  rw [addLayer, Reading.bind_outcome, Reading.of_run]
  refine congrArg (keysOf l.content >>= ·) (funext fun keys => ?_)
  change ((_ >>= _ : Reading Fields).run.run w).1 = _
  rw [Reading.bind_outcome]
  change ((match (unknownKeys l keys).2, l.content with
    | some f, _ => throw f
    | none, .object fields => pure (overlayFields base fields)
    | none, _ => throw .notObject : Reading Fields).run.run _).1 = _
  unfold laidOver
  split <;> rfl

theorem addLayer_of_isReadable (h : l.IsReadable) (base : Fields) (w : List String) :
    ((addLayer base l).run.run w).1 = .ok (overlayFields base l.fields) := by
  obtain ⟨hcontent, hshown⟩ := content_of_isReadable h
  rw [addLayer_outcome, hcontent, keysOf_object]
  change l.laidOver base ((l.fields.map (·.1)).map .scalar) = _
  rw [laidOver, unknownKeys_scalars l (by simpa using fun k v hf => hshown (k, v) hf), hcontent]

theorem addLayer_of_not_isReadable (h : ¬l.IsReadable) (base : Fields) (w : List String) :
    ∃ f, ((addLayer base l).run.run w).1 = .error f ∧ f.isRule = false := by
  rw [addLayer_outcome]
  cases hkeys : keysOf l.content with
  | error f => exact ⟨f, rfl, not_isRule_of_keysOf hkeys⟩
  | ok keys =>
      change ∃ f, l.laidOver base keys = .error f ∧ f.isRule = false
      unfold laidOver
      split
      · rename_i f hunknown
        exact ⟨f, rfl, not_isRule_of_unknownKeys hunknown⟩
      · rename_i fields hunknown hcontent
        obtain ⟨f, hf, hlong⟩ := content_of_not_isReadable h hcontent
        rw [hcontent, keysOf_object] at hkeys
        cases hkeys
        rw [unknownKeys_of_overlong l (List.mem_map_of_mem hf) hlong] at hunknown
        cases hunknown
      · exact ⟨.notObject, rfl, rfl⟩

end Layer

/-! ## Both layers -/

/-- The fields of a file; a file that is not there has none. -/
def fieldsOf (layer : Option Layer) : Fields := (layer.map (·.fields)).getD []

/-- What a file gives for a setting. -/
def Setting.given? (x : Setting) (layer : Option Layer) : Option Value :=
  lookup? x.key (fieldsUnder (fieldsOf layer) x.place.name)

theorem isKeyed_fieldsOf {layer : Option Layer} (h : ∀ l ∈ layer, l.value.IsKeyed) :
    (Value.object (fieldsOf layer)).IsKeyed := by
  cases layer with
  | none => exact Value.isKeyed_object_nil
  | some l => exact Layer.isKeyed_fields (h l rfl)

/-- The fields of both files over one another. -/
def joined (shared project : Option Layer) : Fields :=
  overlayFields (overlayFields [] (fieldsOf shared)) (fieldsOf project)

/-- The fields of a file over those below it, if it is there and can be used. -/
def overlaid (base : Fields) : Option Layer → Except Fault Fields
  | none => .ok base
  | some l => ((addLayer base l).run.run []).1

section

variable {base g : Fields} {layer : Option Layer} {f : Fault}

theorem overlaid_eq_ok_iff : overlaid base layer = .ok g ↔
    (∀ l ∈ layer, l.IsReadable) ∧ overlayFields base (fieldsOf layer) = g := by
  cases layer with
  | none => simp [overlaid, fieldsOf, overlayFields]
  | some l =>
      simp only [overlaid, Option.mem_some_iff, forall_eq']
      by_cases h : l.IsReadable
      · rw [Layer.addLayer_of_isReadable h]
        simp [h, fieldsOf]
      · obtain ⟨f, hf, -⟩ := Layer.addLayer_of_not_isReadable h base []
        simp [h, hf]

theorem not_isRule_of_overlaid (h : overlaid base layer = .error f) :
    f.isRule = false ∧ ∃ l ∈ layer, ¬l.IsReadable := by
  cases layer with
  | none => cases h
  | some l =>
      rw [overlaid] at h
      by_cases hl : l.IsReadable
      · rw [Layer.addLayer_of_isReadable hl] at h
        cases h
      · obtain ⟨f', hf, hrule⟩ := Layer.addLayer_of_not_isReadable hl base []
        rw [hf] at h
        cases h
        exact ⟨hrule, l, rfl, hl⟩

end

/-- What loading comes to. -/
def loaded (home : String) (env : Environment) (shared project : Option Layer) :
    Except Fault Settings :=
  ((load home env shared project).run.run []).1

section

variable {home : String} {env : Environment} {shared project : Option Layer} {s : Settings}
variable {f : Fault}

theorem loaded_eq : loaded home env shared project = do
    shared.elim (.ok ()) checkSecrets
    let base ← overlaid [] shared
    let fields ← overlaid base project
    return withEnvironment env (← ofFields home fields) := by
  have hover : ∀ base l w, ((addLayer base l).run.run w).1 = overlaid base (some l) := by
    intro base l w
    rw [overlaid, Layer.addLayer_outcome, Layer.addLayer_outcome]
  unfold loaded load
  -- Each file may be there or not, and what follows is written out for each case.
  cases shared <;> cases project <;>
    simp only [Reading.bind_outcome, Reading.of_run, Reading.pure_outcome, hover] <;> rfl

theorem checkSecrets_eq_ok_iff {l : Layer} : checkSecrets l = .ok () ↔ l.stop? = none := by
  unfold checkSecrets
  split <;> simp_all

theorem not_isRule_of_refusal {l : Layer} {path key : Scalar} :
    (l.refusal path key).isRule = false ↔ key.isOverlong := by
  unfold Layer.refusal
  split
  · rename_i h
    exact iff_of_true rfl h
  · rename_i h
    exact iff_of_false nofun h

/-- What settings are loaded: no secret is found in the file for all projects, both files can be used,
each setting has the value that is left for it, and the rules of the search are obeyed. -/
theorem loaded_eq_ok_iff : loaded home env shared project = .ok s ↔
    (∀ l ∈ shared, l.stop? = none) ∧ (∀ l ∈ shared, l.IsReadable) ∧
      (∀ l ∈ project, l.IsReadable) ∧
        (∀ x : Setting, x.settledIn home env (joined shared project) = .ok (x.get s)) ∧
          s.IsLawful := by
  have hsecret : shared.elim (.ok ()) checkSecrets = .ok () ↔ ∀ l ∈ shared, l.stop? = none := by
    cases shared with
    | none => simp
    | some l => simp [checkSecrets_eq_ok_iff]
  simp only [loaded_eq, bind_eq_ok_iff, overlaid_eq_ok_iff, ← hsecret, ← ofFields_settled_iff]
  constructor
  · rintro ⟨⟨⟩, hchecked, base, ⟨hshared, rfl⟩, fields, ⟨hproject, rfl⟩, s', hs', henv⟩
    exact ⟨hchecked, hshared, hproject, s', hs', Except.ok.inj henv⟩
  · rintro ⟨hchecked, hshared, hproject, s', hs', rfl⟩
    exact ⟨(), hchecked, _, ⟨hshared, rfl⟩, _, ⟨hproject, rfl⟩, s', hs', rfl⟩

/-- The first fault met: a key of the file for all projects, a file that cannot be used, or a fault of
the fields. -/
theorem loaded_eq_error (h : loaded home env shared project = .error f) :
    (∃ l path key, shared = some l ∧ l.stop? = some (path, key) ∧ f = l.refusal path key) ∨
    (∀ l ∈ shared, l.stop? = none) ∧
      (f.isRule = false ∧ (∃ l, (l ∈ shared ∨ l ∈ project) ∧ ¬l.IsReadable) ∨
      (∀ l, l ∈ shared ∨ l ∈ project → l.IsReadable) ∧
        ofFields home (joined shared project) = .error f) := by
  rw [loaded_eq] at h
  rcases bind_eq_error_iff.mp h with h | ⟨⟨⟩, hchecked, h⟩
  · cases shared with
    | none => cases h
    | some l =>
        simp only [Option.elim_some, checkSecrets] at h
        split at h
        · rename_i path key hstop
          cases h
          exact .inl ⟨l, path, key, rfl, hstop, rfl⟩
        · cases h
  refine .inr ⟨?_, ?_⟩
  · rintro l rfl
    exact checkSecrets_eq_ok_iff.mp hchecked
  rcases bind_eq_error_iff.mp h with h | ⟨base, hbase, h⟩
  · obtain ⟨hrule, l, hl, hreadable⟩ := not_isRule_of_overlaid h
    exact .inl ⟨hrule, l, .inl hl, hreadable⟩
  rcases bind_eq_error_iff.mp h with h | ⟨fields, hfields, h⟩
  · obtain ⟨hrule, l, hl, hreadable⟩ := not_isRule_of_overlaid h
    exact .inl ⟨hrule, l, .inr hl, hreadable⟩
  obtain ⟨hshared, rfl⟩ := overlaid_eq_ok_iff.mp hbase
  obtain ⟨hproject, rfl⟩ := overlaid_eq_ok_iff.mp hfields
  refine .inr ⟨fun l hl => hl.elim (hshared l) (hproject l), ?_⟩
  rcases bind_eq_error_iff.mp h with h | ⟨_, -, h⟩
  · exact h
  · cases h

theorem loaded_eq_refusal {l : Layer} {path key : Scalar} (h : l.stop? = some (path, key)) :
    loaded home env (some l) project = .error (l.refusal path key) := by
  rw [loaded_eq, Option.elim_some, checkSecrets, h]
  rfl

theorem loaded_eq_secret_iff {l : Layer} {path key : Scalar} :
    loaded home env shared project = .error (.secret l path key) ↔
      shared = some l ∧ l.stop? = some (path, key) ∧ key.isOverlong = false := by
  constructor
  · intro h
    rcases loaded_eq_error h with ⟨l', path', key', hl, hstop, hf⟩ | ⟨-, ⟨hrule, -⟩ | ⟨-, h⟩⟩
    · unfold Layer.refusal at hf
      split at hf
      · cases hf
      · rename_i hlong
        cases hf
        exact ⟨hl, hstop, eq_false_of_ne_true hlong⟩
    · cases hrule
    · rcases ofFields_eq_error h with ⟨x, hx, -⟩ | ⟨hunlawful, -⟩
      · cases Setting.not_isRule_of_valueIn hx
      · cases hunlawful
  · rintro ⟨rfl, hstop, hshown⟩
    rw [loaded_eq_refusal hstop, Layer.refusal, if_neg (by simp [hshown])]

/-- Loading ends with a fault that is none of the rules exactly if a key of the file for all projects
cannot be checked, or none is refused, and a file cannot be used or a setting has no value. -/
theorem loaded_spoiled_iff : (∃ f, loaded home env shared project = .error f ∧ f.isRule = false) ↔
    (∃ l ∈ shared, ∃ path key, l.stop? = some (path, key) ∧ key.isOverlong) ∨
    (∀ l ∈ shared, l.stop? = none) ∧
      ((∃ l, (l ∈ shared ∨ l ∈ project) ∧ ¬l.IsReadable) ∨
        ∃ x : Setting, ¬Succeeds (x.valueIn home (joined shared project)) ∧
          (x.place.isLate → ObeysRules home (joined shared project))) := by
  rw [← ofFields_spoiled_iff]
  constructor
  · rintro ⟨f, h, hf⟩
    rcases loaded_eq_error h with ⟨l, path, key, hl, hstop, rfl⟩ | ⟨hnone, ⟨-, hl⟩ | ⟨-, h⟩⟩
    · exact .inl ⟨l, hl, path, key, hstop, not_isRule_of_refusal.mp hf⟩
    · exact .inr ⟨hnone, .inl hl⟩
    · exact .inr ⟨hnone, .inr ⟨f, h, hf⟩⟩
  · rintro (⟨l, hl, path, key, hstop, hlong⟩ | ⟨hnone, hspoiled⟩)
    · obtain rfl : shared = some l := hl
      exact ⟨_, loaded_eq_refusal hstop, not_isRule_of_refusal.mpr hlong⟩
    cases h : loaded home env shared project with
    | ok s =>
        obtain ⟨-, hshared, hproject, hfields⟩ := loaded_eq_ok_iff.mp h
        obtain ⟨s', hs', -⟩ := ofFields_settled_iff.mpr hfields
        rcases hspoiled with ⟨l, hl, hreadable⟩ | ⟨f, hf, -⟩
        · exact absurd (hl.elim (hshared l) (hproject l)) hreadable
        · rw [hs'] at hf
          cases hf
    | error f =>
        refine ⟨f, rfl, ?_⟩
        rcases loaded_eq_error h with ⟨l, path, key, rfl, hfound, -⟩ | ⟨-, ⟨hrule, -⟩ | ⟨hl, h⟩⟩
        · rw [hnone l rfl] at hfound
          cases hfound
        · exact hrule
        · rcases hspoiled with ⟨l, hmem, hreadable⟩ | ⟨f', hf, hrule⟩
          · exact absurd (hl l hmem) hreadable
          · cases hf.symm.trans h
            exact hrule

end

end Settings

end Clipboard
