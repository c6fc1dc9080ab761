import Mathlib.Data.List.Nodup
import Clipboard.Settings.Value

/-!
Places inside a value of settings: through the fields of objects and the items of lists. What is
found under a key, and what the setting of a field leaves of the others.
-/

namespace Clipboard.Settings

inductive Step
  | field (key : Scalar)
  | item (index : Nat)

def Step.IsItem : Step → Prop
  | item _ => True
  | field _ => False

instance : DecidablePred Step.IsItem
  | .item _ => isTrue trivial
  | .field _ => isFalse id

namespace Value

/-- The part `w` of a value, by the steps that lead to it. -/
inductive At : Value → List Step → Value → Prop
  | here (v : Value) : At v [] v
  | field {fields : Fields} {key : Scalar} {v w : Value} {place : List Step} :
      (key, v) ∈ fields → At v place w → At (object fields) (.field key :: place) w
  | item {xs : List Value} {index : Nat} {v w : Value} {place : List Step} :
      xs[index]? = some v → At v place w → At (list xs) (.item index :: place) w
  | key {u v w : Value} {place : List Step} : At u place w → At (pair u v) (.item 0 :: place) w
  | value {u v w : Value} {place : List Step} : At v place w → At (pair u v) (.item 1 :: place) w

/-- An object at the place has the key. -/
def HasKey (v : Value) (place : List Step) (key : Scalar) : Prop :=
  ∃ fields, v.At place (object fields) ∧ key ∈ fields.map (·.1)

end Value

/-- No two keys of the fields stand for each other. -/
def IsDistinct (fields : Fields) : Prop := (fields.map (·.1.identity)).Nodup

/-- No object in the value has two keys that stand for each other. -/
def Value.IsKeyed (v : Value) : Prop := ∀ place fields, v.At place (.object fields) → IsDistinct fields

section

open Value

variable {fields : Fields} {key key' : Scalar} {v : Value} {place : List Step}

theorem Value.hasKey_object_nil : (object fields).HasKey [] key ↔ key ∈ fields.map (·.1) := by
  constructor
  · rintro ⟨_, hat, hkey⟩
    cases hat
    exact hkey
  · intro hkey
    exact ⟨fields, .here _, hkey⟩

theorem Value.hasKey_object_cons {step : Step} :
    (object fields).HasKey (step :: place) key ↔
      ∃ f ∈ fields, step = .field f.1 ∧ f.2.HasKey place key := by
  constructor
  · rintro ⟨others, hat, hkey⟩
    cases hat with
    | field hmem hat => exact ⟨_, hmem, rfl, others, hat, hkey⟩
  · rintro ⟨f, hmem, rfl, others, hat, hkey⟩
    exact ⟨others, .field hmem hat, hkey⟩

/-- Keys stand in objects, and behind an item only in lists and pairs. -/
theorem Value.HasKey.cases_head (h : v.HasKey place key) :
    (∃ fields, v = object fields) ∨ ∃ i rest, place = .item i :: rest := by
  obtain ⟨fields, hat, -⟩ := h
  cases hat with
  | here => exact .inl ⟨_, rfl⟩
  | field => exact .inl ⟨_, rfl⟩
  | item => exact .inr ⟨_, _, rfl⟩
  | key => exact .inr ⟨_, _, rfl⟩
  | value => exact .inr ⟨_, _, rfl⟩

theorem Value.IsKeyed.isDistinct (h : (object fields).IsKeyed) : IsDistinct fields :=
  h [] fields (.here _)

theorem Value.IsKeyed.of_mem (h : (object fields).IsKeyed) (hmem : (key, v) ∈ fields) :
    v.IsKeyed := by
  intro place others hat
  exact h (.field key :: place) others (.field hmem hat)

theorem Value.isKeyed_object_iff :
    (object fields).IsKeyed ↔ IsDistinct fields ∧ ∀ f ∈ fields, f.2.IsKeyed := by
  constructor
  · intro h
    exact ⟨h.isDistinct, fun _ hf => h.of_mem hf⟩
  · rintro ⟨hdistinct, hfields⟩ place others hat
    cases hat with
    | here => exact hdistinct
    | field hmem hat => exact hfields _ hmem _ _ hat

theorem Value.isKeyed_object_nil : (object []).IsKeyed :=
  isKeyed_object_iff.mpr ⟨List.nodup_nil, fun _ hf => absurd hf List.not_mem_nil⟩

theorem Value.isKeyed_scalar (s : Scalar) : (scalar s).IsKeyed := by
  intro place fields hat
  cases hat

/-! ## Fields under their keys -/

theorem isDistinct_cons {k : Scalar} :
    IsDistinct ((k, v) :: fields) ↔
      (∀ f ∈ fields, f.1.identity ≠ k.identity) ∧ IsDistinct fields := by
  rw [IsDistinct, List.map_cons, List.nodup_cons, List.mem_map]
  refine and_congr_left fun _ => ?_
  rw [not_exists]
  exact forall_congr' fun f => not_and

theorem identity_text_ne {s t : String} (h : s ≠ t) :
    (Scalar.text s).identity ≠ (Scalar.text t).identity :=
  fun he => h (Identity.text.inj he)

theorem mem_of_lookup (h : lookup? key fields = some v) :
    ∃ k, (k, v) ∈ fields ∧ k.identity = key.identity := by
  induction fields with
  | nil => cases h
  | cons f fields ih =>
      obtain ⟨k, w⟩ := f
      rw [lookup?] at h
      split at h
      · rename_i hkey
        cases h
        exact ⟨k, List.mem_cons_self, hkey⟩
      · obtain ⟨k', hmem, hkey⟩ := ih h
        exact ⟨k', List.mem_cons_of_mem _ hmem, hkey⟩

theorem lookup_eq_none (h : ∀ f ∈ fields, f.1.identity ≠ key.identity) :
    lookup? key fields = none := by
  cases hlookup : lookup? key fields with
  | none => rfl
  | some v =>
      obtain ⟨k, hmem, hkey⟩ := mem_of_lookup hlookup
      exact absurd hkey (h _ hmem)

theorem lookup_congr (h : key'.identity = key.identity) : lookup? key' fields = lookup? key fields := by
  induction fields with
  | nil => rfl
  | cons f fields ih => rw [lookup?, lookup?, h, ih]

theorem lookup_setField (key key' : Scalar) (v : Value) (fields : Fields) :
    lookup? key' (setField key v fields) =
      if key'.identity = key.identity then some v else lookup? key' fields := by
  induction fields with
  | nil =>
      rw [setField, lookup?, lookup?]
      exact if_congr eq_comm rfl rfl
  | cons f fields ih =>
      obtain ⟨k, w⟩ := f
      rw [setField]
      by_cases hk : k.identity = key.identity
      · rw [if_pos hk, lookup?, lookup?, hk]
        by_cases h : key'.identity = key.identity
        · rw [if_pos h, if_pos h.symm]
        · rw [if_neg h, if_neg (Ne.symm h), if_neg (Ne.symm h)]
      · rw [if_neg hk, lookup?, lookup?, ih]
        by_cases h : key'.identity = key.identity
        · rw [if_pos h, if_pos h, h, if_neg hk]
        · rw [if_neg h, if_neg h]

theorem lookup_setField_self : lookup? key (setField key v fields) = some v := by
  rw [lookup_setField, if_pos rfl]

theorem lookup_setField_of_ne (h : key'.identity ≠ key.identity) :
    lookup? key' (setField key v fields) = lookup? key' fields := by
  rw [lookup_setField, if_neg h]

/-- A field with a new key comes last. -/
theorem setField_of_new (h : ∀ f ∈ fields, f.1.identity ≠ key.identity) :
    setField key v fields = fields ++ [(key, v)] := by
  induction fields with
  | nil => rfl
  | cons f fields ih =>
      obtain ⟨hf, hfields⟩ := List.forall_mem_cons.mp h
      rw [setField, if_neg hf, ih hfields]
      rfl

theorem mem_setField {f : Scalar × Value} (h : f ∈ setField key v fields) :
    f.1.identity = key.identity ∧ f.2 = v ∨ f ∈ fields := by
  induction fields with
  | nil =>
      obtain rfl := List.mem_singleton.mp h
      exact .inl ⟨rfl, rfl⟩
  | cons g fields ih =>
      obtain ⟨k, w⟩ := g
      rw [setField] at h
      by_cases hkey : k.identity = key.identity
      · rw [if_pos hkey] at h
        rcases List.mem_cons.mp h with rfl | h
        · exact .inl ⟨hkey, rfl⟩
        · exact .inr (List.mem_cons_of_mem _ h)
      · rw [if_neg hkey] at h
        rcases List.mem_cons.mp h with rfl | h
        · exact .inr List.mem_cons_self
        · rcases ih h with h | h
          · exact .inl h
          · exact .inr (List.mem_cons_of_mem _ h)

/-- The setting of a field adds no key but its own. -/
theorem forall_setField_iff {P : Scalar → Prop} (hkey : P key) :
    (∀ f ∈ setField key v fields, P f.1) ↔ ∀ f ∈ fields, P f.1 := by
  induction fields with
  | nil => simp [setField, hkey]
  | cons g fields ih =>
      rw [setField]
      split
      · rw [List.forall_mem_cons, List.forall_mem_cons]
      · rw [List.forall_mem_cons, List.forall_mem_cons, ih]

theorem isDistinct_setField (h : IsDistinct fields) : IsDistinct (setField key v fields) := by
  induction fields with
  | nil => exact List.nodup_singleton _
  | cons f fields ih =>
      obtain ⟨k, w⟩ := f
      obtain ⟨hk, hfields⟩ := isDistinct_cons.mp h
      rw [setField]
      by_cases hkey : k.identity = key.identity
      · rw [if_pos hkey]
        exact isDistinct_cons.mpr ⟨hk, hfields⟩
      · rw [if_neg hkey]
        refine isDistinct_cons.mpr ⟨fun f hf => ?_, ih hfields⟩
        rcases mem_setField hf with ⟨he, -⟩ | hf
        · exact he ▸ Ne.symm hkey
        · exact hk f hf

end

end Clipboard.Settings
