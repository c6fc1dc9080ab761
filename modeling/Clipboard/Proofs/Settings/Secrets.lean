import Mathlib.Data.Option.Basic
import Clipboard.Proofs.Settings.Loading

/-!
Secrets in the file for all projects: which ones are found, and what is told of them.
-/

namespace Clipboard.Settings

open Remote (Environment)

/-- The path to a key, through the fields that lead to it from the end of another path. -/
def pathTo (path : Scalar) : List Step → Scalar → Scalar
  | [], key => below path key
  | .field k :: place, key => pathTo (below path k) place key
  | .item _ :: place, key => pathTo path place key

/-- A key of an object that only fields lead to. -/
structure IsOpen (v : Value) (place : List Step) (key : Scalar) : Prop where
  hasKey : v.HasKey place key
  fields : ∀ step ∈ place, ¬step.IsItem

section

variable {v : Value} {fields : Fields} {path p k k' key : Scalar} {place : List Step}

/-! ## Open keys of an object -/

namespace IsOpen

theorem head : IsOpen (.object ((k, v) :: fields)) [] k where
  hasKey := Value.hasKey_object_nil.mpr List.mem_cons_self
  fields := List.forall_mem_nil _

theorem below (h : IsOpen v place key) :
    IsOpen (.object ((k, v) :: fields)) (.field k :: place) key where
  hasKey := Value.hasKey_object_cons.mpr ⟨_, List.mem_cons_self, rfl, h.hasKey⟩
  fields := List.forall_mem_cons.mpr ⟨id, h.fields⟩

theorem tail (h : IsOpen (.object fields) place key) :
    IsOpen (.object ((k, v) :: fields)) place key where
  hasKey := by
    cases place with
    | nil =>
        have hmem := Value.hasKey_object_nil.mp h.hasKey
        exact Value.hasKey_object_nil.mpr (List.mem_cons_of_mem _ hmem)
    | cons step place =>
        obtain ⟨f, hf, hstep, hkey⟩ := Value.hasKey_object_cons.mp h.hasKey
        exact Value.hasKey_object_cons.mpr ⟨f, List.mem_cons_of_mem _ hf, hstep, hkey⟩
  fields := h.fields

theorem cases_fields (h : IsOpen (.object ((k, v) :: fields)) place key) :
    key = k ∨ (∃ rest, IsOpen v rest key) ∨ IsOpen (.object fields) place key := by
  cases place with
  | nil =>
      rcases List.mem_cons.mp (Value.hasKey_object_nil.mp h.hasKey) with hkey | hkey
      · exact .inl hkey
      · exact .inr (.inr ⟨Value.hasKey_object_nil.mpr hkey, h.fields⟩)
  | cons step place =>
      obtain ⟨f, hf, hstep, hkey⟩ := Value.hasKey_object_cons.mp h.hasKey
      rcases List.mem_cons.mp hf with rfl | hf
      · exact .inr (.inl ⟨place, hkey, (List.forall_mem_cons.mp h.fields).2⟩)
      · have hbehind := Value.hasKey_object_cons.mpr ⟨f, hf, hstep, hkey⟩
        exact .inr (.inr ⟨hbehind, h.fields⟩)

theorem not_nil : ¬IsOpen (.object []) place key := by
  intro h
  cases place with
  | nil => cases Value.hasKey_object_nil.mp h.hasKey
  | cons step place =>
      obtain ⟨f, hf, -⟩ := Value.hasKey_object_cons.mp h.hasKey
      cases hf

theorem exists_object (h : IsOpen v place key) : ∃ fields, v = .object fields := by
  rcases h.hasKey.cases_head with hobject | ⟨i, rest, rfl⟩
  · exact hobject
  · exact absurd trivial (h.fields _ List.mem_cons_self)

end IsOpen

/-! ## The search for secrets -/

mutual

/-- The search stops at an open key, and tells the path to it. -/
theorem stopIn_eq_some : (v : Value) → (path : Scalar) → stopIn? path v = some (p, k) →
    ∃ place, IsOpen v place k ∧ stopsAt k ∧ p = pathTo path place k
  | .object fields, path, h => stopAmong_eq_some fields path h
  | .scalar _, _, h => by cases h
  | .list _, _, h => by cases h
  | .pair _ _, _, h => by cases h
  | .set _, _, h => by cases h

theorem stopAmong_eq_some : (fields : Fields) → (path : Scalar) →
    stopAmong? path fields = some (p, k) →
    ∃ place, IsOpen (.object fields) place k ∧ stopsAt k ∧ p = pathTo path place k
  | [], _, h => by cases h
  | (k', v) :: fields, path, h => by
      -- The search ends at the first key, below it or behind it, and the place is put together anew.
      rw [stopAmong?] at h
      split at h
      · rename_i hstop
        cases h
        exact ⟨[], .head, hstop, rfl⟩
      · cases hbelow : stopIn? (below path k') v with
        | some found =>
            rw [hbelow] at h
            cases h
            obtain ⟨place, hopen, hp⟩ := stopIn_eq_some v (below path k') hbelow
            exact ⟨.field k' :: place, hopen.below, hp⟩
        | none =>
            rw [hbelow] at h
            obtain ⟨place, hopen, hp⟩ := stopAmong_eq_some fields path h
            exact ⟨place, hopen.tail, hp⟩

end

mutual

/-- A search that does not stop passes every open key. -/
theorem stopIn_eq_none : (v : Value) → (path : Scalar) → stopIn? path v = none →
    ∀ place, IsOpen v place key → ¬stopsAt key
  | .object fields, path, h => stopAmong_eq_none fields path h
  | .scalar _, _, _ => fun _ hopen => nomatch hopen.exists_object
  | .list _, _, _ => fun _ hopen => nomatch hopen.exists_object
  | .pair _ _, _, _ => fun _ hopen => nomatch hopen.exists_object
  | .set _, _, _ => fun _ hopen => nomatch hopen.exists_object

theorem stopAmong_eq_none : (fields : Fields) → (path : Scalar) →
    stopAmong? path fields = none → ∀ place, IsOpen (.object fields) place key → ¬stopsAt key
  | [], _, _ => fun _ hopen => absurd hopen IsOpen.not_nil
  | (k', v) :: fields, path, h => by
      intro place hopen
      rw [stopAmong?] at h
      split at h
      · cases h
      · rename_i hstop
        obtain ⟨hbelow, hbehind⟩ := (Option.orElse_eq_none _ _).mp h
        rcases hopen.cases_fields with rfl | ⟨rest, hopen⟩ | hopen
        · exact hstop
        · exact stopIn_eq_none v (below path k') hbelow rest hopen
        · exact stopAmong_eq_none fields path hbehind place hopen

end

theorem stopsAt_of_isSecret (h : isSecret key) : stopsAt key := by
  rw [stopsAt, h, Bool.or_true]

theorem isSecret_of_stopsAt (h : stopsAt key) (hshown : key.isOverlong = false) : isSecret key := by
  rwa [stopsAt, hshown, Bool.false_or] at h

end

section

variable (home : String) (env : Environment) (l : Layer) (project : Option Layer)

/-- A file for all projects with which settings are loaded has no open secret: each of its secrets
stands in a list. A file with an open one is refused, for a secret or for an open key that cannot be
shown, and the refusal for a secret names an open one with the path to it. -/
theorem loaded_secrets :
    (∀ s, loaded home env (some l) project = .ok s → ∀ place key, l.value.HasKey place key →
      isSecret key → ∃ step ∈ place, step.IsItem) ∧
    (∀ place key, IsOpen l.value place key → isSecret key →
      (∃ path key', loaded home env (some l) project = .error (.secret l path key')) ∨
      (∃ place' key', IsOpen l.value place' key' ∧ key'.isOverlong) ∧
        loaded home env (some l) project = .error (.convert .overlong)) ∧
    ∀ path key, loaded home env (some l) project = .error (.secret l path key) →
      ∃ place, IsOpen l.value place key ∧ isSecret key ∧ path = pathTo "" place key := by
  refine ⟨fun s h place key hkey hsecret => ?_, fun place key hopen hsecret => ?_,
    fun path key h => ?_⟩
  · obtain ⟨hnone, -⟩ := loaded_eq_ok_iff.mp h
    by_contra hitem
    have hopen : IsOpen l.value place key := ⟨hkey, fun step hstep hs => hitem ⟨step, hstep, hs⟩⟩
    exact stopIn_eq_none l.value "" (hnone l rfl) place hopen (stopsAt_of_isSecret hsecret)
  · cases hstop : l.stop? with
    | none =>
        exact absurd (stopsAt_of_isSecret hsecret) (stopIn_eq_none l.value "" hstop place hopen)
    | some found =>
        obtain ⟨path, key'⟩ := found
        cases hlong : key'.isOverlong with
        | false => exact .inl ⟨path, key', loaded_eq_secret_iff.mpr ⟨rfl, hstop, hlong⟩⟩
        | true =>
            obtain ⟨place', hopen', -⟩ := stopIn_eq_some l.value "" hstop
            refine .inr ⟨⟨place', key', hopen', hlong⟩, ?_⟩
            rw [loaded_eq_refusal hstop, Layer.refusal, if_pos hlong]
  · obtain ⟨-, hstop, hshown⟩ := loaded_eq_secret_iff.mp h
    obtain ⟨place, hopen, hstops, hpath⟩ := stopIn_eq_some l.value "" hstop
    exact ⟨place, hopen, isSecret_of_stopsAt hstops hshown, hpath⟩

end

/-- A file with a value in the place of other models. -/
def fallbacks (value : Value) : Layer :=
  ⟨"/home/user/.snipstack/config.yaml", .object [("llm", .object [("fallbacks", value)])]⟩

/-- The key of a model is refused, but not the key of a model in a list. -/
theorem loaded_secrets_fallbacks :
    let key := Value.object [("api_key", .scalar "sk-nope")]
    (∃ path name, loaded "/home/user" [] (some (fallbacks key)) none =
      .error (.secret (fallbacks key) path name)) ∧
    ∃ s place, loaded "/home/user" [] (some (fallbacks (.list [key]))) none = .ok s ∧
      (fallbacks (.list [key])).value.HasKey place "api_key" ∧ isSecret "api_key" ∧
      ∃ step ∈ place, step.IsItem := by
  intro key
  have hsecret : isSecret "api_key" := rfl
  have hat (v : Value) : (fallbacks v).value.At [.field "llm", .field "fallbacks"] v :=
    .field List.mem_cons_self (.field List.mem_cons_self (.here v))
  constructor
  · have hopen : IsOpen (fallbacks key).value [.field "llm", .field "fallbacks"] "api_key" :=
      ⟨⟨_, hat key, List.mem_cons_self⟩, by decide⟩
    rcases (loaded_secrets "/home/user" [] (fallbacks key) none).2.1 _ _ hopen hsecret with h | ⟨-, h⟩
    · exact h
    · cases h
  · obtain ⟨s, hs⟩ : ∃ s, loaded "/home/user" [] (some (fallbacks (.list [key]))) none = .ok s :=
      ⟨_, rfl⟩
    have hkey : (fallbacks (.list [key])).value.HasKey
        [.field "llm", .field "fallbacks", .item 0] "api_key" :=
      ⟨_, .field List.mem_cons_self (.field List.mem_cons_self (.item rfl (.here key))),
        List.mem_cons_self⟩
    exact ⟨s, _, hs, hkey, hsecret,
      (loaded_secrets "/home/user" [] (fallbacks (.list [key])) none).1 s hs _ _ hkey hsecret⟩

end Clipboard.Settings
