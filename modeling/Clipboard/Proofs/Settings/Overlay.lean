import Clipboard.Proofs.Settings.Places
import Clipboard.Settings.Layers

/-!
Layers over one another. What stands under a key of the joined fields comes from the upper layer, if
it has the key, and else from the lower one; only where both have an object are they joined again.
-/

namespace Clipboard.Settings

section

variable {base fields : Fields} {key : Scalar}

/-! ## A layer over another one -/

theorem lookup_overlayFields (hkeys : IsDistinct fields) :
    lookup? key (overlayFields base fields) =
      ((lookup? key fields).map (overlay (lookup? key base))).or (lookup? key base) := by
  induction fields generalizing base with
  | nil => rfl
  | cons f fields ih =>
      obtain ⟨k, v⟩ := f
      obtain ⟨hk, hfields⟩ := isDistinct_cons.mp hkeys
      rw [overlayFields, ih hfields, lookup?]
      by_cases h : k.identity = key.identity
      · have hbehind : lookup? key fields = none := lookup_eq_none (h ▸ hk)
        rw [if_pos h, hbehind, lookup_setField, if_pos h.symm, lookup_congr h]
        rfl
      · rw [if_neg h, lookup_setField_of_ne (Ne.symm h)]

/-- Fields with new keys are put behind those that are there. -/
theorem overlayFields_of_new (hkeys : IsDistinct (base ++ fields))
    (h : ∀ f ∈ fields, overlay none f.2 = f.2) : overlayFields base fields = base ++ fields := by
  induction fields generalizing base with
  | nil => exact (List.append_nil base).symm
  | cons f fields ih =>
      obtain ⟨k, v⟩ := f
      obtain ⟨hv, hfields⟩ := List.forall_mem_cons.mp h
      have hnew : ∀ g ∈ base, g.1.identity ≠ k.identity := by
        rw [IsDistinct, List.map_append, List.map_cons, List.nodup_append] at hkeys
        exact fun g hg => hkeys.2.2 _ (List.mem_map_of_mem hg) _ List.mem_cons_self
      rw [overlayFields, lookup_eq_none hnew, setField_of_new hnew, hv,
        ih (by simpa using hkeys) hfields, List.append_assoc]
      rfl

mutual

theorem overlay_none : (v : Value) → v.IsKeyed → overlay none v = v
  | .object fields, h =>
      congrArg Value.object (overlayFields_of_new h.isDistinct
        (forall_overlay_none fields fun _ hf => h.of_mem hf))
  | .scalar _, _ => rfl
  | .list _, _ => rfl
  | .pair _ _, _ => rfl
  | .set _, _ => rfl

theorem forall_overlay_none : (fields : Fields) → (∀ f ∈ fields, f.2.IsKeyed) →
    ∀ f ∈ fields, overlay none f.2 = f.2
  | [], _, _, hf => absurd hf List.not_mem_nil
  | (_, v) :: fields, h, f, hf => by
      obtain ⟨hv, hfields⟩ := List.forall_mem_cons.mp h
      rcases List.mem_cons.mp hf with rfl | hf
      · exact overlay_none v hv
      · exact forall_overlay_none fields hfields f hf

end

theorem overlayFields_nil (h : (Value.object fields).IsKeyed) : overlayFields [] fields = fields :=
  overlayFields_of_new h.isDistinct (forall_overlay_none fields fun _ hf => h.of_mem hf)

theorem overlay_of_no_object {v : Value} (h : ∀ fields, v ≠ .object fields) (b : Option Value) :
    overlay b v = v := by
  cases v with
  | object fields => exact absurd rfl (h fields)
  | _ => rfl

/-! ## Sections of layers -/

/-- The fields under a name, if an object stands there. -/
def fieldsUnder (fields : Fields) (name : String) : Fields :=
  match lookup? name fields with
  | some (.object s) => s
  | _ => []

theorem fieldsUnder_of_object {name : String} {s : Fields}
    (h : lookup? name fields = some (.object s)) : fieldsUnder fields name = s := by
  rw [fieldsUnder, h]

theorem fieldsUnder_of_none {name : String} (h : lookup? name fields = none) :
    fieldsUnder fields name = [] := by
  rw [fieldsUnder, h]

end

namespace Layer

/-- The fields of a layer; a value that is no object has none. -/
def fields (l : Layer) : Fields :=
  match l.value with
  | .object fields => fields
  | _ => []

theorem isKeyed_fields {l : Layer} (h : l.value.IsKeyed) : (Value.object l.fields).IsKeyed := by
  obtain ⟨path, value⟩ := l
  cases value with
  | object fields => exact h
  | _ =>
      intro place fields hat
      cases hat with
      | here => exact List.nodup_nil
      | field hmem => exact absurd hmem List.not_mem_nil

end Layer

end Clipboard.Settings
