import Clipboard.Proofs.Calendar.Iso
import Clipboard.Proofs.Json.RoundTrip
import Clipboard.Proofs.Text.Base64
import Clipboard.Snippet.Record

/-!
What is left of a snippet when its record is read back: all of it, but for an icon without bytes and
an offset of less than a second. This holds for the record itself and, if the fields hold texts, for
the record as it is written.
-/

namespace Clipboard

/-! ## Reading a record -/

/-- The program without an icon that has no bytes. -/
def SourceApp.withoutEmptyIcon (a : SourceApp) : SourceApp :=
  { a with icon := a.icon.filter (!·.isEmpty) }

theorem SourceApp.ofRecord_toRecord (a : SourceApp) :
    SourceApp.ofRecord a.toRecord = .ok (some a.withoutEmptyIcon) := by
  obtain ⟨name, icon⟩ := a
  cases icon with
  | none => rfl
  | some bytes =>
      cases bytes with
      | nil => rfl
      | cons b bytes =>
          have hdecode := Text.Base64.decode_encode (b :: bytes)
          have hne : Text.Base64.encode (b :: bytes) ≠ [] := Text.Base64.encode_ne_nil (by simp)
          have hpresent :
              (Json.text (.ofList (Text.Base64.encode (b :: bytes)))).isPresent = true := by
            simpa [Json.isPresent, String.isEmpty_iff, ← String.toList_inj] using hne
          have hicon : SourceApp.readIcon (.text (.ofList (Text.Base64.encode (b :: bytes)))) =
              .ok (some (b :: bytes)) := by
            simp [SourceApp.readIcon, hpresent, hdecode]
          simp [SourceApp.ofRecord, SourceApp.toRecord, Json.isPresent, Json.lookup?, List.lookup_cons,
            hicon, bind, Except.bind, pure, Except.pure, withoutEmptyIcon, Option.filter]

namespace Snippet

/-- The snippet without an icon that has no bytes. -/
def withoutEmptyIcon (s : Snippet) : Snippet := { s with app := s.app.map (·.withoutEmptyIcon) }

/-- What a record keeps of a snippet. -/
def restored (s : Snippet) : Snippet := { s.withoutEmptyIcon with moment := s.moment.kept }

theorem readKind_name (k : Kind) : readKind (.text k.name) = .ok k := by cases k <;> rfl

theorem readVariant_fields (s : Snippet) : readVariant s.kind s.fields = s.variant := by
  simp only [fields, kind]
  cases s.variant <;> rfl

theorem ofRecord_app (app : Option SourceApp) :
    SourceApp.ofRecord (app.elim .null (·.toRecord)) = .ok (app.map (·.withoutEmptyIcon)) := by
  cases app with
  | none => rfl
  | some a => exact a.ofRecord_toRecord

/-- A record is read as the snippet that it was made of. -/
theorem ofRecord_toRecord (s : Snippet) : Snippet.ofRecord s.toRecord = .ok s.restored := by
  have hmoment : readMoment (.text s.moment.isoText) = .ok s.moment.kept := by
    simp [readMoment, Calendar.Moment.ofIso_isoText]
  have happ := ofRecord_app s.app
  have hkind := readKind_name s.kind
  have hvariant := s.readVariant_fields
  simp only [fields, List.cons_append] at hvariant
  simp only [toRecord, ofRecord, ofFields, fields, need, Json.lookup?, List.cons_append,
    List.lookup_cons, String.reduceBEq, bind, Except.bind, Option.getD_some, hkind, happ, hmoment,
    readItems, Json.items?, hvariant]
  rw [dif_pos s.tags_ne_nil]
  rfl

end Snippet

/-! ## Offsets of less than a second -/

namespace Calendar

theorem Offset.kept_eq_self_iff (o : Offset) :
    o.kept = o ↔ o.micros = 0 ∨ 1000000 ≤ o.micros.natAbs := by
  obtain ⟨n, hn⟩ := o
  simp only [Offset.kept]
  by_cases h : n.natAbs < 1000000
  · rw [if_pos h, Offset.mk.injEq]; omega
  · rw [if_neg h]; simp only [true_iff]; omega

/-- A moment without an offset, or with an offset of nothing or of a second at least. -/
def Moment.IsKept (m : Moment) : Prop :=
  ∀ o ∈ m.offset, o.micros = 0 ∨ 1000000 ≤ o.micros.natAbs

theorem Moment.kept_eq_self_iff (m : Moment) : m.kept = m ↔ m.IsKept := by
  obtain ⟨d, t⟩ := m
  obtain ⟨h, mi, s, u, offset, hr⟩ := t
  cases offset with
  | none => simp [Moment.kept, Time.kept, Moment.IsKept, Moment.offset]
  | some o => simp [Moment.kept, Time.kept, Moment.IsKept, Moment.offset, o.kept_eq_self_iff]

end Calendar

theorem Snippet.restored_eq_iff (s : Snippet) :
    s.restored = s.withoutEmptyIcon ↔ s.moment.IsKept := by
  rw [← s.moment.kept_eq_self_iff]
  simp [Snippet.restored, Snippet.withoutEmptyIcon]

/-! ## Records as they are written -/

namespace Json

/-- Whether the value is a text, whole or not. -/
def isText : Json → Bool
  | text _ | torn _ => true
  | _ => false

theorem exists_eq_text {v : Json} (ht : v.isText) (hw : v.isWhole) : ∃ s, v = text s := by
  cases v with
  | text s => exact ⟨s, rfl⟩
  | torn ps => simp [isWhole] at hw
  | _ => cases ht

theorem readsBack_of_isText (depth : Nat) {v : Json} (ht : v.isText) (hw : v.isWhole) :
    ReadsBack (readValue depth) v := by
  obtain ⟨s, rfl⟩ := exists_eq_text ht hw
  exact readsBack_text depth s

theorem areWhole_iff {vs : List Json} : areWhole vs ↔ ∀ v ∈ vs, v.isWhole := by
  induction vs with
  | nil => simp [areWhole]
  | cons v vs ih => simp [areWhole, ih]

theorem fieldsAreWhole_iff {fields : List (String × Json)} :
    fieldsAreWhole fields ↔ ∀ f ∈ fields, f.2.isWhole := by
  induction fields with
  | nil => simp [fieldsAreWhole]
  | cons f fields ih => simp [fieldsAreWhole, ih]

end Json

namespace Snippet

open Json (ReadsBack readValue)

/-- All that may be any value in a record is a text. -/
structure IsTextual (s : Snippet) : Prop where
  id : s.id.isText
  content : s.content.isText
  source : s.source.isText
  app : ∀ a ∈ s.app, a.name.isText
  tags : ∀ v ∈ s.tags, v.isText
  notes : ∀ v ∈ s.notes, v.isText
  own : ∀ f ∈ s.variant.field?, f.2.isText

theorem keys_nodup (s : Snippet) : (s.fields.map (·.1)).Nodup := by
  simp only [fields]
  cases s.variant <;> simp [Variant.field?]

theorem isWhole_toRecord {s : Snippet} (hid : s.id.isWhole) (hcontent : s.content.isWhole)
    (hsource : s.source.isWhole) (happ : ∀ a ∈ s.app, a.name.isWhole)
    (htags : ∀ v ∈ s.tags, v.isWhole) (hnotes : ∀ v ∈ s.notes, v.isWhole)
    (hown : ∀ f ∈ s.variant.field?, f.2.isWhole) : s.toRecord.isWhole := by
  have happ : (s.app.elim .null (·.toRecord)).isWhole := by
    cases ha : s.app with
    | none => rfl
    | some a =>
        have hname := happ a ha
        obtain ⟨name, icon⟩ := a
        rcases icon with _ | _ | ⟨b, bytes⟩ <;>
          simpa [SourceApp.toRecord, Json.isWhole, Json.fieldsAreWhole] using hname
  rw [toRecord, Json.isWhole, Json.fieldsAreWhole_iff]
  simp only [fields, List.cons_append, List.nil_append, List.forall_mem_cons, Option.mem_toList]
  exact ⟨hid, rfl, hcontent, hsource, happ, rfl, Json.areWhole_iff.mpr htags,
    Json.areWhole_iff.mpr hnotes, rfl, hown⟩

theorem readsBack_app (depth : Nat) {app : Option SourceApp} (ht : ∀ a ∈ app, a.name.isText)
    (hw : (app.elim .null (·.toRecord)).isWhole) :
    ReadsBack (readValue (depth + 1)) (app.elim .null (·.toRecord)) := by
  cases app with
  | none => exact Json.readsBack_null _
  | some a =>
      simp only [Option.elim_some, SourceApp.toRecord, Json.isWhole, Json.fieldsAreWhole_iff,
        List.forall_mem_cons] at hw
      refine Json.readsBack_object (by simp) ?_
      simp only [List.forall_mem_cons, List.not_mem_nil, false_imp_iff, implies_true, and_true]
      refine ⟨Json.readsBack_of_isText depth (ht a rfl) hw.1, ?_⟩
      split
      · exact Json.readsBack_null depth
      · exact Json.readsBack_null depth
      · exact Json.readsBack_text depth _

/-- A record that holds texts is read as it was written. -/
theorem IsTextual.readsBack_toRecord {s : Snippet} (h : s.IsTextual) (hw : s.toRecord.isWhole)
    (depth : Nat) : ReadsBack (readValue (depth + 2)) s.toRecord := by
  refine Json.readsBack_object s.keys_nodup ?_
  have hfields := Json.fieldsAreWhole_iff.mp (by simpa [toRecord, Json.isWhole] using hw)
  have htext : ∀ {v : Json}, v.isText → v.isWhole → ReadsBack (readValue (depth + 1)) v :=
    Json.readsBack_of_isText (depth + 1)
  have hlist : ∀ {vs : List Json}, (∀ v ∈ vs, v.isText) → (Json.list vs).isWhole →
      ReadsBack (readValue (depth + 1)) (.list vs) := by
    intro vs ht hw
    rw [Json.isWhole, Json.areWhole_iff] at hw
    exact Json.readsBack_list fun v hv => Json.readsBack_of_isText depth (ht v hv) (hw v hv)
  simp only [fields, List.cons_append, List.nil_append, List.forall_mem_cons,
    Option.mem_toList] at hfields ⊢
  obtain ⟨hid, -, hcontent, hsource, happ, -, htags, hnotes, -, hown⟩ := hfields
  exact ⟨htext h.id hid, Json.readsBack_text _ _, htext h.content hcontent, htext h.source hsource,
    readsBack_app depth h.app happ, Json.readsBack_text _ _, hlist h.tags htags,
    hlist h.notes hnotes, Json.readsBack_bool _ _, fun f hf => htext (h.own f hf) (hown f hf)⟩

end Snippet

end Clipboard
