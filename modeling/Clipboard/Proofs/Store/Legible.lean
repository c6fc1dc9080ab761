import Clipboard.Proofs.Fallible
import Clipboard.Proofs.Store.RoundTrip

/-!
What becomes of stored records of any shape. A record that cannot be read is passed over, whatever is
wrong with it, with one exception: a program that is given and is no object spoils the whole load.
-/

namespace Clipboard

open Fallible (bind_eq_error_iff)
open Json (lookup?)

def Json.isObject : Json → Bool
  | object _ => true
  | _ => false

/-! ## The one fault that is not passed over -/

namespace SourceApp

theorem readIcon_ne (v : Json) : readIcon v ≠ .error .appNotObject := by
  unfold readIcon
  split
  · simp
  · cases v with
    | text s => cases h : Text.Base64.decode s.toList <;> simp [h]
    | _ => simp

theorem ofRecord_eq_error_iff {v : Json} :
    ofRecord v = .error .appNotObject ↔ v.isPresent ∧ ¬v.isObject := by
  unfold ofRecord
  by_cases hp : v.isPresent = true
  · cases v with
    | object fields =>
        simp only [hp, Bool.not_true, Bool.false_eq_true, if_false, Json.isObject, not_true_eq_false,
          and_false, iff_false]
        intro h
        cases hname : lookup? "name" fields with
        | none => simp [hname, bind, Except.bind, throw, throwThe, MonadExceptOf.throw] at h
        | some name =>
            simp only [hname, bind_eq_error_iff] at h
            rcases h with h | ⟨_, -, h | ⟨_, -, h⟩⟩
            · cases h
            · exact readIcon_ne _ h
            · cases h
    | _ => simp [hp, Json.isObject]
  · simp [hp]

end SourceApp

namespace Snippet

/-- A record of a known kind whose program is given, but not as an object. -/
def HasBareApp (r : Json) : Prop :=
  ∃ fields kind app, r = .object fields ∧ lookup? "type" fields = some (.text (Kind.name kind)) ∧
    lookup? "source_app" fields = some app ∧ app.isPresent ∧ ¬app.isObject

theorem need_ne (fields : List (String × Json)) (key : String) :
    need fields key ≠ .error .appNotObject := by
  unfold need
  split <;> simp

theorem need_eq_ok_iff {fields : List (String × Json)} {key : String} {v : Json} :
    need fields key = .ok v ↔ lookup? key fields = some v := by
  unfold need
  split <;> simp [*]

theorem readKind_ne (v : Json) : readKind v ≠ .error .appNotObject := by
  unfold readKind
  repeat' split
  all_goals simp

theorem readKind_eq_ok_iff {v : Json} {k : Kind} : readKind v = .ok k ↔ v = .text k.name := by
  constructor
  · intro h
    cases v with
    | text s =>
        cases hk : Kind.ofName? s with
        | none => simp [readKind, hk] at h
        | some k' =>
            simp only [readKind, hk, Except.ok.injEq] at h
            subst h
            have hname := List.find?_some hk
            rw [eq_of_beq hname]
    | _ => cases h
  · rintro rfl
    exact readKind_name k

theorem readMoment_ne (v : Json) : readMoment v ≠ .error .appNotObject := by
  unfold readMoment
  repeat' split
  all_goals simp

theorem readItems_ne (v : Json) : readItems v ≠ .error .appNotObject := by
  unfold readItems
  split <;> simp

/-- A bare app is met behind a known kind, and every other fault is another one. -/
theorem ofRecord_eq_error_iff {r : Json} :
    Snippet.ofRecord r = .error .appNotObject ↔ HasBareApp r := by
  cases r with
  | object fields =>
      simp only [Snippet.ofRecord, ofFields, bind_eq_error_iff, need_ne, readKind_ne, readMoment_ne,
        readItems_ne, false_or, SourceApp.ofRecord_eq_error_iff, need_eq_ok_iff, readKind_eq_ok_iff]
      constructor
      · rintro ⟨_, htype, kind, rfl, ⟨hpresent, hobject⟩ | ⟨_, -, _, -, _, -, _, -, _, -, _, -, _, -,
          _, -, h⟩⟩
        · cases happ : lookup? "source_app" fields with
          | none => simp [happ, Json.isPresent] at hpresent
          | some app =>
              rw [happ] at hpresent hobject
              exact ⟨fields, kind, app, rfl, htype, happ, hpresent, hobject⟩
        · split at h <;> cases h
      · rintro ⟨_, kind, app, ⟨⟩, htype, happ, hpresent, hobject⟩
        refine ⟨_, htype, kind, rfl, .inl ?_⟩
        rw [happ]
        exact ⟨hpresent, hobject⟩
  | _ =>
      simp only [Snippet.ofRecord, Except.error.injEq, reduceCtorEq, false_iff]
      rintro ⟨_, _, _, ⟨⟩, -⟩

end Snippet

/-! ## Lists of records -/

namespace Store

open Snippet (HasBareApp)

/-- The snippets of the records that can be read, in order. -/
def legible (records : List Json) : List Snippet :=
  records.filterMap fun r => (Snippet.ofRecord r).toOption

theorem isPassedOver_iff {f : RecordFault} : f.isPassedOver ↔ f ≠ .appNotObject := by
  cases f <;> simp [RecordFault.isPassedOver]

section

variable {r : Json} {records : List Json}

theorem snippetsOf_cons_of_bare (h : HasBareApp r) :
    snippetsOf (r :: records) = .error (.record .appNotObject) := by
  simp [snippetsOf, Snippet.ofRecord_eq_error_iff.mpr h, RecordFault.isPassedOver]

theorem snippetsOf_cons (h : ¬HasBareApp r) :
    snippetsOf (r :: records) = (snippetsOf records).map (legible [r] ++ ·) := by
  cases hread : Snippet.ofRecord r with
  | ok s =>
      simp only [snippetsOf, hread, legible, List.filterMap_cons, Except.toOption]
      cases snippetsOf records <;> rfl
  | error f =>
      have hf : f.isPassedOver := isPassedOver_iff.mpr fun he =>
        h (Snippet.ofRecord_eq_error_iff.mp (he ▸ hread))
      simp only [snippetsOf, hread, hf, if_true, legible, List.filterMap_cons, Except.toOption]
      cases snippetsOf records <;> rfl

theorem snippetsOf_of_forall (h : ∀ r ∈ records, ¬HasBareApp r) :
    snippetsOf records = .ok (legible records) := by
  induction records with
  | nil => rfl
  | cons r rs ih =>
      obtain ⟨hr, hrs⟩ := List.forall_mem_cons.mp h
      rw [snippetsOf_cons hr, ih hrs, Except.map, legible, legible, legible,
        ← List.filterMap_append, List.singleton_append]

theorem snippetsOf_of_exists (h : ∃ r ∈ records, HasBareApp r) :
    snippetsOf records = .error (.record .appNotObject) := by
  induction records with
  | nil => simp at h
  | cons r rs ih =>
      by_cases hr : HasBareApp r
      · exact snippetsOf_cons_of_bare hr
      · have hrs : ∃ r ∈ rs, HasBareApp r := by simpa [hr] using h
        rw [snippetsOf_cons hr, ih hrs, Except.map]

end

/-! ## Stored texts -/

/-- Whether a text goes beyond what is read: a whole number is too long, or lists are too deep. -/
def isBeyondLimits (text : String) : Bool :=
  match Json.parse text.toList with
  | .error (.longNumber _, _) | .error (.tooDeep, _) => true
  | _ => false

theorem load_of_get {s : Store} {key text : String} (h : s.get key = .ok (some text)) :
    s.load key = snippetsIn text := by
  simp only [load, h]

theorem snippetsIn_of_list {text : String} {records : List Json}
    (h : Json.parse text.toList = .ok (.list records)) : snippetsIn text = snippetsOf records := by
  simp only [snippetsIn, h]

/-- A text that is no list is a fault of storage, unless it goes beyond what is read. -/
theorem snippetsIn_of_no_list {text : String}
    (h : ∀ records, Json.parse text.toList ≠ .ok (.list records)) :
    (∃ f, snippetsIn text = .error f ∧ ∀ g, f ≠ .storage g) ↔ isBeyondLimits text := by
  unfold snippetsIn isBeyondLimits
  cases hp : Json.parse text.toList with
  | ok v =>
      cases v with
      | list records => exact absurd hp (h records)
      | _ => simp
  | error e =>
      obtain ⟨f, left⟩ := e
      cases f <;> simp

/-- A stored list is loaded as the snippets of those records that can be read, in order, if and only
if no record has a bare app. Such a record, and a text beyond the limits, is a fault that is none of
storage; nothing else is. -/
theorem load_legible {s : Store} {key text : String} (h : s.get key = .ok (some text)) :
    (∀ records, Json.parse text.toList = .ok (.list records) →
      (s.load key = .ok (legible records) ↔ ∀ r ∈ records, ¬HasBareApp r) ∧
        ((∃ r ∈ records, HasBareApp r) → s.load key = .error (.record .appNotObject))) ∧
    ((∃ f, s.load key = .error f ∧ ∀ g, f ≠ .storage g) ↔ isBeyondLimits text ∨
      ∃ records, Json.parse text.toList = .ok (.list records) ∧ ∃ r ∈ records, HasBareApp r) := by
  rw [load_of_get h]
  constructor
  · intro records hp
    rw [snippetsIn_of_list hp]
    refine ⟨⟨fun hload r hr hbare => ?_, snippetsOf_of_forall⟩, snippetsOf_of_exists⟩
    rw [snippetsOf_of_exists ⟨r, hr, hbare⟩] at hload
    cases hload
  · by_cases hlist : ∃ records, Json.parse text.toList = .ok (.list records)
    · obtain ⟨records, hp⟩ := hlist
      have hlimits : isBeyondLimits text = false := by simp [isBeyondLimits, hp]
      simp only [hlimits, Bool.false_eq_true, false_or, hp, Except.ok.injEq, Json.list.injEq,
        snippetsIn_of_list hp, exists_eq_left']
      constructor
      · rintro ⟨f, hf, -⟩
        by_contra hnone
        rw [snippetsOf_of_forall fun r hr hbare => hnone ⟨r, hr, hbare⟩] at hf
        cases hf
      · intro hbare
        exact ⟨_, snippetsOf_of_exists hbare, by simp⟩
    · rw [snippetsIn_of_no_list fun records hp => hlist ⟨records, hp⟩]
      constructor
      · exact .inl
      · rintro (hlimits | ⟨records, hp, -⟩)
        · exact hlimits
        · exact absurd ⟨records, hp⟩ hlist

/-- Three values that are no records of snippets. -/
def junk : List Json := [.null, .text "?", .object [("type", .text "quote")]]

/-- A record with the bare name of a program. -/
def bareApp : Json := .object [("type", .text "quote"), ("source_app", .text "Mail")]

theorem hasBareApp_bareApp : HasBareApp bareApp :=
  ⟨_, .quote, .text "Mail", rfl, rfl, rfl, by decide, by decide⟩

theorem exists_fault_of_mem_junk {v : Json} (hv : v ∈ junk) :
    ∃ f, Snippet.ofRecord v = .error f ∧ f ≠ .appNotObject := by
  simp only [junk, List.mem_cons, List.not_mem_nil, or_false] at hv
  rcases hv with rfl | rfl | rfl
  · exact ⟨.notObject, rfl, by simp⟩
  · exact ⟨.notObject, rfl, by simp⟩
  · exact ⟨.missing "id", rfl, by simp⟩

theorem readsBack_junk : ∀ v ∈ junk ++ [bareApp], Json.ReadsBack (Json.readValue 979) v := by
  have hquote : Json.ReadsBack (Json.readValue 978) (.text "quote") := Json.readsBack_text _ _
  have hmail : Json.ReadsBack (Json.readValue 978) (.text "Mail") := Json.readsBack_text _ _
  intro v hv
  simp only [junk, bareApp, List.cons_append, List.nil_append, List.mem_cons, List.not_mem_nil,
    or_false] at hv
  rcases hv with rfl | rfl | rfl | rfl
  · exact Json.readsBack_null _
  · exact Json.readsBack_text _ _
  · exact Json.readsBack_object (by simp) (by simpa using hquote)
  · exact Json.readsBack_object (by simp) (by simpa using ⟨hquote, hmail⟩)

theorem legible_junk_append (s : Snippet) : legible (junk ++ [s.toRecord]) = [s.restored] := by
  have hjunk : legible junk = [] := by
    refine List.filterMap_eq_nil_iff.mpr fun v hv => ?_
    obtain ⟨f, hf, -⟩ := exists_fault_of_mem_junk hv
    simp [hf, Except.toOption]
  have hs : legible [s.toRecord] = [s.restored] := by
    simp [legible, s.ofRecord_toRecord, Except.toOption]
  rw [legible, List.filterMap_append]
  exact congrArg₂ (· ++ ·) hjunk hs

theorem not_hasBareApp_junk_append (s : Snippet) :
    ∀ r ∈ junk ++ [s.toRecord], ¬HasBareApp r := by
  intro r hr hbare
  have hfault := Snippet.ofRecord_eq_error_iff.mpr hbare
  rcases List.mem_append.mp hr with hr | hr
  · obtain ⟨f, hf, hne⟩ := exists_fault_of_mem_junk hr
    rw [hf, Except.error.injEq] at hfault
    exact hne hfault
  · rw [List.mem_singleton.mp hr, s.ofRecord_toRecord] at hfault
    cases hfault

/-- Among junk a greeting is found, unless the bare name of a program stands there too. -/
theorem load_legible_greeting :
    let g := greeting ⟨0, by decide⟩
    let holding (records : List Json) : Store :=
      { entries := [(snippetsKey, (Json.list records).render)] }
    (holding (junk ++ [g.toRecord])).load = .ok [g.restored] ∧
      (holding (junk ++ [g.toRecord, bareApp])).load = .error (.record .appNotObject) := by
  intro g holding
  have hg : Json.ReadsBack (Json.readValue 979) g.toRecord :=
    (isTextual_greeting _).readsBack_toRecord rfl 977
  obtain ⟨hjunk, hbare⟩ := List.forall_mem_append.mp readsBack_junk
  have hget : ∀ records, (holding records).get snippetsKey = .ok (some (Json.list records).render) :=
    fun records => by simp [holding, get]
  have hparse : ∀ records, (∀ v ∈ records, Json.ReadsBack (Json.readValue 979) v) →
      Json.parse (Json.list records).render.toList = .ok (.list records) := fun records h => by
    rw [Json.render, String.toList_ofList]
    exact (Json.readsBack_list h).parse_print
  constructor
  · have hrecords := hparse (junk ++ [g.toRecord]) (List.forall_mem_append.mpr
      ⟨hjunk, List.forall_mem_singleton.mpr hg⟩)
    rw [← legible_junk_append]
    exact ((load_legible (hget _)).1 _ hrecords).1.mpr (not_hasBareApp_junk_append g)
  · have hrecords := hparse (junk ++ [g.toRecord, bareApp]) (List.forall_mem_append.mpr
      ⟨hjunk, List.forall_mem_cons.mpr ⟨hg, hbare⟩⟩)
    exact ((load_legible (hget _)).1 _ hrecords).2 ⟨bareApp, by simp, hasBareApp_bareApp⟩

end Store

end Clipboard
