import Clipboard.Proofs.Snippet.Record
import Clipboard.Store.Basic

/-!
Saving a collection and loading it: what a store holds after a save, and what a load makes of it.
-/

namespace Clipboard.Store

/-! ## Entries -/

theorem lookup_setEntry (key value : String) (entries : List (String × String)) :
    (setEntry key value entries).lookup key = some value := by
  induction entries with
  | nil => simp [setEntry]
  | cons e entries ih =>
      obtain ⟨k, v⟩ := e
      by_cases h : k = key
      · simp [setEntry, h]
      · have hne : (key == k) = false := beq_false_of_ne fun he => h he.symm
        simp [setEntry, h, List.lookup_cons, hne, ih]

theorem setEntry_setEntry (key v w : String) (entries : List (String × String)) :
    setEntry key w (setEntry key v entries) = setEntry key w entries := by
  induction entries with
  | nil => simp [setEntry]
  | cons e entries ih =>
      obtain ⟨k, u⟩ := e
      by_cases h : k = key
      · simp [setEntry, h]
      · simp [setEntry, h, ih]

/-- The store with a collection in it. -/
def holding (s : Store) (ss : List Snippet) (key : String) : Store :=
  { s with entries := setEntry key (textOf ss) s.entries }

theorem get_holding (s : Store) (ss : List Snippet) (key : String)
    (hread : s.failures.read = none) : (s.holding ss key).get key = .ok (some (textOf ss)) := by
  have hfailures : (s.holding ss key).failures.read = none := hread
  have hlookup : (s.holding ss key).entries.lookup key = some (textOf ss) :=
    lookup_setEntry key (textOf ss) s.entries
  simp only [get, hfailures, hlookup]

/-! ## Saving -/

/-- Whether all texts of the collection can be stored. -/
def canBeStored (ss : List Snippet) : Bool := ss.all (·.toRecord.isWhole)

theorem any_not_isWhole (ss : List Snippet) : ss.any (!·.toRecord.isWhole) = !canBeStored ss := by
  rw [canBeStored, List.not_all_eq_any_not]

end Store

/-- What the medium has against the snippets. It is asked to write only what can be stored. -/
def Failures.refusal (f : Failures) (ss : List Snippet) : Option String :=
  f.prepare <|> if Store.canBeStored ss then f.write else none

namespace Store

theorem save_of_refused {s : Store} {ss : List Snippet} {message : String}
    (h : s.failures.refusal ss = some message) (key : String) :
    s.save ss key = .error (.storage (.write key message)) := by
  unfold save put
  rw [any_not_isWhole]
  unfold Failures.refusal at h
  cases hp : s.failures.prepare with
  | some prepare =>
      rw [hp] at h
      cases h
      rfl
  | none =>
      rw [hp] at h
      by_cases hs : canBeStored ss
      · have hw : s.failures.write = some message := by simpa [hs] using h
        simp [hs, hw, Except.mapError]
      · simp [hs] at h

theorem save_of_not_refused {s : Store} {ss : List Snippet} (h : s.failures.refusal ss = none)
    (key : String) :
    s.save ss key = if canBeStored ss then .ok (s.holding ss key) else .error .torn := by
  unfold save put
  rw [any_not_isWhole]
  unfold Failures.refusal at h
  cases hp : s.failures.prepare with
  | some prepare =>
      rw [hp] at h
      cases h
  | none =>
      rw [hp] at h
      by_cases hs : canBeStored ss
      · have hw : s.failures.write = none := by simpa [hs] using h
        simp [hs, hw, Except.mapError, holding]
      · simp [hs]

theorem save_eq_ok_iff {s s' : Store} {ss : List Snippet} {key : String} :
    s.save ss key = .ok s' ↔
      s.failures.refusal ss = none ∧ canBeStored ss ∧ s' = s.holding ss key := by
  cases hrefusal : s.failures.refusal ss with
  | some message => simp [save_of_refused hrefusal]
  | none =>
      rw [save_of_not_refused hrefusal]
      by_cases hs : canBeStored ss
      · simp [hs, eq_comm]
      · simp [hs]

/-! ## Loading -/

theorem snippetsOf_map_toRecord (ss : List Snippet) :
    snippetsOf (ss.map (·.toRecord)) = .ok (ss.map (·.restored)) := by
  induction ss with
  | nil => rfl
  | cons s ss ih =>
      simp only [List.map_cons, snippetsOf, s.ofRecord_toRecord, ih]
      rfl

theorem readsBack_records {ss : List Snippet} (ht : ∀ s ∈ ss, s.IsTextual) (hs : canBeStored ss)
    (depth : Nat) :
    Json.ReadsBack (Json.readValue (depth + 3)) (.list (ss.map (·.toRecord))) := by
  refine Json.readsBack_list fun v hv => ?_
  obtain ⟨s, hmem, rfl⟩ := List.mem_map.mp hv
  exact (ht s hmem).readsBack_toRecord (List.all_eq_true.mp hs s hmem) depth

/-- The text of a collection stands for what records keep of it. -/
theorem snippetsIn_textOf {ss : List Snippet} (ht : ∀ s ∈ ss, s.IsTextual) (hs : canBeStored ss) :
    snippetsIn (textOf ss) = .ok (ss.map (·.restored)) := by
  have hparse := (readsBack_records ht hs 977).parse_print
  simp only [snippetsIn, textOf, Json.render, String.toList_ofList, hparse]
  exact snippetsOf_map_toRecord ss

theorem load_holding {s : Store} {ss : List Snippet} (key : String)
    (hread : s.failures.read = none) (ht : ∀ x ∈ ss, x.IsTextual) (hs : canBeStored ss) :
    (s.holding ss key).load key = .ok (ss.map (·.restored)) := by
  simp only [load, get_holding s ss key hread]
  exact snippetsIn_textOf ht hs

theorem map_restored_eq_iff {ss : List Snippet} :
    ss.map (·.restored) = ss.map (·.withoutEmptyIcon) ↔ ∀ x ∈ ss, x.moment.IsKept := by
  rw [List.map_inj_left]
  exact forall₂_congr fun x _ => x.restored_eq_iff

/-- What was saved is loaded: the same snippets in the same order, an icon without bytes now absent,
if and only if no moment has an offset of less than a second. Such an offset alone is lost. -/
theorem load_of_save {s s' : Store} {ss : List Snippet} {key : String}
    (hread : s.failures.read = none) (ht : ∀ x ∈ ss, x.IsTextual) (h : s.save ss key = .ok s') :
    s'.load key = .ok (ss.map (·.restored)) ∧
      (s'.load key = .ok (ss.map (·.withoutEmptyIcon)) ↔ ∀ x ∈ ss, x.moment.IsKept) := by
  obtain ⟨-, hs, rfl⟩ := save_eq_ok_iff.mp h
  have hload := load_holding key hread ht hs
  refine ⟨hload, ?_⟩
  rw [hload, ← map_restored_eq_iff]
  exact ⟨Except.ok.inj, congrArg _⟩

/-- The first of May 2024. -/
def mayDay : Calendar.Date :=
  have h : (1 ≤ 2024 ∧ 2024 ≤ 9999) ∧ (1 ≤ 5 ∧ 5 ≤ 12) ∧ 1 ≤ 1 ∧ 1 ≤ Calendar.daysInMonth 2024 5 := by
    decide
  ⟨2024, 5, 1, h.1, h.2.1, h.2.2⟩

/-- A message with an icon without bytes, taken so far ahead of universal time. -/
def greeting (o : Calendar.Offset) : Snippet where
  id := .text "1"
  content := .text "Guten Tag, \"Ålesund\"\n"
  source := .text "Mail"
  app := some ⟨.text "Mail", some []⟩
  moment := ⟨mayDay, ⟨10, 30, 0, 250000, some o, by decide⟩⟩
  tags := [.text "message", .text "greeting"]
  notes := [.text "∑"]
  variant := .message (.text "Ada")
  tags_ne_nil := by decide

theorem isTextual_greeting (o : Calendar.Offset) : (greeting o).IsTextual where
  id := rfl
  content := rfl
  source := rfl
  app := by simp [greeting, Json.isText]
  tags := by simp [greeting, Json.isText]
  notes := by simp [greeting, Json.isText]
  own := by simp [greeting, Json.isText, Variant.field?]

/-- Two hours are kept, a single microsecond is not. -/
theorem load_of_save_greeting :
    (∃ s', ({} : Store).save [greeting ⟨7200000000, by decide⟩] = .ok s' ∧
      s'.load = .ok [(greeting ⟨7200000000, by decide⟩).withoutEmptyIcon]) ∧
    ∃ s', ({} : Store).save [greeting ⟨1, by decide⟩] = .ok s' ∧
      s'.load ≠ .ok [(greeting ⟨1, by decide⟩).withoutEmptyIcon] := by
  have htextual : ∀ o, ∀ x ∈ [greeting o], x.IsTextual := fun o x hx =>
    List.mem_singleton.mp hx ▸ isTextual_greeting o
  have hsave : ∀ o, ({} : Store).save [greeting o] =
      .ok (({} : Store).holding [greeting o] snippetsKey) :=
    fun o => save_eq_ok_iff.mpr ⟨rfl, rfl, rfl⟩
  refine ⟨⟨_, hsave _, ?_⟩, _, hsave _, fun h => ?_⟩
  · refine (load_of_save rfl (htextual _) (hsave _)).2.mpr ?_
    simp [Calendar.Moment.IsKept, greeting, Calendar.Moment.offset]
  · have hkept := (load_of_save rfl (htextual _) (hsave _)).2.mp h _ (List.mem_singleton.mpr rfl)
    simp [Calendar.Moment.IsKept, greeting, Calendar.Moment.offset] at hkept

end Clipboard.Store
