import Clipboard.Proofs.Calendar.DateRange
import Clipboard.Proofs.Json.Limits
import Clipboard.Proofs.Remote.Asked
import Clipboard.Proofs.Text.Lower

/-!
Which faults come of a reply. Whatever a model says, the fault is one that callers expect, apart from
values beyond a limit: nested too deep, with too many digits, surer than any floating-point number, or
days with times that cannot be compared or that run past the last day of the calendar.
-/

namespace Clipboard.Remote

open Fallible
open Calendar (Date DateRange Moment Time)

/-- There is a result or an expected fault. -/
def IsGuarded {α : Type} (x : Except Fault α) : Prop := ∀ f, x = .error f → f.isExpected

section

variable {α β : Type} {x : Except Fault α}

@[simp]
theorem isGuarded_ok (a : α) : IsGuarded (.ok a) := nofun

@[simp]
theorem isGuarded_error_iff {f : Fault} : IsGuarded (.error f : Except Fault α) ↔ f.isExpected := by
  simp [IsGuarded]

theorem isGuarded_bind_iff {f : α → Except Fault β} :
    IsGuarded (x >>= f) ↔ IsGuarded x ∧ ∀ a, x = .ok a → IsGuarded (f a) := by
  cases x with
  | ok a =>
      have hbind : (Except.ok a >>= f) = f a := rfl
      simp [hbind]
  | error e =>
      have hbind : (Except.error e >>= f) = .error e := rfl
      simp [hbind]

theorem isGuarded_bind_of_forall {f : α → Except Fault β} (h : ∀ a, IsGuarded (f a)) :
    IsGuarded (x >>= f) ↔ IsGuarded x :=
  isGuarded_bind_iff.trans (and_iff_left fun a _ => h a)

end

/-! ## Objects in replies -/

/-- Between the braces of the reply something is nested too deep, or a number has too many digits. -/
def Reply.Exceeds (r : Reply) : Prop :=
  ∃ s block e, r.text = .ok s ∧ objectText? (Text.trim s.toList) = some block ∧
    Json.parse block = .error e ∧ (e.1 = .tooDeep ∨ ∃ digits, e.1 = .longNumber digits)

theorem isGuarded_text (r : Reply) : IsGuarded r.text := by
  cases r <;> simp [Reply.text, Fault.isExpected]

theorem isGuarded_object_iff (r : Reply) : IsGuarded (r.text >>= objectIn) ↔ ¬r.Exceeds := by
  rw [isGuarded_bind_iff, and_iff_right (isGuarded_text r)]
  unfold Reply.Exceeds
  cases r.text with
  | error f => simp
  | ok s =>
      simp only [Except.ok.injEq, forall_eq', exists_and_left, exists_eq_left', objectIn]
      split
      · rename_i hblank
        have hnil : objectText? (Text.trim s.toList) = none := by
          rw [List.isEmpty_iff.mp hblank]
          rfl
        simp [hnil, Fault.isExpected]
      · cases objectText? (Text.trim s.toList) with
        | none => simp [Fault.isExpected]
        | some block =>
            simp only [Option.some.injEq, exists_eq_left']
            cases hparse : Json.parse block with
            | ok v => cases v <;> simp [Fault.isExpected]
            | error e =>
                obtain ⟨f, place⟩ := e
                cases f <;> simp [Fault.isExpected]

/-- The text has no more brackets than levels may be nested, and no more digits than a number may
have. -/
def Reply.IsModest (r : Reply) : Prop :=
  ∀ s, r.text = .ok s → s.toList.countP Json.isOpening ≤ Json.maxDepth ∧
    s.toList.countP Char.isDigit ≤ Decimal.maxDigits

theorem isInfix_of_objectText? {cs block : List Char} (h : objectText? cs = some block) :
    block <:+: cs := by
  unfold objectText? at h
  split at h
  · cases h
  · cases h
    have hclosed := List.dropWhile_suffix (· != '\x7d') (l := (cs.dropWhile (· != '\x7b')).reverse)
    have hprefix := List.reverse_prefix.mpr hclosed
    rw [List.reverse_reverse] at hprefix
    exact hprefix.isInfix.trans (List.dropWhile_suffix _).isInfix

theorem Reply.IsModest.not_exceeds {r : Reply} (h : r.IsModest) : ¬r.Exceeds := by
  rintro ⟨s, block, e, hs, hblock, hparse, hlimit⟩
  obtain ⟨hdepth, hdigits⟩ := h s hs
  have hpart : block.Sublist s.toList := by
    obtain ⟨front, back, hcs, -, -⟩ := Text.exists_eq_append_trim s.toList
    have htrim : Text.trim s.toList <:+: s.toList := ⟨front, back, hcs.symm⟩
    exact ((isInfix_of_objectText? hblock).trans htrim).sublist
  have hwithin := Json.parse_within hparse
  rcases hlimit with hdeep | ⟨n, hlong⟩
  · rw [hdeep] at hwithin
    exact Nat.not_lt.mpr (Nat.le_trans hpart.countP_le hdepth) hwithin
  · rw [hlong] at hwithin
    obtain ⟨hmany, hcount⟩ := hwithin
    have hle := hpart.countP_le (p := Char.isDigit)
    omega

/-! ## Labels -/

/-- The labels would be taken but for a confidence beyond all floating-point numbers. -/
structure Reply.IsOverconfident (r : Reply) : Prop where
  tag : ∃ tag ∈ r.tags, ¬Text.isBlank tag.toList
  confidence : ∃ n, Json.lookup? "confidence" r.fields = some (.int n) ∧ Decimal.ofInt? n = none

namespace Labeller

theorem isGuarded_statedConfidence_iff (v : Option Json) :
    IsGuarded (statedConfidence v) ↔ ¬∃ n, v = some (.int n) ∧ Decimal.ofInt? n = none := by
  unfold statedConfidence
  match v with
  | none => simp
  | some (.int n) => cases hn : Decimal.ofInt? n <;> simp [hn, Fault.isExpected]
  | some .null | some (.bool _) | some (.real _) | some (.text _) | some (.torn _)
  | some (.list _) | some (.object _) => simp

theorem isGuarded_labelsOf_iff (r : Reply) :
    IsGuarded (labelsOf r.fields) ↔ ¬r.IsOverconfident := by
  have hconfident : r.IsOverconfident ↔ (∃ tag ∈ r.tags, ¬Text.isBlank tag.toList) ∧
      ¬IsGuarded (statedConfidence (Json.lookup? "confidence" r.fields)) := by
    rw [isGuarded_statedConfidence_iff, not_not]
    exact ⟨fun h => ⟨h.tag, h.confidence⟩, fun h => ⟨h.1, h.2⟩⟩
  rw [hconfident]
  unfold labelsOf Reply.tags
  cases Json.lookup? "tags" r.fields with
  | none => simp [Fault.isExpected]
  | some v =>
      cases v with
      | list xs =>
          dsimp only
          generalize (xs.filterMap fun t => t.chars?.map String.ofList) = tags
          by_cases hblank : tags.all (fun s => Text.isBlank s.toList) = true
          · have hnone : ¬∃ tag ∈ tags, ¬Text.isBlank tag.toList := by
              simpa using List.all_eq_true.mp hblank
            rw [if_pos hblank]
            exact iff_of_true (isGuarded_error_iff.mpr rfl) fun h => hnone h.1
          · have hsome : ∃ tag ∈ tags, ¬Text.isBlank tag.toList := by simpa using hblank
            rw [if_neg hblank, and_iff_right hsome, not_not]
            exact isGuarded_bind_of_forall fun _ => isGuarded_ok _
      | _ => simp [Fault.isExpected]

theorem isGuarded_labels_iff (r : Reply) :
    IsGuarded (r.text >>= objectIn >>= labelsOf) ↔ ¬r.Exceeds ∧ ¬r.IsOverconfident := by
  rw [isGuarded_bind_iff, isGuarded_object_iff, ← isGuarded_labelsOf_iff]
  refine and_congr_right fun _ => ?_
  unfold Reply.fields
  cases r.text >>= objectIn with
  | ok fields => simp [Except.toOption]
  | error f =>
      have hempty : labelsOf [] = .error .noTags := rfl
      simp [Except.toOption, hempty, Fault.isExpected]

theorem isGuarded_label_iff (o : Outside) (l : Labeller) (text : String) (t : Transcript) :
    IsGuarded ((l.label o text).run t).1 ↔
      (l.enabled → ¬(l.replyTo o text t).Exceeds ∧ ¬(l.replyTo o text t).IsOverconfident) := by
  rw [label_fst, ← isGuarded_labels_iff]
  cases l.enabled with
  | false => simp [Fault.isExpected]
  | true => simp

theorem isGuarded_inferKind_iff (o : Outside) (l : Labeller) (phrase : String) (t : Transcript) :
    IsGuarded ((l.inferKind o phrase).run t).1 ↔
      (l.enabled → ¬(o.reply t.requests (l.kindRequest phrase)).Exceeds) := by
  rw [inferKind_run, ← isGuarded_object_iff]
  cases l.enabled with
  | false => simp [Fault.isExpected]
  | true =>
      simp only [if_true, true_imp_iff]
      exact isGuarded_bind_of_forall fun _ => isGuarded_ok _

end Labeller

/-! ## Days -/

namespace DateGuesser

/-- The days and the times of day that the fields say. Without a last day the first one is meant. -/
structure Reads (fields : List (String × Json)) (first last : Date)
    (startTime endTime : Option Time) : Prop where
  first : readDay ((Json.lookup? "from" fields).getD .null) = .ok first
  last : readDay (if ((Json.lookup? "to" fields).getD .null).isPresent then
    (Json.lookup? "to" fields).getD .null else (Json.lookup? "from" fields).getD .null) = .ok last
  startTime : readTime ((Json.lookup? "fromTime" fields).getD .null) = .ok startTime
  endTime : readTime ((Json.lookup? "toTime" fields).getD .null) = .ok endTime

theorem isGuarded_readDay (v : Json) : IsGuarded (readDay v) := by
  unfold readDay
  cases v.chars? with
  | none => simp [Fault.isExpected]
  | some cs =>
      dsimp only
      cases Date.ofIso (.ofList ((Text.trim cs).take 10)) with
      | ok d => exact isGuarded_ok d
      | error f => exact isGuarded_error_iff.mpr rfl

theorem isGuarded_readTime (v : Json) : IsGuarded (readTime v) := by
  cases v with
  | null => exact isGuarded_ok none
  | text s =>
      unfold readTime
      dsimp only
      split
      · exact isGuarded_ok none
      · split
        · exact isGuarded_ok _
        · cases Time.ofIso (Text.trimString s) <;> simp [Fault.isExpected]
  | _ => exact isGuarded_error_iff.mpr rfl

theorem isGuarded_guessOf_iff (phrase : String) (fields : List (String × Json)) :
    IsGuarded (guessOf phrase fields) ↔ ∀ first last startTime endTime,
      Reads fields first last startTime endTime →
        Succeeds (DateRange.make first (some last) startTime endTime) := by
  unfold guessOf
  simp only [isGuarded_bind_iff, isGuarded_readDay, isGuarded_readTime, true_and]
  constructor
  · intro h first last startTime endTime hreads
    have hmake := h first hreads.first last hreads.last startTime hreads.startTime endTime
      hreads.endTime
    cases hr : DateRange.make first (some last) startTime endTime with
    | ok r => exact succeeds_ok r
    | error f =>
        rw [hr] at hmake
        exact absurd (isGuarded_error_iff.mp hmake) (by simp [Fault.isExpected])
  · intro h first hfirst last hlast startTime hstart endTime hend
    obtain ⟨r, hr⟩ := h first last startTime endTime ⟨hfirst, hlast, hstart, hend⟩
    rw [hr]
    exact isGuarded_ok _

theorem isGuarded_guess_iff (o : Outside) (g : DateGuesser) (now : Moment) (phrase : String)
    (t : Transcript) :
    let r := o.reply t.requests (g.request now phrase)
    IsGuarded ((g.guess o now phrase).run t).1 ↔
      ¬r.Exceeds ∧ ∀ first last startTime endTime, Reads r.fields first last startTime endTime →
        (startTime.isSome ∨ endTime.isSome →
          DateRange.IsTimeable (if last < first then last else first)
            (startTime.getD .midnight) (endTime.getD .endOfDay)) := by
  intro r
  simp only [← DateRange.make_succeeds_iff_isTimeable]
  rw [guess_run, isGuarded_bind_iff, isGuarded_object_iff, ← isGuarded_guessOf_iff phrase]
  refine and_congr_right fun _ => ?_
  unfold Reply.fields
  cases r.text >>= objectIn with
  | ok fields => simp [Except.toOption]
  | error f =>
      have hempty : guessOf phrase [] = .error (.badDate .null) := rfl
      simp [Except.toOption, hempty, Fault.isExpected]

end DateGuesser

/-! ## Every reply -/

/-- A question to a model comes to a result or an expected fault exactly if the reply is not beyond a
limit: of nesting and digits for each of them, of confidence for labels, and of the calendar for days.
What has few brackets and few digits is within the first. -/
theorem isGuarded_iff (o : Outside) (t : Transcript) :
    (∀ (l : Labeller) (text : String), IsGuarded ((l.label o text).run t).1 ↔
      (l.enabled → ¬(l.replyTo o text t).Exceeds ∧ ¬(l.replyTo o text t).IsOverconfident)) ∧
    (∀ (l : Labeller) (phrase : String), IsGuarded ((l.inferKind o phrase).run t).1 ↔
      (l.enabled → ¬(o.reply t.requests (l.kindRequest phrase)).Exceeds)) ∧
    (∀ (g : DateGuesser) (now : Moment) (phrase : String),
      IsGuarded ((g.guess o now phrase).run t).1 ↔
        let r := o.reply t.requests (g.request now phrase)
        ¬r.Exceeds ∧ ∀ first last startTime endTime,
          DateGuesser.Reads r.fields first last startTime endTime →
            (startTime.isSome ∨ endTime.isSome →
              DateRange.IsTimeable (if last < first then last else first)
                (startTime.getD .midnight) (endTime.getD .endOfDay))) ∧
    ∀ r : Reply, r.IsModest → ¬r.Exceeds :=
  ⟨fun l text => l.isGuarded_label_iff o text t, fun l phrase => l.isGuarded_inferKind_iff o phrase t,
    fun g now phrase => g.isGuarded_guess_iff o now phrase t, fun _ h => h.not_exceeds⟩

/-- The reply that means the night that begins on a day. -/
def night (day : String) : String :=
  "\x7b\"from\": \"" ++ day ++ "\", \"fromTime\": \"22:00\", \"toTime\": \"04:00\"\x7d"

/-- A night can be told that begins on a day in May, but none that begins on the last day. -/
theorem isGuarded_iff_night :
    let now : Moment := ⟨⟨2024, 5, 2, by decide, by decide, by decide⟩, .midnight⟩
    let guess (day : String) :=
      ((DateGuesser.guess (.replying (night day)) ⟨"m", none, 1⟩ now "night").run {}).1
    IsGuarded (guess "2024-05-01") ∧ ¬IsGuarded (guess "9999-12-31") := by
  intro now guess
  have hiff (day : String) := (isGuarded_iff (.replying (night day)) {}).2.2.1
    ⟨"m", none, 1⟩ now "night"
  have hreads (day : String) (d : Date) (hday : DateGuesser.readDay (.text day) = .ok d)
      (hfields : (Reply.content (night day)).fields =
        [("from", .text day), ("fromTime", .text "22:00"), ("toTime", .text "04:00")]) :
      DateGuesser.Reads (Reply.content (night day)).fields d d
        (some (.ofHour 22)) (some (.ofHour 4)) := by
    rw [hfields]
    exact ⟨hday, hday, rfl, rfl⟩
  constructor
  · have hmay := hreads "2024-05-01" ⟨2024, 5, 1, by decide, by decide, by decide⟩ rfl (by rfl)
    refine (hiff "2024-05-01").mpr ⟨?_, ?_⟩
    · refine (isGuarded_iff (.replying "") {}).2.2.2 _ fun s hs => ?_
      cases hs
      decide
    · intro first last startTime endTime h
      obtain rfl := Except.ok.inj (h.first.symm.trans hmay.first)
      obtain rfl := Except.ok.inj (h.last.symm.trans hmay.last)
      obtain rfl := Except.ok.inj (h.startTime.symm.trans hmay.startTime)
      obtain rfl := Except.ok.inj (h.endTime.symm.trans hmay.endTime)
      exact fun _ => ⟨rfl, by decide⟩
  · intro h
    have hlast := hreads "9999-12-31" ⟨9999, 12, 31, by decide, by decide, by decide⟩ rfl (by rfl)
    have htimes := ((hiff "9999-12-31").mp h).2 _ _ _ _ hlast (.inl rfl)
    exact absurd (htimes.next_day (by decide)) (by decide)

end Clipboard.Remote
