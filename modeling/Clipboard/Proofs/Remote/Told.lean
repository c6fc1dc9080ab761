import Clipboard.Proofs.Calendar.Canonical
import Clipboard.Proofs.Json.RoundTrip
import Clipboard.Proofs.Remote.Guarded

/-!
Ranges that a model tells. Any range in canonical form comes back from a reply that has its days and
times as ISO texts, to the microsecond, with the words of the reply to show for it or else the phrase.
-/

namespace Clipboard

/-! ## Texts of digits and separators -/

theorem Text.utf8ByteSize_of_ascii {s : String} (h : ∀ c ∈ s.toList, c.toNat < 128) :
    s.utf8ByteSize = s.toList.length := by
  rw [← String.ofList_toList (s := s), String.toList_ofList]
  generalize s.toList = cs at h
  induction cs with
  | nil => rfl
  | cons c cs ih =>
      have hone : c.utf8Size = 1 := Char.utf8Size_eq_one_iff.mpr
        (UInt32.le_iff_toNat_le.mpr (Nat.le_of_lt_succ (h c List.mem_cons_self)))
      rw [String.ofList_cons, String.utf8ByteSize_append, String.utf8ByteSize_singleton, hone,
        ih fun d hd => h d (List.mem_cons_of_mem c hd), List.length_cons, Nat.add_comm]

namespace Calendar

open Decimal (padded)

/-- Digits and what stands between the numbers of days and times. -/
def isMark (c : Char) : Bool := c.isDigit || c == '-' || c == ':' || c == '.'

theorem isMark_spec {c : Char} (h : isMark c) : c.toNat < 128 ∧ ¬Text.isSpace c := by
  simp only [isMark, Bool.or_eq_true, beq_iff_eq] at h
  rcases h with ((hdigit | rfl) | rfl) | rfl
  · obtain ⟨hlow, hhigh⟩ : 48 ≤ c.toNat ∧ c.toNat ≤ 57 := by
      simpa [Char.isDigit, UInt32.le_iff_toNat_le] using hdigit
    exact ⟨by omega, Text.not_isSpace_of_visible (by omega)⟩
  · decide
  · decide
  · decide

theorem isMark_of_mem_padded {width n : Nat} {c : Char} (h : c ∈ (padded width n).toList) :
    isMark c := by
  simp [isMark, isDigit_of_mem_padded h]

theorem isMark_of_mem_date {d : Date} {c : Char} (hc : c ∈ d.isoText.toList) : isMark c := by
  simp only [toList_isoText, List.mem_append, List.mem_cons] at hc
  rcases hc with hc | rfl | hc | rfl | hc
  · exact isMark_of_mem_padded hc
  · rfl
  · exact isMark_of_mem_padded hc
  · rfl
  · exact isMark_of_mem_padded hc

theorem isMark_of_mem_time {t : Time} (h : t.offset = none) {c : Char} (hc : c ∈ t.isoText.toList) :
    isMark c := by
  rw [Time.toList_isoText, h, Option.elim_none, List.append_nil] at hc
  rcases isDigit_or_of_mem_clockText hc with hdigit | rfl | rfl
  · simp [isMark, hdigit]
  · rfl
  · rfl

theorem Date.ofIso_isoText (d : Date) : Date.ofIso d.isoText = .ok d := by
  have hsize : d.isoText.utf8ByteSize = 10 :=
    (Text.utf8ByteSize_of_ascii fun c hc => (isMark_spec (isMark_of_mem_date hc)).1).trans
      (length_isoText d)
  simp [Date.ofIso, hsize, readDate?_isoText]

/-- No time of day has twenty-four hours. -/
theorem Time.isoText_ne {t : Time} {s : String} (h : ∀ read ∈ readClock? s.toList, 24 ≤ read.1.hour) :
    t.isoText ≠ s := by
  rintro rfl
  exact absurd (h _ (readClock?_isoText t)) (Nat.not_le.mpr t.range.1)

theorem Time.kept_eq_self {t : Time} (h : t.offset = none) : t.kept = t := by
  obtain ⟨hour, minute, second, micro, offset, range⟩ := t
  cases h
  rfl

end Calendar

namespace Remote

/-! ## Objects -/

theorem objectIn_render {fields : List (String × Json)}
    (h : Json.ReadsBack (Json.readValue Json.maxDepth) (.object fields)) :
    objectIn (Json.object fields).render = .ok fields := by
  have hprint : (Json.object fields).print false =
      '\x7b' :: (Json.printFields false fields ++ ['\x7d']) := by simp [Json.print]
  have hparse := h.parse_print
  rw [hprint] at hparse
  rw [objectIn, Json.render, hprint, String.toList_ofList]
  generalize Json.printFields false fields = body at hparse
  have htrim : Text.trim ('\x7b' :: (body ++ ['\x7d'])) = '\x7b' :: (body ++ ['\x7d']) := by
    simp [Text.trim, Text.dropWhileEnd, Text.isSpace]
  have hblock : objectText? ('\x7b' :: (body ++ ['\x7d'])) = some ('\x7b' :: (body ++ ['\x7d'])) := by
    simp [objectText?]
  simp only [htrim, List.isEmpty_cons, Bool.false_eq_true, if_false, hblock, hparse]

theorem objectIn_replying (s : String) (earlier : List Request) (q : Request) :
    ((Outside.replying s).reply earlier q).text >>= objectIn = objectIn s := rfl

namespace DateGuesser

open Fallible
open Calendar (Date DateRange Moment Time isMark_spec isMark_of_mem_date isMark_of_mem_time)

/-! ## Fields -/

theorem readDay_isoText (d : Date) : readDay (.text d.isoText) = .ok d := by
  have htrim : Text.trim d.isoText.toList = d.isoText.toList :=
    Text.trim_of_no_space fun c hc => (isMark_spec (isMark_of_mem_date hc)).2
  have htake : d.isoText.toList.take 10 = d.isoText.toList :=
    List.take_of_length_le (Nat.le_of_eq (Calendar.length_isoText d))
  simp only [readDay, Json.chars?, htrim, htake, String.ofList_toList, Date.ofIso_isoText]

/-- A time as a reply has it. -/
def timeField : Option Time → Json
  | none => .null
  | some t => .text t.isoText

theorem readTime_timeField {time : Option Time} (h : ∀ t ∈ time, t.offset = none) :
    readTime (timeField time) = .ok time := by
  cases time with
  | none => rfl
  | some t =>
      have hnone : t.offset = none := h t rfl
      have htrim : Text.trimString t.isoText = t.isoText := by
        have hmarks : ∀ c ∈ t.isoText.toList, ¬Text.isSpace c := fun c hc =>
          (isMark_spec (isMark_of_mem_time hnone hc)).2
        rw [Text.trimString, Text.trim_of_no_space hmarks, String.ofList_toList]
      have hempty : t.isoText ≠ "" := Time.isoText_ne (by decide)
      have hshort : t.isoText ≠ "24:00" := Time.isoText_ne (by decide)
      have hlong : t.isoText ≠ "24:00:00" := Time.isoText_ne (by decide)
      simp [readTime, timeField, htrim, hempty, hshort, hlong, Time.ofIso_isoText,
        Time.kept_eq_self hnone]

/-- The fields have the days and the times of the range. -/
structure Tells (fields : List (String × Json)) (r : DateRange) : Prop where
  first : Json.lookup? "from" fields = some (.text r.first.isoText)
  last : Json.lookup? "to" fields = some (.text r.last.isoText)
  startTime : (Json.lookup? "fromTime" fields).getD .null = timeField r.startTime
  endTime : (Json.lookup? "toTime" fields).getD .null = timeField r.endTime

theorem Tells.reads {fields : List (String × Json)} {r : DateRange} (h : Tells fields r)
    (hplain : r.IsPlain) : Reads fields r.first r.last r.startTime r.endTime := by
  have hlast : (Json.text r.last.isoText).isPresent := by
    have hlength := Calendar.length_isoText r.last
    have hsome : r.last.isoText ≠ "" := fun hnil => by simp [hnil] at hlength
    simpa [Json.isPresent] using hsome
  refine ⟨?_, ?_, ?_, ?_⟩
  · rw [h.first]
    exact readDay_isoText r.first
  · rw [h.last, Option.getD_some, if_pos hlast]
    exact readDay_isoText r.last
  · rw [h.startTime]
    exact readTime_timeField hplain.offset_eq_none
  · rw [h.endTime]
    exact readTime_timeField hplain.endTime_offset_eq_none

/-- The words to show are those of the reply without the blanks around them, or the phrase if there are
none. -/
structure Shows (phrase : String) (words : Option (List Char)) (label : String) : Prop where
  display : ∀ cs ∈ words, ¬Text.isBlank cs → label = .ofList (Text.trim cs)
  phrase : (∀ cs ∈ words, Text.isBlank cs) → label = phrase

theorem shows_words (phrase : String) (words : Option (List Char)) :
    Shows phrase words (match words with
      | some cs => if Text.isBlank cs then phrase else .ofList (Text.trim cs)
      | none => phrase) := by
  cases words with
  | none => exact ⟨nofun, fun _ => rfl⟩
  | some cs =>
      constructor
      · intro ds hds hwords
        cases hds
        exact if_neg hwords
      · intro hblank
        exact if_pos (hblank cs rfl)

/-- The text for display, if there is one. -/
def displayed? (fields : List (String × Json)) : Option (List Char) :=
  ((Json.lookup? "display" fields).getD .null).chars?

theorem guessOf_of_reads {fields : List (String × Json)} {first last : Date}
    {startTime endTime : Option Time} {r : DateRange} (phrase : String)
    (h : Reads fields first last startTime endTime)
    (hmake : DateRange.make first (some last) startTime endTime = .ok r) :
    ∃ label, guessOf phrase fields = .ok ⟨r, label⟩ ∧ Shows phrase (displayed? fields) label := by
  unfold guessOf
  simp only [h.first, h.last, h.startTime, h.endTime]
  simp only [bind, Except.bind, hmake]
  exact ⟨_, rfl, shows_words phrase (displayed? fields)⟩

/-! ## Every range -/

/-- A range in canonical form is what comes of a reply that has its days and its times, and its words are
those of the reply or else the phrase. -/
theorem guess_told {o : Outside} {g : DateGuesser} {now : Moment} {phrase : String} {t : Transcript}
    {fields : List (String × Json)} {r : DateRange} (hcanonical : r.IsCanonical)
    (hreply : (o.reply t.requests (g.request now phrase)).text >>= objectIn = .ok fields)
    (htells : Tells fields r) :
    ∃ label, ((g.guess o now phrase).run t).1 = .ok ⟨r, label⟩ ∧ Shows phrase (displayed? fields) label := by
  obtain ⟨label, hguess, hshows⟩ :=
    guessOf_of_reads phrase (htells.reads hcanonical.toIsPlain) hcanonical.make_self
  rw [guess_run, hreply]
  exact ⟨label, hguess, hshows⟩

/-- The reply that tells a range and these words. -/
def telling (r : DateRange) (words : String) : List (String × Json) :=
  [("from", .text r.first.isoText), ("to", .text r.last.isoText), ("fromTime", timeField r.startTime),
    ("toTime", timeField r.endTime), ("display", .text words)]

theorem objectIn_telling (r : DateRange) (words : String) :
    objectIn (Json.object (telling r words)).render = .ok (telling r words) := by
  have htime (time : Option Time) (depth : Nat) :
      Json.ReadsBack (Json.readValue depth) (timeField time) := by
    cases time with
    | none => exact Json.readsBack_null depth
    | some t => exact Json.readsBack_text depth t.isoText
  refine objectIn_render (Json.readsBack_object (by simp [telling]) ?_)
  simp [telling, htime, Json.readsBack_text]

theorem tells_telling (r : DateRange) (words : String) : Tells (telling r words) r :=
  ⟨rfl, rfl, rfl, rfl⟩

/-- A night that begins a microsecond after ten, told with blanks around its name. -/
theorem guess_told_night :
    let eve : Date := ⟨2024, 2, 28, by decide, by decide, by decide⟩
    let leapDay : Date := ⟨2024, 2, 29, by decide, by decide, by decide⟩
    let night : DateRange := ⟨eve, leapDay, some ⟨22, 0, 0, 1, none, by decide⟩, some (.ofHour 4)⟩
    let reply := (Json.object (telling night "  Last night ")).render
    night.IsCanonical ∧ objectIn reply = .ok (telling night "  Last night ") ∧
      ((DateGuesser.guess (.replying reply) ⟨"m", none, 1⟩ ⟨leapDay, .midnight⟩ "night").run {}).1 =
        .ok ⟨night, "Last night"⟩ := by
  intro eve leapDay night reply
  have hmake : DateRange.make eve (some leapDay) night.startTime night.endTime = .ok night := by
    decide +kernel
  have hcanonical : night.IsCanonical := DateRange.isCanonical_make (by rintro s ⟨rfl⟩; rfl) hmake
  have hreply : objectIn reply = .ok (telling night "  Last night ") := objectIn_telling night _
  have hfields := (objectIn_replying reply [] (request ⟨"m", none, 1⟩ ⟨leapDay, .midnight⟩ "night")).trans
    hreply
  obtain ⟨label, hguess, hshows⟩ := guess_told (t := {}) hcanonical hfields (tells_telling night _)
  have hlabel : label = "Last night" :=
    (hshows.display "  Last night ".toList rfl (by decide)).trans (by decide +kernel)
  rw [hlabel] at hguess
  exact ⟨hcanonical, hreply, hguess⟩

end DateGuesser

end Remote

end Clipboard
