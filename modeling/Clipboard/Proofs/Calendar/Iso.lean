import Clipboard.Calendar.Iso

/-!
Days, times and moments written in the form of the ISO standard are read back. Offsets of less than
a second are the one exception: they are read as no distance from universal time.
-/

namespace Clipboard.Calendar

open Decimal (padded)

/-! ## Numbers of fixed width -/

theorem toList_pushn (s : String) (c : Char) (n : Nat) :
    (s.pushn c n).toList = s.toList ++ List.replicate n c := by
  rw [String.pushn_eq_repeat_push]
  induction n with
  | zero => simp [Nat.repeat]
  | succ n ih => rw [Nat.repeat, String.toList_push, ih, List.replicate_succ', List.append_assoc]

theorem toList_padded (width n : Nat) :
    (padded width n).toList =
      List.replicate (width - (Nat.toDigits 10 n).length) '0' ++ Nat.toDigits 10 n := by
  have hs : (toString n).toList = Nat.toDigits 10 n := Nat.toList_repr
  rw [padded, String.toList_append, toList_pushn, ← String.length_toList, hs]
  rfl

theorem length_padded (width n : Nat) (hw : 0 < width) (h : n < 10 ^ width) :
    (padded width n).toList.length = width := by
  have := (Nat.length_toDigits_le_iff (b := 10) (by decide) hw).mpr h
  rw [toList_padded, List.length_append, List.length_replicate]
  omega

theorem isDigit_of_mem_padded {width n : Nat} {c : Char} (h : c ∈ (padded width n).toList) :
    c.isDigit = true := by
  rw [toList_padded] at h
  rcases List.mem_append.mp h with h | h
  · rw [List.eq_of_mem_replicate h]; decide
  · exact Nat.isDigit_of_mem_toDigits (by decide) (by decide) h

theorem readDigits?_padded (width n : Nat) (hw : 0 < width) (h : n < 10 ^ width)
    (rest : List Char) : readDigits? width ((padded width n).toList ++ rest) = some (n, rest) := by
  have hlen := length_padded width n hw h
  have htake : ((padded width n).toList ++ rest).take width = (padded width n).toList :=
    List.take_left' hlen
  have hdrop : ((padded width n).toList ++ rest).drop width = rest := List.drop_left' hlen
  have hall : (padded width n).toList.all Char.isDigit = true :=
    List.all_eq_true.mpr fun c hc => isDigit_of_mem_padded hc
  have hvalue : (padded width n).toList.foldl (fun v c => 10 * v + (c.toNat - 48)) 0 = n := by
    have := @Nat.ofDigitChars_eq_foldl 10 (padded width n).toList 0
    rw [toList_padded] at this ⊢
    rw [Nat.ofDigitChars_append, Nat.ofDigitChars_replicate_zero, Nat.mul_zero,
      Nat.ofDigitChars_ten_toDigits] at this
    exact this.symm
  simp only [readDigits?, htake, hdrop, hlen, hall, hvalue, beq_self_eq_true, Bool.and_self,
    if_true]

theorem exists_padded_two {n : Nat} (h : n < 100) :
    ∃ a b, (padded 2 n).toList = [a, b] ∧ a.isDigit = true ∧ b.isDigit = true := by
  have hlen := length_padded 2 n (by decide) h
  match hp : (padded 2 n).toList, hlen with
  | [a, b], _ =>
      exact ⟨a, b, rfl, isDigit_of_mem_padded (by rw [hp]; simp),
        isDigit_of_mem_padded (by rw [hp]; simp)⟩

theorem exists_padded_four {n : Nat} (h : n < 10000) :
    ∃ a b c d, (padded 4 n).toList = [a, b, c, d] := by
  have hlen := length_padded 4 n (by decide) h
  match hp : (padded 4 n).toList, hlen with
  | [a, b, c, d], _ => exact ⟨a, b, c, d, rfl⟩

/-! ## Days -/

theorem daysInMonth_le (y m : Nat) : daysInMonth y m ≤ 31 := by
  unfold daysInMonth
  repeat' split
  all_goals decide

theorem Date.day_lt (d : Date) : d.day < 100 :=
  Nat.lt_of_le_of_lt (Nat.le_trans d.day_range.2 (daysInMonth_le _ _)) (by decide)

theorem Date.make_self (d : Date) : Date.make d.year d.month d.day = .ok d := by
  unfold Date.make
  rw [dif_pos d.year_range, dif_pos d.month_range, dif_pos d.day_range]

theorem toList_isoText (d : Date) :
    d.isoText.toList =
      (padded 4 d.year).toList ++ '-' :: ((padded 2 d.month).toList ++ '-' ::
        (padded 2 d.day).toList) := by
  simp [Date.isoText]

theorem length_isoText (d : Date) : d.isoText.toList.length = 10 := by
  have hy := length_padded 4 d.year (by decide) (by have := d.year_range; omega)
  have hm := length_padded 2 d.month (by decide) (by have := d.month_range; omega)
  have hd := length_padded 2 d.day (by decide) d.day_lt
  rw [toList_isoText, List.length_append, List.length_cons, List.length_append, List.length_cons,
    hy, hm, hd]

theorem readDate?_isoText (d : Date) : readDate? d.isoText.toList = some (.ok d) := by
  have hy := readDigits?_padded 4 d.year (by decide)
    (by have := d.year_range; omega) ('-' :: ((padded 2 d.month).toList ++ '-' ::
      (padded 2 d.day).toList))
  have hm := readDigits?_padded 2 d.month (by decide)
    (by have := d.month_range; omega) ('-' :: (padded 2 d.day).toList)
  have hd := readDigits?_padded 2 d.day (by decide) d.day_lt []
  rw [List.append_nil] at hd
  obtain ⟨a, b, hab, ha, -⟩ := exists_padded_two (n := d.month) (by have := d.month_range; omega)
  -- A digit stands where a week would begin with a letter.
  have hW : a ≠ 'W' := by rintro rfl; exact absurd ha (by decide)
  rw [hab, List.cons_append, List.cons_append, List.nil_append] at hm
  rw [toList_isoText, readDate?, hy]
  simp [hab, hW, hm, hd, Date.make_self]

/-! ## Times -/

/-- A time as `22:00:00`, with microseconds only where there are any. -/
def clockText (h m s u : Nat) : List Char :=
  (padded 2 h).toList ++ ':' :: ((padded 2 m).toList ++ ':' :: ((padded 2 s).toList ++
    if u = 0 then [] else '.' :: (padded 6 u).toList))

/-- The numbers of a fraction of six digits, with nothing behind them. -/
theorem readFraction?_padded {u : Nat} (hu : u < 1000000) :
    readFraction? (padded 6 u).toList = some (u, true) := by
  have hlen := length_padded 6 u (by decide) hu
  have hread := readDigits?_padded 6 u (by decide) hu []
  rw [List.append_nil] at hread
  simp [readFraction?, hlen, hread, isEnd]

theorem readFields?_clockText {h m s u : Nat} (hh : h < 100) (hm : m < 100) (hs : s < 100)
    (hu : u < 1000000) : readFields? (clockText h m s u) = some (⟨h, m, s, u⟩, true) := by
  have h1 := readDigits?_padded 2 h (by decide) hh
  have h2 := readDigits?_padded 2 m (by decide) hm
  have h3 := readDigits?_padded 2 s (by decide) hs
  obtain ⟨a, b, hab, -⟩ := exists_padded_two hm
  obtain ⟨c, d, hcd, -⟩ := exists_padded_two hs
  rw [clockText, readFields?, h1]
  rw [hab] at h2 ⊢
  rw [hcd] at h3 ⊢
  simp only [List.cons_append, List.nil_append] at h2 h3 ⊢
  by_cases hzero : u = 0
  · subst hzero
    simp [isSpent, afterNumber, h2, h3, isEnd]
  · have hfraction := readFraction?_padded hu
    have hlen := length_padded 6 u (by decide) hu
    match hp : (padded 6 u).toList, hlen with
    | x :: y :: rest, _ =>
        rw [hp] at hfraction
        simp [isSpent, afterNumber, h2, h3, hzero, hfraction]

theorem readFields?_hoursMinutes {h m : Nat} (hh : h < 100) (hm : m < 100) :
    readFields? ((padded 2 h).toList ++ ':' :: (padded 2 m).toList) =
      some (⟨h, m, 0, 0⟩, true) := by
  have h1 := readDigits?_padded 2 h (by decide) hh
  have h2 := readDigits?_padded 2 m (by decide) hm []
  obtain ⟨a, b, hab, -⟩ := exists_padded_two hm
  rw [readFields?, h1]
  rw [hab] at h2 ⊢
  simp only [List.append_nil] at h2
  simp [isSpent, afterNumber, h2, isEnd]

/-! ## Offsets -/

/-- What is left of an offset that is written and read: less than a second is lost. -/
def Offset.kept (o : Offset) : Offset :=
  if o.micros.natAbs < 1000000 then ⟨0, by decide⟩ else o

theorem Offset.make_self (o : Offset) : Offset.make o.micros = .ok o := by
  rw [Offset.make, dif_pos o.range]

/-- The numbers of a clock that shows so many microseconds. -/
def clockFields (n : Nat) : ClockFields :=
  ⟨n / 3600000000, n / 60000000 % 60, n / 1000000 % 60, n % 1000000⟩

/-- The distance from universal time, without its sign. -/
def distanceText (n : Nat) : List Char :=
  if n % 60000000 = 0 then
    (padded 2 (n / 3600000000)).toList ++ ':' :: (padded 2 (n / 60000000 % 60)).toList
  else clockText (n / 3600000000) (n / 60000000 % 60) (n / 1000000 % 60) (n % 1000000)

theorem toList_offset_isoText (o : Offset) :
    o.isoText.toList = (if o.micros < 0 then '-' else '+') :: distanceText o.micros.natAbs := by
  have hsign : (if o.micros < 0 then "-" else "+").toList =
      [if o.micros < 0 then '-' else '+'] := by
    split <;> rfl
  unfold Offset.isoText distanceText
  generalize o.micros.natAbs = n
  by_cases hs : n % 60000000 = 0
  · have hu : n % 1000000 = 0 := by omega
    simp [hsign, hs, hu]
  · by_cases hu : n % 1000000 = 0
    · simp [clockText, hsign, hs, hu]
    · simp [clockText, hsign, hs, hu]

theorem readFields?_distanceText {n : Nat} (h : n < 86400000000) :
    readFields? (distanceText n) = some (clockFields n, true) := by
  unfold distanceText clockFields
  split
  · rw [readFields?_hoursMinutes (by omega) (by omega)]
    have hs : n / 1000000 % 60 = 0 := by omega
    have hu : n % 1000000 = 0 := by omega
    rw [hs, hu]
  · rw [readFields?_clockText (by omega) (by omega) (by omega) (by omega)]

theorem readZone?_of_readFields? {sign : Char} (hsign : sign = '+' ∨ sign = '-')
    {body : List Char} {f : ClockFields} (h : readFields? body = some (f, true)) {seconds : Nat}
    (hs : (f.hour * 60 + f.minute) * 60 + f.second = seconds) :
    readZone? (sign :: body) =
      let n : Int := if seconds = 0 then 0 else seconds * 1000000 + f.micro
      some (Offset.make (if sign = '-' then -n else n)) := by
  subst hs
  rcases hsign with rfl | rfl <;> simp [readZone?, h]

/-- The offset behind a time is read as far as it is kept. -/
theorem readZone?_isoText (o : Offset) : readZone? o.isoText.toList = some (.ok o.kept) := by
  have hrange := o.range
  have hseconds : ((clockFields o.micros.natAbs).hour * 60 + (clockFields o.micros.natAbs).minute)
      * 60 + (clockFields o.micros.natAbs).second = o.micros.natAbs / 1000000 := by
    simp only [clockFields]; omega
  have hsign : (if o.micros < 0 then '-' else '+') = '+' ∨
      (if o.micros < 0 then '-' else '+') = '-' := by
    split <;> simp
  rw [toList_offset_isoText,
    readZone?_of_readFields? hsign (readFields?_distanceText (by omega)) hseconds,
    ← o.kept.make_self]
  have hkept : o.kept.micros = if o.micros.natAbs < 1000000 then 0 else o.micros := by
    unfold Offset.kept; split <;> rfl
  have hminus : ((if o.micros < 0 then '-' else '+') = '-') ↔ o.micros < 0 := by split <;> simp [*]
  simp only [hkept, hminus, clockFields]
  congr 2
  by_cases hneg : o.micros < 0
  · rw [if_pos hneg]; split <;> split <;> omega
  · rw [if_neg hneg]; split <;> split <;> omega

/-! ## Times and moments -/

theorem isZoneMark_of_isDigit {c : Char} (h : c.isDigit = true) : isZoneMark c = false := by
  have hne : ∀ d : Char, d.isDigit = false → c ≠ d := by
    rintro d hd rfl
    rw [h] at hd
    cases hd
  simp [isZoneMark, hne '+' (by decide), hne '-' (by decide), hne 'Z' (by decide)]

theorem isDigit_or_of_mem_clockText {h m s u : Nat} {c : Char} (hc : c ∈ clockText h m s u) :
    c.isDigit ∨ c = ':' ∨ c = '.' := by
  simp only [clockText, List.mem_append, List.mem_cons] at hc
  rcases hc with hc | hc | hc | hc | hc | hc
  · exact .inl (isDigit_of_mem_padded hc)
  · exact .inr (.inl hc)
  · exact .inl (isDigit_of_mem_padded hc)
  · exact .inr (.inl hc)
  · exact .inl (isDigit_of_mem_padded hc)
  · split at hc
    · cases hc
    · rcases List.mem_cons.mp hc with hc | hc
      · exact .inr (.inr hc)
      · exact .inl (isDigit_of_mem_padded hc)

theorem not_isZoneMark_of_mem_clockText {h m s u : Nat} {c : Char} (hc : c ∈ clockText h m s u) :
    (!isZoneMark c) = true := by
  rcases isDigit_or_of_mem_clockText hc with hdigit | rfl | rfl
  · rw [isZoneMark_of_isDigit hdigit, Bool.not_false]
  · decide
  · decide

/-- The time with what is kept of its offset. -/
def Time.kept (t : Time) : Time := { t with offset := t.offset.map Offset.kept }

theorem Time.toTime_self (t : Time) (offset : Option Offset) :
    (ClockFields.mk t.hour t.minute t.second t.micro).toTime offset =
      .ok { t with offset } := by
  obtain ⟨hh, hm, hs, hu⟩ := t.range
  simp [ClockFields.toTime, Time.make, hh, hm, hs, hu]

theorem Time.toList_isoText (t : Time) :
    t.isoText.toList = clockText t.hour t.minute t.second t.micro ++
      (t.offset.elim [] fun o => o.isoText.toList) := by
  by_cases hu : t.micro = 0 <;> cases ho : t.offset <;> simp [Time.isoText, clockText, hu, ho]

theorem readClock?_isoText (t : Time) :
    readClock? t.isoText.toList =
      some (⟨t.hour, t.minute, t.second, t.micro⟩, t.offset.map fun o => .ok o.kept) := by
  obtain ⟨hh, hm, hs, hu⟩ := t.range
  have hfields := readFields?_clockText (h := t.hour) (m := t.minute) (s := t.second) (u := t.micro)
    (by omega) (by omega) (by omega) hu
  have hall : ∀ c ∈ clockText t.hour t.minute t.second t.micro, (!isZoneMark c) = true :=
    fun c => not_isZoneMark_of_mem_clockText
  rw [Time.toList_isoText, readClock?, List.takeWhile_append_of_pos hall,
    List.dropWhile_append_of_pos hall]
  cases t.offset with
  | none => simp [hfields]
  | some o =>
      have hzone := readZone?_isoText o
      have hmark : isZoneMark (if o.micros < 0 then '-' else '+') = true := by split <;> rfl
      rw [toList_offset_isoText] at hzone
      simp [toList_offset_isoText, hmark, hfields, hzone]

/-- A written time is read as it was, but for an offset of less than a second. -/
theorem Time.ofIso_isoText (t : Time) : Time.ofIso t.isoText = .ok t.kept := by
  obtain ⟨a, b, hab, ha, -⟩ := exists_padded_two (n := t.hour) (by have := t.range; omega)
  -- A digit stands where the letter before a time could.
  have hT : a ≠ 'T' := by rintro rfl; exact absurd ha (by decide)
  have hhead : t.isoText.toList.head? ≠ some 'T' := by
    simpa [Time.toList_isoText, clockText, hab] using hT
  have hoffset : checkOffset (t.offset.map fun o => .ok o.kept) = .ok (t.offset.map Offset.kept) := by
    cases t.offset <;> rfl
  simp only [Time.ofIso, beq_iff_eq, hhead, if_false, readClock?_isoText, hoffset, bind, Except.bind,
    Time.toTime_self]
  rfl

/-- The moment with what is kept of its offset. -/
def Moment.kept (m : Moment) : Moment := { m with time := m.time.kept }

theorem dateLength_isoText (d : Date) (rest : List Char) :
    dateLength (d.isoText.toList ++ 'T' :: rest) = 10 := by
  obtain ⟨y₁, y₂, y₃, y₄, hy⟩ := exists_padded_four (n := d.year) (by have := d.year_range; omega)
  obtain ⟨a, b, hab, ha, -⟩ := exists_padded_two (n := d.month) (by have := d.month_range; omega)
  have hW : a ≠ 'W' := by rintro rfl; exact absurd ha (by decide)
  have hlen : (d.isoText.toList ++ 'T' :: rest).length ≠ 7 := by
    rw [List.length_append, length_isoText]; omega
  have htext : d.isoText.toList ++ 'T' :: rest = y₁ :: y₂ :: y₃ :: y₄ :: '-' :: a :: b :: '-' ::
      ((padded 2 d.day).toList ++ 'T' :: rest) := by
    simp [toList_isoText, hy, hab]
  rw [htext] at hlen ⊢
  simp only [dateLength, beq_iff_eq, hlen, if_false]
  simp [hW]

/-- A written moment is read as it was, but for an offset of less than a second. -/
theorem Moment.ofIso_isoText (m : Moment) : Moment.ofIso m.isoText = .ok m.kept := by
  have htext : m.isoText.toList = m.date.isoText.toList ++ 'T' :: m.time.isoText.toList := by
    simp [Moment.isoText]
  have hlen := length_isoText m.date
  have htake : (m.date.isoText.toList ++ 'T' :: m.time.isoText.toList).take 10 =
      m.date.isoText.toList := List.take_left' hlen
  have hdrop : (m.date.isoText.toList ++ 'T' :: m.time.isoText.toList).drop (10 + 1) =
      m.time.isoText.toList := by
    rw [← List.drop_drop, List.drop_left' hlen]; rfl
  have hlong : ¬(m.date.isoText.toList ++ 'T' :: m.time.isoText.toList).length ≤ 10 := by
    rw [List.length_append, hlen, List.length_cons]; omega
  have hoffset : checkOffset (m.time.offset.map fun o => .ok o.kept) =
      .ok (m.time.offset.map Offset.kept) := by cases m.time.offset <;> rfl
  simp only [Moment.ofIso, htext, dateLength_isoText, htake, hdrop, hlong, readDate?_isoText,
    readClock?_isoText, hoffset, Time.toTime_self, if_false, bind, Except.bind]
  rfl

end Clipboard.Calendar
