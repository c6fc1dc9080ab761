import Clipboard.Calendar.Moment
import Clipboard.Proofs.Calendar.Days

/-!
Times and moments compared. Two of them can be compared if both have an offset or neither has one.
Without offsets the earlier day comes first, and on one day the earlier time.
-/

namespace Clipboard.Calendar

open Fallible (Succeeds)

/-! ## Times -/

namespace Time

variable {a b : Time}

theorem before_succeeds_iff : Succeeds (a.before b) ↔ a.offset.isSome = b.offset.isSome := by
  simp [before]

theorem upTo_succeeds_iff : Succeeds (a.upTo b) ↔ a.offset.isSome = b.offset.isSome := by
  simp [upTo]

theorem micros_lt (t : Time) : t.micros < 86400000000 := by
  have hrange := t.range
  unfold micros
  omega

theorem universal_eq (h : a.offset = none) : a.universal = a.micros := by
  simp [universal, h]

theorem before_eq (ha : a.offset = none) (hb : b.offset = none) :
    a.before b = .ok (a.micros < b.micros) := by
  simp [before, universal_eq, ha, hb]

theorem upTo_eq (ha : a.offset = none) (hb : b.offset = none) :
    a.upTo b = .ok (a.micros ≤ b.micros) := by
  simp [upTo, universal_eq, ha, hb]

theorem upTo_bare (ha : a.offset = none) (t : Time) : a.upTo t.bare = .ok (a.micros ≤ t.micros) :=
  upTo_eq ha rfl

theorem bare_upTo (ha : a.offset = none) (t : Time) : t.bare.upTo a = .ok (t.micros ≤ a.micros) :=
  upTo_eq rfl ha

end Time

/-! ## Moments -/

namespace Moment

variable {a b m : Moment}

theorem upTo_succeeds_iff : Succeeds (a.upTo b) ↔ a.offset.isSome = b.offset.isSome := by
  simp [upTo]

theorem universal_eq (h : m.offset = none) :
    m.universal = m.date.dayNumber * 86400000000 + m.time.micros := by
  simp [universal, h]

theorem universal_le_iff (ha : a.offset = none) (hb : b.offset = none) :
    a.universal ≤ b.universal ↔
      a.date < b.date ∨ a.date = b.date ∧ a.time.micros ≤ b.time.micros := by
  have halt := a.time.micros_lt
  have hblt := b.time.micros_lt
  rw [universal_eq ha, universal_eq hb, Date.lt_iff, ← Date.dayNumber_inj]
  omega

theorem upTo_eq (ha : a.offset = none) (hb : b.offset = none) :
    a.upTo b = .ok (a.date < b.date ∨ a.date = b.date ∧ a.time.micros ≤ b.time.micros) := by
  simp [upTo, ha, hb, universal_le_iff]

/-- A day begins at midnight. -/
theorem midnight_upTo (d : Date) (hm : m.offset = none) :
    (Moment.mk d .midnight).upTo m = .ok (d ≤ m.date) := by
  have hzero : Time.midnight.micros = 0 := rfl
  rw [upTo_eq rfl hm, Except.ok.injEq, decide_eq_decide, Date.lt_iff, Date.le_iff,
    ← Date.dayNumber_inj]
  dsimp only
  omega

/-- A day ends with its last microsecond. -/
theorem upTo_endOfDay (d : Date) (hm : m.offset = none) :
    m.upTo ⟨d, .endOfDay⟩ = .ok (m.date ≤ d) := by
  have hlast : Time.endOfDay.micros = 86399999999 := rfl
  have hlt := m.time.micros_lt
  rw [upTo_eq hm rfl, Except.ok.injEq, decide_eq_decide, Date.lt_iff, Date.le_iff,
    ← Date.dayNumber_inj]
  dsimp only
  omega

end Moment

end Clipboard.Calendar
