import Mathlib.Data.List.Basic
import Mathlib.Data.List.Induction
import Clipboard.Program.Evidence
import Clipboard.Proofs.Decimal.Rank

/-!
The language with the most evidence. Whatever the scores, the one that is told has the highest of them, is the
earliest with that score, and reaches the least that counts; none is told exactly if no score reaches that.
-/

namespace Clipboard.Language

open Decimal (rankOf lt_iff_rankOf le_iff_rankOf beq_iff_rankOf not_isNaN_of_le)

theorem mem_all (l : Language) : l ∈ all := by cases l <;> decide

/-! ## The best so far -/

/-- The highest score so far and the language that has it. -/
def leader (zero : Float) (score : Language → Float) (ls : List Language) : Float × Option Language :=
  ls.foldl (fun best l => if best.1 < score l then (score l, some l) else best) (zero, none)

/-- The language is the first of the list with the highest rank. -/
def Leads {β : Type} [LinearOrder β] (r : Language → β) (l : Language) (ls : List Language) : Prop :=
  ∃ front back, ls = front ++ l :: back ∧ (∀ m ∈ front, r m < r l) ∧ ∀ m ∈ back, r m ≤ r l

section

variable {β : Type} [LinearOrder β] {r : Language → β} {l m : Language} {ls : List Language}

theorem Leads.le (h : Leads r l ls) : ∀ m ∈ ls, r m ≤ r l := by
  obtain ⟨front, back, rfl, hfront, hback⟩ := h
  rw [List.forall_mem_append, List.forall_mem_cons]
  exact ⟨fun m hm => (hfront m hm).le, le_rfl, hback⟩

/-- A language behind the others leads if it is above all of them. -/
theorem Leads.concat_of_lt (h : ∀ m ∈ ls, r m < r l) : Leads r l (ls ++ [l]) :=
  ⟨ls, [], rfl, h, List.forall_mem_nil _⟩

theorem Leads.concat_of_le (h : Leads r l ls) (hm : r m ≤ r l) : Leads r l (ls ++ [m]) := by
  obtain ⟨front, back, rfl, hfront, hback⟩ := h
  refine ⟨front, back ++ [m], by simp, hfront, ?_⟩
  exact List.forall_mem_append.mpr ⟨hback, List.forall_mem_singleton.mpr hm⟩

theorem leads_iff (hmem : l ∈ ls) :
    Leads r l ls ↔ (∀ m ∈ ls, r m ≤ r l) ∧ ∀ m ∈ ls, ls.idxOf m < ls.idxOf l → r m ≠ r l := by
  constructor
  · intro h
    refine ⟨h.le, fun m hm hidx heq => ?_⟩
    obtain ⟨front, back, rfl, hfront, hback⟩ := h
    have hl : l ∉ front := fun hl => (hfront l hl).false
    rw [List.idxOf_append_of_notMem hl, List.idxOf_cons_self] at hidx
    by_cases hm : m ∈ front
    · exact (hfront m hm).ne heq
    · rw [List.idxOf_append_of_notMem hm] at hidx
      omega
  · rintro ⟨hle, hne⟩
    obtain ⟨front, back, rfl, hl⟩ := List.eq_append_cons_of_mem hmem
    rw [List.forall_mem_append, List.forall_mem_cons] at hle
    refine ⟨front, back, rfl, fun m hm => lt_of_le_of_ne (hle.1 m hm) (hne m (by simp [hm]) ?_), hle.2.2⟩
    rw [List.idxOf_append_of_mem hm, List.idxOf_append_of_notMem hl, List.idxOf_cons_self]
    exact Nat.lt_of_lt_of_le (List.idxOf_lt_length_of_mem hm) (Nat.le_add_right _ _)

/-- Of two languages that lead neither stands before the other. -/
theorem Leads.unique (hl : Leads r l ls) (hm : Leads r m ls) (hlmem : l ∈ ls) (hmmem : m ∈ ls) : l = m := by
  have heq : r l = r m := le_antisymm (hm.le l hlmem) (hl.le m hmmem)
  rcases Nat.lt_trichotomy (ls.idxOf l) (ls.idxOf m) with h | h | h
  · exact absurd heq (((leads_iff hmmem).mp hm).2 l hlmem h)
  · exact (List.idxOf_inj hlmem).mp h
  · exact absurd heq.symm (((leads_iff hlmem).mp hl).2 m hmmem h)

end

section

variable {zero least : Float} {score : Language → Float} (hzero : ¬zero.isNaN) (hscore : ∀ l, ¬(score l).isNaN)
include hzero hscore

/-- None leads while no score is above zero; then the first of those with the highest score does. -/
theorem leader_cases (ls : List Language) :
    leader zero score ls = (zero, none) ∧ (∀ m ∈ ls, rankOf (score m) ≤ rankOf zero) ∨
      ∃ l, leader zero score ls = (score l, some l) ∧ rankOf zero < rankOf (score l) ∧
        Leads (fun m => rankOf (score m)) l ls := by
  induction ls using List.reverseRecOn with
  | nil => exact .inl ⟨rfl, List.forall_mem_nil _⟩
  | append_singleton ls m ih =>
      have hstep : leader zero score (ls ++ [m]) = if (leader zero score ls).1 < score m then (score m, some m)
          else leader zero score ls := List.foldl_concat ..
      rw [hstep]
      rcases ih with ⟨hleader, hle⟩ | ⟨l, hleader, hpos, hleads⟩
      · rw [hleader]
        by_cases hm : zero < score m
        · have hlt := (lt_iff_rankOf hzero (hscore m)).mp hm
          rw [if_pos hm]
          exact .inr ⟨m, rfl, hlt, .concat_of_lt fun n hn => (hle n hn).trans_lt hlt⟩
        · rw [if_neg hm]
          rw [lt_iff_rankOf hzero (hscore m), not_lt] at hm
          exact .inl ⟨rfl, List.forall_mem_append.mpr ⟨hle, List.forall_mem_singleton.mpr hm⟩⟩
      · rw [hleader]
        by_cases hm : score l < score m
        · have hlt := (lt_iff_rankOf (hscore l) (hscore m)).mp hm
          rw [if_pos hm]
          exact .inr ⟨m, rfl, hpos.trans hlt, .concat_of_lt fun n hn => (hleads.le n hn).trans_lt hlt⟩
        · rw [if_neg hm]
          rw [lt_iff_rankOf (hscore l) (hscore m), not_lt] at hm
          exact .inr ⟨l, rfl, hpos, hleads.concat_of_le hm⟩

/-- A score that is enough is above zero, so that the language that leads is told. -/
theorem best?_cases (hleast : zero < least) :
    best? zero score least = none ∧ (∀ l, score l < least) ∨
      ∃ l, best? zero score least = some l ∧ least ≤ score l ∧ Leads (fun m => rankOf (score m)) l all := by
  have hbest : best? zero score least =
      if least ≤ (leader zero score all).1 then (leader zero score all).2 else none := rfl
  have hnum := (Decimal.not_isNaN_of_lt hleast).2
  have hless := (lt_iff_rankOf hzero hnum).mp hleast
  rw [hbest]
  rcases leader_cases hzero hscore all with ⟨hleader, hle⟩ | ⟨l, hleader, hpos, hleads⟩
  · refine .inl ⟨by rw [hleader]; exact ite_self _, fun l => ?_⟩
    exact (lt_iff_rankOf (hscore l) hnum).mpr ((hle l (mem_all l)).trans_lt hless)
  · rw [hleader]
    by_cases hl : least ≤ score l
    · rw [if_pos hl]
      exact .inr ⟨l, rfl, hl, hleads⟩
    · rw [if_neg hl]
      rw [le_iff_rankOf hnum (hscore l), not_le] at hl
      refine .inl ⟨rfl, fun m => (lt_iff_rankOf (hscore m) hnum).mpr ?_⟩
      exact (hleads.le m (mem_all m)).trans_lt hl

end

/-- For scores between 0 and 1 and a least score above 0: a language is told exactly if its score reaches the
least, no language scores higher and none before it scores the same, and none is told exactly if all scores are
below the least. -/
theorem best?_eq_iff {score : Language → Float} {least : Float}
    (hscore : ∀ l, 0.0 ≤ score l ∧ score l ≤ 1.0) (hleast : 0.0 < least) :
    (∀ l, best? 0.0 score least = some l ↔
      least ≤ score l ∧ (∀ m, ¬score l < score m) ∧ ∀ m, all.idxOf m < all.idxOf l → ¬score m == score l) ∧
      (best? 0.0 score least = none ↔ ∀ l, score l < least) := by
  have hnum (l : Language) : ¬(score l).isNaN := (not_isNaN_of_le (hscore l).1).2
  have hzero := (Decimal.not_isNaN_of_lt hleast).1
  have hleads (l : Language) : Leads (fun m => rankOf (score m)) l all ↔
      (∀ m, ¬score l < score m) ∧ ∀ m, all.idxOf m < all.idxOf l → ¬score m == score l := by
    simp only [leads_iff (mem_all l), lt_iff_rankOf (hnum l) (hnum _), beq_iff_rankOf (hnum _) (hnum l), not_lt,
      mem_all, forall_const]
  simp only [← hleads]
  rcases best?_cases hzero hnum hleast with ⟨hbest, hless⟩ | ⟨l, hbest, hle, hleads⟩
  · rw [hbest]
    refine ⟨fun l => iff_of_false nofun fun h => Decimal.not_lt_of_le h.1 (hless l), iff_of_true rfl hless⟩
  · rw [hbest]
    refine ⟨fun m => ⟨?_, fun h => ?_⟩, iff_of_false nofun fun h => Decimal.not_lt_of_le hle (h l)⟩
    · rintro ⟨⟩
      exact ⟨hle, hleads⟩
    · rw [hleads.unique h.2 (mem_all l) (mem_all m)]

/-- A script that names one interpreter and is written for another has as much evidence for both languages; the
one that is tried first is told. -/
theorem best?_eq_iff_script :
    let score := Program.detector.score "#!/usr/bin/php\nimport x".toList
    (∀ l, 0.0 ≤ score l ∧ score l ≤ 1.0) ∧ (0.0 : Float) < 0.3 ∧ score php == score python ∧
      best? 0.0 score 0.3 = some python := by
  intro score
  have hscore := Program.detector.bounds "#!/usr/bin/php\nimport x".toList
  have hleast : (0.0 : Float) < 0.3 := by decide +kernel
  refine ⟨hscore, hleast, by decide +kernel, ?_⟩
  refine ((best?_eq_iff hscore hleast).1 python).mpr ⟨by decide +kernel, ?_, ?_⟩
  · intro m
    cases m <;> decide +kernel
  · intro m hm
    exact absurd hm (Nat.not_lt_zero _)

end Clipboard.Language
