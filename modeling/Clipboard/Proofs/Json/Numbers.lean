import Mathlib.Data.List.TakeWhile
import Clipboard.Json.Parser

/-!
Where a number ends. It goes on as long as digits follow, or a point or the letter of an exponent with digits
behind it; before everything else the same number is read.
-/

namespace Clipboard.Json

open Decimal (digitsValue readExponent readSign)

/-! ## Digits -/

/-- The text does not begin with a digit. -/
def EndsDigits (more : List Char) : Prop := ∀ c ∈ more.head?, ¬c.isDigit

/-- The text does not go on a number. -/
structure EndsNumber (more : List Char) : Prop where
  digits : EndsDigits more
  point : ∀ c ∈ more.head?, c ≠ '.'
  letter : ∀ c ∈ more.head?, c ≠ 'e' ∧ c ≠ 'E'

theorem endsNumber_cons {c : Char} {cs : List Char}
    (h : ¬c.isDigit ∧ c ≠ '.' ∧ c ≠ 'e' ∧ c ≠ 'E') : EndsNumber (c :: cs) := by
  constructor <;> rintro _ ⟨⟩
  · exact h.1
  · exact h.2.1
  · exact h.2.2

theorem forall_head?_append {p : Char → Prop} {front more : List Char} (hfront : ∀ c ∈ front.head?, p c)
    (hmore : ∀ c ∈ more.head?, p c) : ∀ c ∈ (front ++ more).head?, p c := by
  cases front with
  | nil => exact hmore
  | cons c front => exact hfront

theorem takeWhile_digits {ds more : List Char} (h : ∀ d ∈ ds, d.isDigit) (hmore : EndsDigits more) :
    (ds ++ more).takeWhile Char.isDigit = ds := by
  rw [List.takeWhile_append_of_pos h]
  cases more with
  | nil => simp
  | cons c cs => simp [hmore c rfl]

theorem dropWhile_digits {ds more : List Char} (h : ∀ d ∈ ds, d.isDigit) (hmore : EndsDigits more) :
    (ds ++ more).dropWhile Char.isDigit = more := by
  rw [List.dropWhile_append_of_pos h]
  cases more with
  | nil => simp
  | cons c cs => simp [hmore c rfl]

theorem exists_digits (cs : List Char) :
    cs = cs.takeWhile Char.isDigit ++ cs.dropWhile Char.isDigit ∧
      ∀ d ∈ cs.takeWhile Char.isDigit, d.isDigit :=
  ⟨List.takeWhile_append_dropWhile.symm, fun _ => List.mem_takeWhile_imp⟩

/-! ## Parts that may be missing -/

/-- What `read` gives for the text, a result and the rest, it gives for the front that it took, before
everything that begins neither with a digit nor, if nothing was taken, with a sign of the part. -/
def ReadsPart {α : Type} (isSign : Char → Prop) (read : List Char → α × List Char) (r : α × List Char)
    (cs : List Char) : Prop :=
  ∃ taken, cs = taken ++ r.2 ∧ (∀ c ∈ taken.head?, isSign c) ∧
    ∀ more, EndsDigits more → (taken = [] → ∀ c ∈ more.head?, ¬isSign c) →
      read (taken ++ more) = (r.1, more)

theorem readFraction_of_end {more : List Char} (h : ∀ c ∈ more.head?, c ≠ '.') :
    readFraction more = ([], more) := by
  unfold readFraction
  split
  · exact absurd rfl (h '.' rfl)
  · rfl

theorem readFraction_local (cs : List Char) : ReadsPart (· = '.') readFraction (readFraction cs) cs := by
  have hnone : ReadsPart (· = '.') readFraction ([], cs) cs :=
    ⟨[], rfl, nofun, fun more _ hmore => readFraction_of_end (hmore rfl)⟩
  rw [readFraction.eq_def cs]
  split
  · rename_i c rest
    split
    · rename_i hdigit
      obtain ⟨hrest, hdigits⟩ := exists_digits rest
      refine ⟨'.' :: c :: rest.takeWhile Char.isDigit, by simp, ?_, fun more hmore _ => ?_⟩
      · rintro _ ⟨⟩
        rfl
      · simp [readFraction, hdigit, takeWhile_digits hdigits hmore, dropWhile_digits hdigits hmore]
    · exact hnone
  · exact hnone

theorem readExponent_of_end {more : List Char} (h : ∀ c ∈ more.head?, c ≠ 'e' ∧ c ≠ 'E') :
    readExponent more = (none, more) := by
  cases more with
  | nil => rfl
  | cons c cs =>
      obtain ⟨hsmall, hlarge⟩ := h c rfl
      simp [readExponent, hsmall, hlarge]

theorem readSign_local (cs : List Char) : ∃ sign, cs = sign ++ (readSign cs).2 ∧
    ∀ d more, d.isDigit → readSign (sign ++ d :: more) = ((readSign cs).1, d :: more) := by
  unfold readSign
  split
  · exact ⟨['-'], rfl, fun _ _ _ => rfl⟩
  · exact ⟨['+'], rfl, fun _ _ _ => rfl⟩
  · refine ⟨[], rfl, fun d more hd => ?_⟩
    rw [List.nil_append]
    split
    · rename_i h
      obtain ⟨rfl, -⟩ := List.cons.inj h
      exact absurd hd (by decide)
    · rename_i h
      obtain ⟨rfl, -⟩ := List.cons.inj h
      exact absurd hd (by decide)
    · rfl

/-- Behind the letter come a sign, if there is one, and digits. -/
theorem readExponent_letter {e : Char} (he : e == 'e' || e == 'E') (rest : List Char) :
    readExponent (e :: rest) =
      if ((readSign rest).2.takeWhile Char.isDigit).isEmpty then (none, e :: rest)
      else (some (if (readSign rest).1 then -(digitsValue ((readSign rest).2.takeWhile Char.isDigit) : Int)
        else digitsValue ((readSign rest).2.takeWhile Char.isDigit)),
          (readSign rest).2.dropWhile Char.isDigit) := by
  unfold readExponent readSign
  simp only [he, if_true]
  split <;> rfl

theorem readExponent_local (cs : List Char) :
    ReadsPart (fun c => c = 'e' ∨ c = 'E') readExponent (readExponent cs) cs := by
  have hnone : ReadsPart (fun c => c = 'e' ∨ c = 'E') readExponent (none, cs) cs :=
    ⟨[], rfl, nofun, fun more _ hmore => readExponent_of_end fun c hc => not_or.mp (hmore rfl c hc)⟩
  cases cs with
  | nil => exact hnone
  | cons e rest =>
      by_cases he : e == 'e' || e == 'E'
      · obtain ⟨sign, hrest, hsign⟩ := readSign_local rest
        obtain ⟨hds, hdigits⟩ := exists_digits (readSign rest).2
        have htext := hrest.trans (congrArg (sign ++ ·) hds)
        rw [readExponent_letter he]
        generalize (readSign rest).2.takeWhile Char.isDigit = digits at *
        generalize (readSign rest).2.dropWhile Char.isDigit = after at *
        cases digits with
        | nil => exact hnone
        | cons d digits =>
            refine ⟨e :: (sign ++ d :: digits), by simp [htext], ?_, fun more hmore _ => ?_⟩
            · rintro _ ⟨⟩
              simpa using he
            · have hread := hsign d (digits ++ more) (hdigits d List.mem_cons_self)
              rw [← List.cons_append] at hread
              rw [List.cons_append, List.append_assoc, readExponent_letter he, hread,
                takeWhile_digits hdigits hmore, dropWhile_digits hdigits hmore]
              rfl
      · simpa [readExponent, he] using hnone

/-! ## Whole numbers and numbers with a point -/

/-- The digits in front of the point; nothing follows a zero. -/
def wholeDigits (cs : List Char) : List Char :=
  match cs with
  | '0' :: _ => ['0']
  | _ => cs.takeWhile Char.isDigit

theorem wholeDigits_local (cs : List Char) : ∃ rest, cs = wholeDigits cs ++ rest ∧
    (∀ d ∈ wholeDigits cs, d.isDigit) ∧ ∀ more, wholeDigits cs ≠ [] → EndsDigits more →
      wholeDigits (wholeDigits cs ++ more) = wholeDigits cs := by
  unfold wholeDigits
  split
  · exact ⟨_, rfl, List.forall_mem_singleton.mpr rfl, fun _ _ _ => rfl⟩
  · rename_i hzero
    obtain ⟨hcs, hdigits⟩ := exists_digits cs
    refine ⟨_, hcs, hdigits, fun more hne hmore => ?_⟩
    split
    · rename_i tail htail
      cases hwhole : cs.takeWhile Char.isDigit with
      | nil => exact absurd hwhole hne
      | cons d ds =>
          rw [hwhole] at hcs htail
          obtain ⟨rfl, -⟩ := List.cons.inj htail
          exact absurd hcs (hzero _)
    · exact takeWhile_digits hdigits hmore

/-- The number with these digits before and behind the point and this exponent. -/
def numberOf (negative : Bool) (whole fraction : List Char) (exponent : Option Int) : Except Fault Json :=
  if whole.isEmpty then .error .noValue
  else if fraction.isEmpty && exponent.isNone then
    if Decimal.maxDigits < whole.length then .error (.longNumber whole.length)
    else .ok (int (if negative then -(digitsValue whole : Int) else digitsValue whole))
  else
    .ok (real (if negative
      then -Decimal.realOf (digitsValue (whole ++ fraction)) (exponent.getD 0 - fraction.length)
      else Decimal.realOf (digitsValue (whole ++ fraction)) (exponent.getD 0 - fraction.length)))

/-- A number is read part by part. -/
theorem readNumber_eq (start : List Char) (negative : Bool) (cs : List Char) :
    readNumber start negative cs =
      match numberOf negative (wholeDigits cs) (readFraction (cs.drop (wholeDigits cs).length)).1
          (readExponent (readFraction (cs.drop (wholeDigits cs).length)).2).1 with
      | .ok v => .ok (v, (readExponent (readFraction (cs.drop (wholeDigits cs).length)).2).2)
      | .error f => failAt f start := by
  unfold readNumber numberOf
  extract_lets whole
  rw [show wholeDigits cs = whole from rfl]
  clear_value whole
  dsimp only
  split
  · rfl
  · split
    · split <;> rfl
    · rfl

theorem readNumber_local {start cs rest : List Char} {negative : Bool} {v : Json}
    (h : readNumber start negative cs = .ok (v, rest)) :
    ∃ d ds, d.isDigit ∧ cs = d :: ds ++ rest ∧ ∀ start' more, EndsNumber more →
      readNumber start' negative (d :: ds ++ more) = .ok (v, more) := by
  obtain ⟨tail, hcs, hdigits, hwhole⟩ := wholeDigits_local cs
  have htail : cs.drop (wholeDigits cs).length = tail := by
    generalize wholeDigits cs = whole at hcs
    rw [hcs, List.drop_left]
  rw [readNumber_eq, htail] at h
  obtain ⟨fraction, hfraction, hpoint, hreadFraction⟩ := readFraction_local tail
  obtain ⟨exponent, hexponent, hletter, hreadExponent⟩ := readExponent_local (readFraction tail).2
  split at h
  · rename_i hnumber
    cases h
    have hne : wholeDigits cs ≠ [] := by
      intro hnil
      rw [hnil] at hnumber
      cases hnumber
    have hread (start' more : List Char) (hmore : EndsNumber more) :
        readNumber start' negative (wholeDigits cs ++ (fraction ++ (exponent ++ more))) = .ok (v, more) := by
      have hback : ∀ c ∈ (exponent ++ more).head?, ¬c.isDigit ∧ c ≠ '.' := by
        refine forall_head?_append (fun c hc => ?_) fun c hc => ⟨hmore.digits c hc, hmore.point c hc⟩
        rcases hletter c hc with rfl | rfl <;> decide
      have hends : EndsDigits (fraction ++ (exponent ++ more)) := by
        refine forall_head?_append (fun c hc => ?_) fun c hc => (hback c hc).1
        cases hpoint c hc
        decide
      rw [readNumber_eq, hwhole _ hne hends, List.drop_left,
        hreadFraction _ (fun c hc => (hback c hc).1) fun _ c hc => (hback c hc).2]
      dsimp only
      rw [hreadExponent _ hmore.digits fun _ c hc => not_or.mpr (hmore.letter c hc)]
      dsimp only
      rw [hnumber]
    generalize wholeDigits cs = whole at *
    cases whole with
    | nil => exact absurd rfl hne
    | cons d whole =>
        have htext := hcs.trans (congrArg (d :: whole ++ ·)
          (hfraction.trans (congrArg (fraction ++ ·) hexponent)))
        refine ⟨d, whole ++ (fraction ++ exponent), hdigits d List.mem_cons_self, by simpa using htext, ?_⟩
        intro start' more hmore
        simpa using hread start' more hmore
  · cases h

end Clipboard.Json
