import Clipboard.Proofs.Json.Numbers
import Clipboard.Proofs.Json.Texts

/-!
What follows a value has no part in it. Whoever has read a value from the front of a text reads the same one
from that front whatever comes behind it, as long as that does not go on a number.
-/

namespace Clipboard.Json

open Fallible
open Text (CodePoint)

/-! ## Lists and objects -/

/-- What is read does not begin with a gap, and before all that does not go on a number it is read the
same. -/
def IsLocal (value : Reader Json) : Prop :=
  ∀ {cs v rest}, value cs = .ok (v, rest) → ∃ c taken, ¬isGap c ∧ cs = c :: taken ++ rest ∧
    ∀ more, EndsNumber more → value (c :: taken ++ more) = .ok (v, more)

theorem exists_gaps (cs : List Char) : ∃ gaps, cs = gaps ++ skipGaps cs ∧ ∀ c ∈ gaps, isGap c :=
  ⟨cs.takeWhile isGap, List.takeWhile_append_dropWhile.symm, fun _ => List.mem_takeWhile_imp⟩

theorem skipGaps_append {gaps : List Char} (h : ∀ c ∈ gaps, isGap c) {c : Char} (hc : ¬isGap c)
    (cs : List Char) : skipGaps (gaps ++ c :: cs) = c :: cs := by
  rw [skipGaps, List.dropWhile_append_of_pos h, List.dropWhile_cons_of_neg hc]

/-- Gaps before a sign end a number, and the reader goes on behind the sign. -/
theorem exists_gaps_sign {cs rest : List Char} {c : Char} (h : skipGaps cs = c :: rest)
    (hc : ¬c.isDigit ∧ c ≠ '.' ∧ c ≠ 'e' ∧ c ≠ 'E') :
    ∃ gaps, cs = gaps ++ c :: rest ∧ ∀ more, skipGaps (gaps ++ c :: more) = c :: more ∧
      EndsNumber (gaps ++ c :: more) := by
  obtain ⟨gaps, hcs, hgaps⟩ := exists_gaps cs
  have hsign : ¬isGap c := by
    have hhead := List.head?_dropWhile_not isGap cs
    rw [← skipGaps, h] at hhead
    simpa using hhead
  refine ⟨gaps, by rw [← h]; exact hcs, fun more => ⟨skipGaps_append hgaps hsign more, ?_⟩⟩
  cases gaps with
  | nil => exact endsNumber_cons hc
  | cons g gaps =>
      refine endsNumber_cons ?_
      have hgap := hgaps g List.mem_cons_self
      simp only [isGap, Bool.or_eq_true, beq_iff_eq] at hgap
      rcases hgap with ((rfl | rfl) | rfl) | rfl <;> decide

section

variable {value : Reader Json} (fuel : Nat) (acc : List Json) {cs afterValue rest : List Char} {v : Json}
  (hvalue : value cs = .ok (v, afterValue))
include hvalue

theorem readItems_close (hclose : skipGaps afterValue = ']' :: rest) :
    readItems value (fuel + 1) acc cs = .ok ((v :: acc).reverse, rest) := by
  rw [readItems, hvalue]
  simp only [bind, Except.bind, hclose]
  rfl

theorem readItems_comma (hcomma : skipGaps afterValue = ',' :: rest) :
    readItems value (fuel + 1) acc cs = readItems value fuel (v :: acc) (skipGaps rest) := by
  rw [readItems, hvalue]
  simp only [bind, Except.bind, hcomma]

end

section

variable {value : Reader Json} (fuel : Nat) (acc : List (String × Json))
  {cs afterKey afterColon afterValue rest : List Char} {ps : List CodePoint} {v : Json}
  (hkey : readText cs = .ok (ps, afterKey)) (hcolon : skipGaps afterKey = ':' :: afterColon)
  (hvalue : value (skipGaps afterColon) = .ok (v, afterValue))
include hkey hcolon hvalue

theorem readFields_close (hclose : skipGaps afterValue = '\x7d' :: rest) :
    readFields value (fuel + 1) acc ('"' :: cs) =
      .ok (setField (.ofList (CodePoint.shownChars ps)) v acc, rest) := by
  rw [readFields, hkey]
  simp only [bind, Except.bind, hcolon, hvalue, hclose]
  rfl

theorem readFields_comma (hcomma : skipGaps afterValue = ',' :: rest) :
    readFields value (fuel + 1) acc ('"' :: cs) =
      readFields value fuel (setField (.ofList (CodePoint.shownChars ps)) v acc) (skipGaps rest) := by
  rw [readFields, hkey]
  simp only [bind, Except.bind, hcolon, hvalue, hcomma]

end

section

variable {value : Reader Json} (hvalue : IsLocal value)
include hvalue

theorem IsLocal.items {fuel : Nat} {acc xs : List Json} {cs rest : List Char}
    (h : readItems value fuel acc cs = .ok (xs, rest)) :
    ∃ c taken, ¬isGap c ∧ cs = c :: taken ++ rest ∧ ∀ fuel' more, taken.length < fuel' →
      readItems value fuel' acc (c :: taken ++ more) = .ok (xs, more) := by
  induction fuel generalizing acc cs with
  | zero => cases h
  | succ fuel ih =>
      obtain ⟨⟨v, after⟩, hv, hbehind⟩ := bind_eq_ok_iff.mp h
      obtain ⟨c, taken, hc, rfl, htaken⟩ := hvalue hv
      dsimp only at hbehind
      split at hbehind
      · rename_i tail hclose
        cases hbehind
        obtain ⟨gaps, rfl, hgaps⟩ := exists_gaps_sign hclose (by decide)
        refine ⟨c, taken ++ gaps ++ [']'], hc, by simp, fun fuel' more hfuel => ?_⟩
        obtain ⟨fuel', rfl⟩ := Nat.exists_eq_add_of_le' (Nat.succ_le_of_lt (Nat.zero_lt_of_lt hfuel))
        rw [show c :: (taken ++ gaps ++ [']']) ++ more = c :: taken ++ (gaps ++ ']' :: more) by simp]
        exact readItems_close fuel' acc (htaken _ (hgaps more).2) (hgaps more).1
      · rename_i tail hcomma
        obtain ⟨gaps, rfl, hgaps⟩ := exists_gaps_sign hcomma (by decide)
        obtain ⟨gaps', htail, hgaps'⟩ := exists_gaps tail
        obtain ⟨d, taken', hd, hnext, htaken'⟩ := ih hbehind
        rw [hnext] at htail
        refine ⟨c, taken ++ gaps ++ ',' :: (gaps' ++ d :: taken'), hc, by simp [htail],
          fun fuel' more hfuel => ?_⟩
        obtain ⟨fuel', rfl⟩ := Nat.exists_eq_add_of_le' (Nat.succ_le_of_lt (Nat.zero_lt_of_lt hfuel))
        rw [show c :: (taken ++ gaps ++ ',' :: (gaps' ++ d :: taken')) ++ more =
            c :: taken ++ (gaps ++ ',' :: (gaps' ++ d :: (taken' ++ more))) by simp,
          readItems_comma fuel' acc (htaken _ (hgaps _).2) (hgaps _).1, skipGaps_append hgaps' hd]
        refine htaken' fuel' more ?_
        simp only [List.length_append, List.length_cons] at hfuel
        omega
      · cases hbehind

theorem IsLocal.fields {fuel : Nat} {acc fields : List (String × Json)} {cs rest : List Char}
    (h : readFields value fuel acc cs = .ok (fields, rest)) :
    ∃ taken, cs = '"' :: (taken ++ '\x7d' :: rest) ∧ ∀ fuel' more, taken.length < fuel' →
      readFields value fuel' acc ('"' :: (taken ++ '\x7d' :: more)) = .ok (fields, more) := by
  induction fuel generalizing acc cs with
  | zero => cases h
  | succ fuel ih =>
      unfold readFields at h
      split at h
      · rename_i key
        obtain ⟨⟨ps, afterKey⟩, hkey, hbehind⟩ := bind_eq_ok_iff.mp h
        obtain ⟨name, rfl, hname⟩ := readText_local hkey
        dsimp only at hbehind
        split at hbehind
        · rename_i afterColon hcolon
          obtain ⟨gaps, rfl, hgaps⟩ := exists_gaps_sign hcolon (by decide)
          obtain ⟨gaps', hafter, hgaps'⟩ := exists_gaps afterColon
          obtain ⟨⟨v, afterValue⟩, hv, hend⟩ := bind_eq_ok_iff.mp hbehind
          obtain ⟨c, taken, hc, hnext, htaken⟩ := hvalue hv
          rw [hnext] at hafter
          have hread (more : List Char) (hmore : EndsNumber more) :
              value (skipGaps (gaps' ++ c :: (taken ++ more))) = .ok (v, more) := by
            rw [skipGaps_append hgaps' hc]
            exact htaken more hmore
          dsimp only at hend
          split at hend
          · rename_i tail hclose
            cases hend
            obtain ⟨last, rfl, hlast⟩ := exists_gaps_sign hclose (by decide)
            refine ⟨name ++ gaps ++ ':' :: (gaps' ++ c :: (taken ++ last)), by simp [hafter],
              fun fuel' more hfuel => ?_⟩
            obtain ⟨fuel', rfl⟩ :=
              Nat.exists_eq_add_of_le' (Nat.succ_le_of_lt (Nat.zero_lt_of_lt hfuel))
            simpa using readFields_close fuel' acc (hname _) (hgaps _).1 (hread _ (hlast more).2)
              (hlast more).1
          · rename_i tail hcomma
            obtain ⟨last, rfl, hlast⟩ := exists_gaps_sign hcomma (by decide)
            obtain ⟨front, htail, hfront⟩ := exists_gaps tail
            obtain ⟨taken', hnext', htaken'⟩ := ih hend
            rw [hnext'] at htail
            refine ⟨name ++ gaps ++ ':' :: (gaps' ++ c ::
              (taken ++ last ++ ',' :: (front ++ '"' :: taken'))), by simp [hafter, htail],
              fun fuel' more hfuel => ?_⟩
            obtain ⟨fuel', rfl⟩ :=
              Nat.exists_eq_add_of_le' (Nat.succ_le_of_lt (Nat.zero_lt_of_lt hfuel))
            have hstep := readFields_comma fuel' acc (hname _) (hgaps _).1
              (hread (last ++ ',' :: (front ++ '"' :: (taken' ++ '\x7d' :: more))) (hlast _).2)
              (hlast _).1
            have hmore := htaken' fuel' more (by
              simp only [List.length_append, List.length_cons] at hfuel
              omega)
            rw [skipGaps_append hfront (show ¬isGap '"' by decide), hmore] at hstep
            simpa using hstep
          · cases hend
        · cases hbehind
      · cases h

end

/-! ## Values -/

theorem readValue_quote (depth : Nat) (cs : List Char) :
    readValue depth ('"' :: cs) = readText cs >>= fun r => .ok (ofPoints r.1, r.2) := by
  cases depth <;> rfl

section

variable {depth : Nat} {gaps : List Char} {c : Char} (hgaps : ∀ g ∈ gaps, isGap g) (hc : ¬isGap c)
include hgaps hc

theorem readValue_items (hopen : c ≠ ']') (cs : List Char) :
    readValue (depth + 1) ('[' :: (gaps ++ c :: cs)) =
      (readItems (readValue depth) (cs.length + 2) [] (c :: cs)).map fun r => (list r.1, r.2) := by
  simp only [readValue, skipGaps_append hgaps hc]
  split
  · rename_i h
    exact absurd (List.cons.inj h).1 hopen
  · rw [List.length_cons]
    cases readItems (readValue depth) (cs.length + 2) [] (c :: cs) <;> rfl

theorem readValue_fields (hopen : c ≠ '\x7d') (cs : List Char) :
    readValue (depth + 1) ('\x7b' :: (gaps ++ c :: cs)) =
      (readFields (readValue depth) (cs.length + 2) [] (c :: cs)).map fun r => (object r.1, r.2) := by
  simp only [readValue, skipGaps_append hgaps hc]
  split
  · rename_i h
    exact absurd (List.cons.inj h).1 hopen
  · rw [List.length_cons]
    cases readFields (readValue depth) (cs.length + 2) [] (c :: cs) <;> rfl

end

section

variable {depth : Nat} (hparts : IsLocal (readValue depth)) {cs rest : List Char} {v : Json}
include hparts

theorem readValue_list (h : readValue (depth + 1) ('[' :: cs) = .ok (v, rest)) :
    ∃ taken, cs = taken ++ rest ∧ ∀ more,
      readValue (depth + 1) ('[' :: (taken ++ more)) = .ok (v, more) := by
  obtain ⟨gaps, hcs, hgaps⟩ := exists_gaps cs
  simp only [readValue] at h
  split at h
  · rename_i tail hclose
    cases h
    rw [hclose] at hcs
    refine ⟨gaps ++ [']'], by simpa using hcs, fun more => ?_⟩
    simp only [readValue, List.append_assoc, List.cons_append, List.nil_append,
      skipGaps_append hgaps (show ¬isGap ']' by decide)]
  · rename_i hopen
    obtain ⟨⟨xs, tail⟩, hread, hv⟩ := bind_eq_ok_iff.mp h
    cases hv
    obtain ⟨c, taken, hc, hnext, htaken⟩ := hparts.items hread
    rw [hnext] at hcs
    refine ⟨gaps ++ c :: taken, by simpa using hcs, fun more => ?_⟩
    have hmore := htaken ((taken ++ more).length + 2) more (by simp; omega)
    rw [List.cons_append] at hmore
    rw [List.append_assoc, List.cons_append, readValue_items hgaps hc, hmore]
    · rfl
    · rintro rfl
      exact hopen _ hnext

/-- Where an object ends is told by its own text. -/
theorem readValue_object (h : readValue (depth + 1) ('\x7b' :: cs) = .ok (v, rest)) :
    ∃ taken, cs = taken ++ '\x7d' :: rest ∧ ∀ more,
      readValue (depth + 1) ('\x7b' :: (taken ++ '\x7d' :: more)) = .ok (v, more) := by
  obtain ⟨gaps, hcs, hgaps⟩ := exists_gaps cs
  simp only [readValue] at h
  split at h
  · rename_i tail hclose
    cases h
    rw [hclose] at hcs
    refine ⟨gaps, hcs, fun more => ?_⟩
    simp only [readValue, skipGaps_append hgaps (show ¬isGap '\x7d' by decide)]
  · obtain ⟨⟨fields, tail⟩, hread, hv⟩ := bind_eq_ok_iff.mp h
    cases hv
    obtain ⟨taken, hnext, htaken⟩ := hparts.fields hread
    rw [hnext] at hcs
    refine ⟨gaps ++ '"' :: taken, by simpa using hcs, fun more => ?_⟩
    have hmore := htaken ((taken ++ '\x7d' :: more).length + 2) more (by simp; omega)
    rw [List.append_assoc, List.cons_append, readValue_fields hgaps (by decide) (by decide), hmore]
    rfl

end

/-- What begins as no text, list or object is a word or a number. -/
theorem readValue_plain (depth : Nat) {c : Char} (hquote : c ≠ '"') (hbracket : c ≠ '[')
    (hbrace : c ≠ '\x7b') (cs : List Char) : readValue depth (c :: cs) =
      match words.findSome? fun (word, v) => (after? word (c :: cs)).map (v, ·) with
      | some r => .ok r
      | none => if c == '-' then readNumber (c :: cs) true cs else readNumber (c :: cs) false (c :: cs) := by
  unfold readValue
  split
  · rename_i h
    cases h
  · rename_i h
    exact absurd (List.cons.inj h).1 hquote
  · rename_i h
    exact absurd (List.cons.inj h).1 hbracket
  · rename_i h
    exact absurd (List.cons.inj h).1 hbrace
  · rename_i h
    cases h
    rfl

theorem readValue_word (depth : Nat) {w : String × Json} (hw : w ∈ words) (more : List Char) :
    readValue depth (w.1.toList ++ more) = .ok (w.2, more) := by
  simp only [words, List.mem_cons, List.not_mem_nil, or_false] at hw
  rcases hw with rfl | rfl | rfl | rfl | rfl | rfl <;> cases depth <;> rfl

theorem exists_word {cs : List Char} {r : Json × List Char}
    (h : (words.findSome? fun (word, v) => (after? word cs).map (v, ·)) = some r) :
    ∃ w ∈ words, r.1 = w.2 ∧ cs = w.1.toList ++ r.2 := by
  obtain ⟨⟨word, v⟩, hw, hfound⟩ := List.exists_of_findSome?_eq_some h
  obtain ⟨rest, hrest, rfl⟩ := Option.map_eq_some_iff.mp hfound
  refine ⟨_, hw, rfl, ?_⟩
  unfold after? at hrest
  split at hrest
  · rename_i hbegins
    cases hrest
    obtain ⟨tail, rfl⟩ := List.isPrefixOf_iff_prefix.mp hbegins
    simp [← String.length_toList]
  · cases hrest

/-- No word begins as a number does. -/
theorem begin_of_mem_words {w : String × Json} (hw : w ∈ words) :
    ∃ c d cs, w.1.toList = c :: d :: cs ∧ ¬isGap c ∧ ¬c.isDigit ∧ ¬d.isDigit := by
  simp only [words, List.mem_cons, List.not_mem_nil, or_false] at hw
  rcases hw with rfl | rfl | rfl | rfl | rfl | rfl <;>
    exact ⟨_, _, _, rfl, by decide, by decide, by decide⟩

theorem no_word {cs : List Char} (h : ∀ w ∈ words, ¬w.1.toList <+: cs) :
    (words.findSome? fun (word, v) => (after? word cs).map (v, ·)) = none := by
  refine List.findSome?_eq_none_iff.mpr fun w hw => ?_
  have hno : ¬w.1.toList.isPrefixOf cs := mt List.isPrefixOf_iff_prefix.mp (h w hw)
  simp [after?, hno]

/-- A number is read as one, with or without a sign. -/
theorem readValue_digit (depth : Nat) {d : Char} (hd : d.isDigit) (cs : List Char) :
    readValue depth (d :: cs) = readNumber (d :: cs) false (d :: cs) ∧
      readValue depth ('-' :: d :: cs) = readNumber ('-' :: d :: cs) true (d :: cs) := by
  have hne : ∀ c : Char, ¬c.isDigit → d ≠ c := by
    rintro c hc rfl
    exact hc hd
  constructor
  · rw [readValue_plain depth (hne _ (by decide)) (hne _ (by decide)) (hne _ (by decide)), no_word]
    · exact if_neg (by simpa using hne '-' (by decide))
    · intro w hw hbegins
      obtain ⟨c, d', ds, hword, -, hc, -⟩ := begin_of_mem_words hw
      rw [hword, List.cons_prefix_cons] at hbegins
      exact hne c hc hbegins.1.symm
  · rw [readValue_plain depth (by decide) (by decide) (by decide), no_word]
    · rfl
    · intro w hw hbegins
      obtain ⟨c, d', ds, hword, -, -, hd'⟩ := begin_of_mem_words hw
      rw [hword, List.cons_prefix_cons, List.cons_prefix_cons] at hbegins
      exact hne d' hd' hbegins.2.1.symm

/-- What can be read as a value, by how it begins. -/
theorem readValue_cases {depth : Nat} {cs rest : List Char} {v : Json}
    (h : readValue depth cs = .ok (v, rest)) :
    (∃ tail ps, cs = '"' :: tail ∧ readText tail = .ok (ps, rest) ∧ v = ofPoints ps) ∨
      (∃ d tail xs, depth = d + 1 ∧ cs = '[' :: tail ∧ v = .list xs) ∨
      (∃ d tail, depth = d + 1 ∧ cs = '\x7b' :: tail) ∨
      (∃ w ∈ words, v = w.2 ∧ cs = w.1.toList ++ rest) ∨
      (∃ tail, cs = '-' :: tail ∧ readNumber cs true tail = .ok (v, rest)) ∨
      readNumber cs false cs = .ok (v, rest) := by
  match cs, h with
  | [], h => cases depth <;> cases h
  | c :: cs, h =>
    by_cases hquote : c = '"'
    · subst hquote
      rw [readValue_quote] at h
      obtain ⟨⟨ps, tail⟩, hread, hv⟩ := bind_eq_ok_iff.mp h
      cases hv
      exact .inl ⟨cs, ps, rfl, hread, rfl⟩
    by_cases hbracket : c = '['
    · subst hbracket
      cases depth with
      | zero => cases h
      | succ d =>
          simp only [readValue] at h
          split at h
          · cases h
            exact .inr (.inl ⟨d, cs, [], rfl, rfl, rfl⟩)
          · obtain ⟨⟨xs, tail⟩, -, hv⟩ := bind_eq_ok_iff.mp h
            cases hv
            exact .inr (.inl ⟨d, cs, xs, rfl, rfl, rfl⟩)
    by_cases hbrace : c = '\x7b'
    · subst hbrace
      cases depth with
      | zero => cases h
      | succ d => exact .inr (.inr (.inl ⟨d, cs, rfl, rfl⟩))
    rw [readValue_plain depth hquote hbracket hbrace] at h
    split at h
    · rename_i hword
      cases h
      exact .inr (.inr (.inr (.inl (exists_word hword))))
    · split at h
      · rename_i hminus
        obtain rfl := eq_of_beq hminus
        exact .inr (.inr (.inr (.inr (.inl ⟨cs, rfl, h⟩))))
      · exact .inr (.inr (.inr (.inr (.inr h))))

theorem not_isGap_of_isDigit {d : Char} (hd : d.isDigit) : ¬isGap d := by
  intro hgap
  simp only [isGap, Bool.or_eq_true, beq_iff_eq] at hgap
  rcases hgap with ((rfl | rfl) | rfl) | rfl <;> exact absurd hd (by decide)

theorem isLocal_readValue_of {depth : Nat} (hparts : ∀ d, depth = d + 1 → IsLocal (readValue d)) :
    IsLocal (readValue depth) := by
  intro cs v rest h
  obtain ⟨tail, ps, rfl, hread, rfl⟩ | ⟨d, tail, xs, rfl, rfl, -⟩ | ⟨d, tail, rfl, rfl⟩ |
    ⟨w, hw, rfl, rfl⟩ | ⟨tail, rfl, hread⟩ | hread := readValue_cases h
  · obtain ⟨taken, rfl, htaken⟩ := readText_local hread
    refine ⟨'"', taken, by decide, rfl, fun more _ => ?_⟩
    rw [List.cons_append, readValue_quote, htaken]
    rfl
  · obtain ⟨taken, rfl, htaken⟩ := readValue_list (hparts d rfl) h
    exact ⟨'[', taken, by decide, rfl, fun more _ => htaken more⟩
  · obtain ⟨taken, rfl, htaken⟩ := readValue_object (hparts d rfl) h
    exact ⟨'\x7b', taken ++ ['\x7d'], by decide, by simp, fun more _ => by simpa using htaken more⟩
  · obtain ⟨c, c', ds, hbegin, hc, -, -⟩ := begin_of_mem_words hw
    refine ⟨c, c' :: ds, hc, by rw [hbegin], fun more _ => ?_⟩
    rw [← hbegin]
    exact readValue_word depth hw more
  · obtain ⟨d, ds, hd, rfl, hnumber⟩ := readNumber_local hread
    refine ⟨'-', d :: ds, by decide, rfl, fun more hmore => ?_⟩
    exact ((readValue_digit depth hd (ds ++ more)).2).trans (hnumber _ more hmore)
  · obtain ⟨d, ds, hd, rfl, hnumber⟩ := readNumber_local hread
    refine ⟨d, ds, not_isGap_of_isDigit hd, rfl, fun more hmore => ?_⟩
    exact ((readValue_digit depth hd (ds ++ more)).1).trans (hnumber _ more hmore)

theorem isLocal_readValue (depth : Nat) : IsLocal (readValue depth) := by
  induction depth with
  | zero => exact isLocal_readValue_of fun d hd => by cases hd
  | succ depth ih =>
      refine isLocal_readValue_of fun d hd => ?_
      cases hd
      exact ih

/-! ## Objects as whole texts -/

theorem ofPoints_ne_object (ps : List CodePoint) (fields : List (String × Json)) :
    ofPoints ps ≠ .object fields := by
  unfold ofPoints
  split <;> simp

theorem readNumber_ne_object {start cs rest : List Char} {negative : Bool}
    {fields : List (String × Json)} :
    readNumber start negative cs ≠ .ok (.object fields, rest) := by
  rw [readNumber_eq]
  unfold numberOf
  split
  · rename_i h
    split at h
    · cases h
    · split at h
      · split at h
        · cases h
        · cases h
          simp
      · cases h
        simp
  · simp [failAt]

theorem ne_object_of_mem_words {w : String × Json} (hw : w ∈ words)
    (fields : List (String × Json)) : w.2 ≠ .object fields := by
  simp only [words, List.mem_cons, List.not_mem_nil, or_false] at hw
  rcases hw with rfl | rfl | rfl | rfl | rfl | rfl <;> exact nofun

/-- An object is read behind an opening brace only. -/
theorem brace_of_readValue {depth : Nat} {cs rest : List Char} {fields : List (String × Json)}
    (h : readValue depth cs = .ok (.object fields, rest)) : ∃ body, cs = '\x7b' :: body := by
  obtain ⟨tail, ps, -, -, hv⟩ | ⟨d, tail, xs, -, -, hv⟩ | ⟨d, tail, -, hcs⟩ | ⟨w, hw, hv, -⟩ |
    ⟨tail, -, hread⟩ | hread := readValue_cases h
  · exact absurd hv.symm (ofPoints_ne_object ps fields)
  · cases hv
  · exact ⟨tail, hcs⟩
  · exact absurd hv.symm (ne_object_of_mem_words hw fields)
  · exact absurd hread readNumber_ne_object
  · exact absurd hread readNumber_ne_object

/-- A text that is one object has gaps around its braces, and the object is read from brace to brace
whatever follows. -/
theorem parse_object {cs : List Char} {fields : List (String × Json)}
    (h : parse cs = .ok (.object fields)) : ∃ front body back,
      cs = front ++ '\x7b' :: (body ++ '\x7d' :: back) ∧
        (∀ c ∈ front, isGap c) ∧ (∀ c ∈ back, isGap c) ∧
        ∀ more, readValue maxDepth ('\x7b' :: (body ++ '\x7d' :: more)) = .ok (.object fields, more) := by
  unfold parse at h
  split at h
  · cases h
  obtain ⟨⟨v, rest⟩, hread, hend⟩ := bind_eq_ok_iff.mp h
  obtain ⟨front, hcs, hfront⟩ := exists_gaps cs
  obtain ⟨back, hrest, hback⟩ := exists_gaps rest
  dsimp only at hend
  split at hend
  · rename_i hempty
    cases hend
    rw [List.isEmpty_iff.mp hempty, List.append_nil] at hrest
    subst hrest
    obtain ⟨inner, hopen⟩ := brace_of_readValue hread
    rw [hopen] at hread hcs
    obtain ⟨body, rfl, hbody⟩ := readValue_object (isLocal_readValue _) hread
    exact ⟨front, body, rest, hcs, hfront, hback, hbody⟩
  · cases hend

/-- Behind an object only gaps may follow. -/
theorem parse_of_readValue {cs rest : List Char} {v : Json} {c : Char} (hc : ¬isGap c)
    (hmark : c ≠ '\ufeff') (h : readValue maxDepth (c :: cs) = .ok (v, rest)) :
    parse (c :: cs) = if rest.all isGap then .ok v else .error (.extraData, (skipGaps rest).length) := by
  have hskip : skipGaps (c :: cs) = c :: cs := List.dropWhile_cons_of_neg hc
  have hrest : (skipGaps rest).isEmpty = rest.all isGap := by
    rw [Bool.eq_iff_iff, List.isEmpty_iff, skipGaps, List.dropWhile_eq_nil_iff, List.all_eq_true]
  rw [parse, if_neg (by simpa using hmark), hskip, h, ← hrest]
  rfl

end Clipboard.Json
