import Mathlib.Data.List.Nodup
import Clipboard.Json.Parser
import Clipboard.Json.Printer

/-!
What is written is read back: texts with all their escapes, the words, and lists and objects whose
parts are read back. Numbers are left out, since where they end depends on what follows.
-/

namespace Clipboard.Json

open Text (CodePoint)

/-! ## Texts -/

theorem hexValue?_hexDigit : ∀ n < 16, hexValue? (hexDigit n) = some n := by decide

theorem hexUnit?_hexDigits {n : Nat} (h : n < 65536) :
    hexUnit? [hexDigit (n / 4096 % 16), hexDigit (n / 256 % 16), hexDigit (n / 16 % 16),
      hexDigit (n % 16)] = some n := by
  have hd := fun m => hexValue?_hexDigit (m % 16) (Nat.mod_lt m (by decide))
  have hn : (n / 4096 % 16 * 16 + n / 256 % 16) * 256 + n / 16 % 16 * 16 + n % 16 = n := by omega
  simp [hexUnit?, hd, hn]

/-- A unit that is no half of a pair is read as its character, if any text follows. -/
theorem readCodePoint_hexDigits {n : Nat} (h : n < 0xd800) {rest : List Char} (hr : rest ≠ []) :
    readCodePoint (hexDigit (n / 4096 % 16) :: hexDigit (n / 256 % 16) :: hexDigit (n / 16 % 16)
      :: hexDigit (n % 16) :: rest) = .ok (.char (Char.ofNat n), rest) := by
  have hpos := List.length_pos_iff.mpr hr
  have hhigh : isHighUnit n = false := by simp [isHighUnit]; omega
  have hunit : CodePoint.ofUnit n = .char (Char.ofNat n) := by
    unfold CodePoint.ofUnit
    rw [dif_neg]
    simp only [CodePoint.firstHalf]
    omega
  have hlen : ¬rest.length + 4 ≤ 4 := by omega
  simp [readCodePoint, hexUnit?_hexDigits (show n < 65536 by omega), hhigh, hunit, hlen]

/-- A character is written as an escape of one letter, as a unit or as it is. -/
theorem quotedChar_cases (c : Char) :
    (∃ e, quotedChar false c = ['\\', e] ∧ e ≠ 'u' ∧ plainEscape? e = some c) ∨
      (quotedChar false c = unitEscape c.toNat ∧ c.toNat < 32) ∨
      (quotedChar false c = [c] ∧ c ≠ '"' ∧ c ≠ '\\' ∧ 32 ≤ c.toNat) := by
  generalize hq : quotedChar false c = w
  simp only [quotedChar, beq_iff_eq, Bool.false_and, Bool.false_eq_true, if_false] at hq
  split at hq
  · rename_i h; subst h; exact .inl ⟨_, hq.symm, by decide, rfl⟩
  split at hq
  · rename_i h; subst h; exact .inl ⟨_, hq.symm, by decide, rfl⟩
  split at hq
  · rename_i h; subst h; exact .inl ⟨_, hq.symm, by decide, rfl⟩
  split at hq
  · rename_i h; subst h; exact .inl ⟨_, hq.symm, by decide, rfl⟩
  split at hq
  · rename_i h; subst h; exact .inl ⟨_, hq.symm, by decide, rfl⟩
  split at hq
  · rename_i h; subst h; exact .inl ⟨_, hq.symm, by decide, rfl⟩
  split at hq
  · rename_i h; subst h; exact .inl ⟨_, hq.symm, by decide, rfl⟩
  split at hq
  · rename_i h; exact .inr (.inl ⟨hq.symm, h⟩)
  · rename_i hquote hslash _ _ _ _ _ hctl
    exact .inr (.inr ⟨hq.symm, hquote, hslash, Nat.not_lt.mp hctl⟩)

/-- One written character is read in one step. -/
theorem readPoints_quotedChar (opened fuel : Nat) (acc : List CodePoint) (c : Char)
    {rest : List Char} (hr : rest ≠ []) :
    readPoints opened (fuel + 1) acc (quotedChar false c ++ rest) =
      readPoints opened fuel (.char c :: acc) rest := by
  rcases quotedChar_cases c with ⟨e, hq, hu, he⟩ | ⟨hq, hc⟩ | ⟨hq, hquote, hslash, hc⟩
  · simp [hq, readPoints, he]
  · have := readCodePoint_hexDigits (show c.toNat < 0xd800 by omega) hr
    simp [hq, unitEscape, readPoints, this, bind, Except.bind, Char.ofNat_toNat]
  · simp [hq, readPoints, Nat.not_lt.mpr hc]

theorem readPoints_quoted (opened : Nat) (cs rest : List Char) (fuel : Nat) (acc : List CodePoint)
    (h : cs.length < fuel) :
    readPoints opened fuel acc (cs.flatMap (quotedChar false) ++ '"' :: rest) =
      .ok (acc.reverse ++ cs.map .char, rest) := by
  induction cs generalizing fuel acc with
  | nil =>
      obtain ⟨fuel, rfl⟩ := Nat.exists_eq_succ_of_ne_zero (Nat.ne_of_gt h)
      simp [readPoints]
  | cons c cs ih =>
      obtain ⟨fuel, rfl⟩ := Nat.exists_eq_succ_of_ne_zero (Nat.ne_of_gt (Nat.lt_of_le_of_lt
        (Nat.zero_le _) h))
      rw [List.flatMap_cons, List.append_assoc, readPoints_quotedChar _ _ _ _ (by simp),
        ih _ _ (Nat.lt_of_succ_lt_succ h)]
      simp

theorem length_le_length_quoted (cs : List Char) :
    cs.length ≤ (cs.flatMap (quotedChar false)).length := by
  induction cs with
  | nil => exact Nat.le_refl 0
  | cons c cs ih =>
      have hc : 1 ≤ (quotedChar false c).length := by
        rcases quotedChar_cases c with ⟨e, hq, _⟩ | ⟨hq, _⟩ | ⟨hq, _⟩ <;> simp [hq, unitEscape]
      rw [List.flatMap_cons, List.length_append, List.length_cons]
      omega

theorem readText_quoted (s : String) (rest : List Char) :
    readText (s.toList.flatMap (quotedChar false) ++ '"' :: rest) =
      .ok (s.toList.map .char, rest) := by
  have := length_le_length_quoted s.toList
  unfold readText
  rw [readPoints_quoted _ _ _ _ _ (by simp only [List.length_append, List.length_cons]; omega)]
  rfl

theorem chars?_map_char (cs : List Char) : CodePoint.chars? (cs.map .char) = some cs := by
  induction cs with
  | nil => rfl
  | cons c cs ih =>
      unfold CodePoint.chars? at ih ⊢
      simp [ih, CodePoint.char?]

theorem shownChars_map_char (cs : List Char) : CodePoint.shownChars (cs.map .char) = cs := by
  simp [CodePoint.shownChars, Function.comp_def, CodePoint.char?]

theorem ofPoints_map_char (s : String) : ofPoints (s.toList.map .char) = text s := by
  simp [ofPoints, chars?_map_char]

/-! ## Values -/

/-- `value` reads the written form of `v` whatever follows it, and the form starts with a sign of its
own, so that it is found behind a gap and is not taken for the end of a list. -/
structure ReadsBack (value : Reader Json) (v : Json) : Prop where
  starts : ∃ c cs, v.print false = c :: cs ∧ isGap c = false ∧ c ≠ ']' ∧ c ≠ '\ufeff'
  read : ∀ rest, value (v.print false ++ rest) = .ok (v, rest)

theorem readsBack_text (depth : Nat) (s : String) : ReadsBack (readValue depth) (text s) where
  starts := ⟨'"', s.toList.flatMap (quotedChar false) ++ ['"'], by simp [print, quoted], by decide⟩
  read rest := by
    have := readText_quoted s rest
    cases depth <;>
      simp [print, quoted, readValue, this, bind, Except.bind, ofPoints_map_char, pure, Except.pure]

/-- A word is read wherever it stands, unless another one comes before it in the list of words. -/
theorem readsBack_null (depth : Nat) : ReadsBack (readValue depth) null where
  starts := ⟨'n', ['u', 'l', 'l'], by simp [print], by decide⟩
  read rest := by cases depth <;> rfl

theorem readsBack_bool (depth : Nat) (b : Bool) : ReadsBack (readValue depth) (bool b) where
  starts := by
    cases b with
    | true => exact ⟨'t', ['r', 'u', 'e'], by simp [print], by decide⟩
    | false => exact ⟨'f', ['a', 'l', 's', 'e'], by simp [print], by decide⟩
  read rest := by cases b <;> cases depth <;> rfl

/-! ## Lists -/

section

variable {value : Reader Json} {v : Json}

theorem ReadsBack.skipGaps_print (h : ReadsBack value v) (rest : List Char) :
    skipGaps (v.print false ++ rest) = v.print false ++ rest := by
  obtain ⟨c, cs, hp, hg, -⟩ := h.starts
  simp [hp, skipGaps, hg]

theorem ReadsBack.readItems_last (h : ReadsBack value v) (fuel : Nat) (acc : List Json)
    (rest : List Char) :
    readItems value (fuel + 1) acc (v.print false ++ ']' :: rest) =
      .ok ((v :: acc).reverse, rest) := by
  simp [readItems, h.read, bind, Except.bind, skipGaps, isGap, pure, Except.pure]

theorem ReadsBack.readItems_more (h : ReadsBack value v) (fuel : Nat) (acc : List Json)
    {rest : List Char} (hrest : skipGaps rest = rest) :
    readItems value (fuel + 1) acc (v.print false ++ ',' :: ' ' :: rest) =
      readItems value fuel (v :: acc) rest := by
  have hgap : skipGaps (' ' :: rest) = rest := hrest
  have hcomma : skipGaps (',' :: ' ' :: rest) = ',' :: ' ' :: rest := rfl
  simp [readItems, h.read, bind, Except.bind, hcomma, hgap]

end

section

variable {value : Reader Json} {vs : List Json}

theorem skipGaps_printItems (hne : vs ≠ []) (h : ∀ v ∈ vs, ReadsBack value v) (rest : List Char) :
    skipGaps (printItems false vs ++ rest) = printItems false vs ++ rest := by
  match vs, hne, h with
  | [v], _, h => simpa [printItems] using (h v List.mem_cons_self).skipGaps_print rest
  | v :: w :: ws, _, h =>
      simpa [printItems] using (h v List.mem_cons_self).skipGaps_print
        (',' :: ' ' :: printItems false (w :: ws) ++ rest)

theorem length_le_length_printItems (h : ∀ v ∈ vs, ReadsBack value v) :
    vs.length ≤ (printItems false vs).length := by
  induction vs with
  | nil => exact Nat.zero_le _
  | cons v vs ih =>
      obtain ⟨c, cs, hp, -⟩ := (h v List.mem_cons_self).starts
      have := ih fun w hw => h w (List.mem_cons_of_mem v hw)
      cases vs with
      | nil => simp [printItems, hp]
      | cons w ws =>
          simp only [printItems, hp, List.length_cons, List.length_append] at this ⊢
          omega

theorem readItems_printItems (hne : vs ≠ []) (h : ∀ v ∈ vs, ReadsBack value v) (fuel : Nat)
    (acc : List Json) (rest : List Char) (hfuel : vs.length ≤ fuel) :
    readItems value fuel acc (printItems false vs ++ ']' :: rest) =
      .ok (acc.reverse ++ vs, rest) := by
  induction vs generalizing fuel acc with
  | nil => exact absurd rfl hne
  | cons v vs ih =>
      obtain ⟨fuel, rfl⟩ := Nat.exists_eq_succ_of_ne_zero
        (Nat.ne_of_gt (Nat.lt_of_lt_of_le (Nat.succ_pos _) hfuel))
      have hv := h v List.mem_cons_self
      cases vs with
      | nil => rw [printItems, hv.readItems_last]; simp
      | cons w ws =>
          have hws : ∀ x ∈ w :: ws, ReadsBack value x := fun x hx => h x (List.mem_cons_of_mem v hx)
          have hskip := skipGaps_printItems (by simp) hws (']' :: rest)
          have hprint : printItems false (v :: w :: ws) =
              v.print false ++ ',' :: ' ' :: printItems false (w :: ws) := by simp [printItems]
          rw [hprint, List.append_assoc, List.cons_append, List.cons_append,
            hv.readItems_more _ _ hskip, ih (by simp) hws _ _ (Nat.le_of_succ_le_succ hfuel)]
          simp

end

/-- A bracket that is not closed at once opens the items of a list. -/
theorem readValue_bracket {depth : Nat} {cs : List Char} (hskip : skipGaps cs = cs)
    (hopen : ∀ rest, cs ≠ ']' :: rest) :
    readValue (depth + 1) ('[' :: cs) =
      (readItems (readValue depth) (cs.length + 1) [] cs).map fun r => (list r.1, r.2) := by
  simp only [readValue, hskip]
  cases readItems (readValue depth) (cs.length + 1) [] cs <;> rfl

theorem readsBack_list {depth : Nat} {xs : List Json}
    (h : ∀ v ∈ xs, ReadsBack (readValue depth) v) :
    ReadsBack (readValue (depth + 1)) (list xs) where
  starts := ⟨'[', printItems false xs ++ [']'], by simp [print], by decide⟩
  read rest := by
    have hprint : (list xs).print false ++ rest = '[' :: (printItems false xs ++ ']' :: rest) := by
      simp [print]
    rw [hprint]
    cases xs with
    | nil => simp [printItems, readValue, skipGaps, isGap]
    | cons v vs =>
        have hlen := length_le_length_printItems h
        have hopen : ∀ more, printItems false (v :: vs) ++ ']' :: rest ≠ ']' :: more := by
          obtain ⟨c, cs, hp, -, hc, -⟩ := (h v List.mem_cons_self).starts
          intro more he
          cases vs <;> simp [printItems, hp] at he <;> exact hc he.1
        rw [readValue_bracket (skipGaps_printItems (by simp) h _) hopen,
          readItems_printItems (by simp) h _ _ _ (by rw [List.length_append]; omega)]
        rfl

/-! ## Objects -/

theorem setField_of_notMem {k : String} {v : Json} {fields : List (String × Json)}
    (h : k ∉ fields.map (·.1)) : setField k v fields = fields ++ [(k, v)] := by
  induction fields with
  | nil => rfl
  | cons f fields ih =>
      simp only [List.map_cons, List.mem_cons, not_or] at h
      have hne : (f.1 == k) = false := beq_false_of_ne fun he => h.1 he.symm
      simp [setField, hne, ih h.2]

section

variable {value : Reader Json} {v : Json}

/-- The reader goes on behind the value of a field. -/
theorem ReadsBack.readFields_step (h : ReadsBack value v) (k : String) (fuel : Nat)
    (acc : List (String × Json)) (rest : List Char) :
    readFields value (fuel + 1) acc (quoted false k ++ ':' :: ' ' :: v.print false ++ rest) =
      match skipGaps rest with
      | '\x7d' :: rest => .ok (setField k v acc, rest)
      | ',' :: rest => readFields value fuel (setField k v acc) (skipGaps rest)
      | rest => failAt .noComma rest := by
  have hkey := readText_quoted k (':' :: ' ' :: (v.print false ++ rest))
  have hgap : skipGaps (' ' :: (v.print false ++ rest)) = v.print false ++ rest :=
    h.skipGaps_print rest
  have hcolon : skipGaps (':' :: ' ' :: (v.print false ++ rest)) =
      ':' :: ' ' :: (v.print false ++ rest) := rfl
  simp [quoted, readFields, hkey, bind, Except.bind, hcolon, hgap, h.read, shownChars_map_char]
  rfl

end

section

variable {value : Reader Json} {fields : List (String × Json)}

theorem printFields_cons_cons (f g : String × Json) (fields : List (String × Json)) :
    printFields false (f :: g :: fields) =
      quoted false f.1 ++ ':' :: ' ' :: f.2.print false ++ ',' :: ' ' ::
        printFields false (g :: fields) := by
  simp [printFields]

theorem exists_printFields_eq (hne : fields ≠ []) : ∃ cs, printFields false fields = '"' :: cs := by
  match fields, hne with
  | [f], _ => exact ⟨_, by simp only [printFields, quoted, List.cons_append]; rfl⟩
  | f :: g :: fields, _ => exact ⟨_, by simp only [printFields, quoted, List.cons_append]; rfl⟩

theorem length_le_length_printFields (fields : List (String × Json)) :
    fields.length ≤ (printFields false fields).length := by
  induction fields with
  | nil => exact Nat.zero_le _
  | cons f fields ih =>
      cases fields with
      | nil => simp [printFields, quoted]
      | cons g fields =>
          simp only [printFields_cons_cons, List.length_cons, List.length_append] at ih ⊢
          omega

theorem readFields_printFields (hne : fields ≠ []) (h : ∀ f ∈ fields, ReadsBack value f.2)
    (fuel : Nat) (acc : List (String × Json)) (rest : List Char) (hfuel : fields.length ≤ fuel)
    (hkeys : ((acc ++ fields).map (·.1)).Nodup) :
    readFields value fuel acc (printFields false fields ++ '\x7d' :: rest) =
      .ok (acc ++ fields, rest) := by
  induction fields generalizing fuel acc with
  | nil => exact absurd rfl hne
  | cons f fields ih =>
      obtain ⟨fuel, rfl⟩ := Nat.exists_eq_succ_of_ne_zero
        (Nat.ne_of_gt (Nat.lt_of_lt_of_le (Nat.succ_pos _) hfuel))
      have hf := h f List.mem_cons_self
      have hnew : f.1 ∉ acc.map (·.1) := by
        rw [List.map_append, List.map_cons, List.nodup_append] at hkeys
        exact fun hm => hkeys.2.2 _ hm _ List.mem_cons_self rfl
      cases fields with
      | nil =>
          have hprint : printFields false [f] =
              quoted false f.1 ++ ':' :: ' ' :: f.2.print false := by
            simp [printFields]
          rw [hprint, hf.readFields_step, setField_of_notMem hnew]
          rfl
      | cons g fields =>
          have hfields : ∀ x ∈ g :: fields, ReadsBack value x.2 := fun x hx =>
            h x (List.mem_cons_of_mem f hx)
          obtain ⟨cs, hcs⟩ := exists_printFields_eq (show g :: fields ≠ [] by simp)
          have hskip : skipGaps (' ' :: (printFields false (g :: fields) ++ '\x7d' :: rest)) =
              printFields false (g :: fields) ++ '\x7d' :: rest := by
            rw [hcs]; rfl
          have hcomma : ∀ more, skipGaps (',' :: more) = ',' :: more := fun _ => rfl
          rw [printFields_cons_cons, List.append_assoc, hf.readFields_step, setField_of_notMem hnew,
            List.cons_append, List.cons_append, hcomma]
          simp only [hskip]
          rw [ih (by simp) hfields _ _ (Nat.le_of_succ_le_succ hfuel) (by simpa using hkeys)]
          simp

end

/-- A brace that is not closed at once opens the fields of an object. -/
theorem readValue_brace {depth : Nat} {cs : List Char} (hskip : skipGaps cs = cs)
    (hopen : ∀ rest, cs ≠ '\x7d' :: rest) :
    readValue (depth + 1) ('\x7b' :: cs) =
      (readFields (readValue depth) (cs.length + 1) [] cs).map fun r => (object r.1, r.2) := by
  simp only [readValue, hskip]
  cases readFields (readValue depth) (cs.length + 1) [] cs <;> rfl

theorem readsBack_object {depth : Nat} {fields : List (String × Json)}
    (hkeys : (fields.map (·.1)).Nodup) (h : ∀ f ∈ fields, ReadsBack (readValue depth) f.2) :
    ReadsBack (readValue (depth + 1)) (object fields) where
  starts := ⟨'\x7b', printFields false fields ++ ['\x7d'], by simp [print], by decide⟩
  read rest := by
    have hprint : (object fields).print false ++ rest =
        '\x7b' :: (printFields false fields ++ '\x7d' :: rest) := by simp [print]
    rw [hprint]
    by_cases hne : fields = []
    · subst hne; simp [printFields, readValue, skipGaps, isGap]
    · obtain ⟨cs, hcs⟩ := exists_printFields_eq hne
      have hlen := length_le_length_printFields fields
      have hread := readFields_printFields hne h
        ((printFields false fields ++ '\x7d' :: rest).length + 1) [] rest
        (by rw [List.length_append]; omega) hkeys
      have hskip : skipGaps (printFields false fields ++ '\x7d' :: rest) =
          printFields false fields ++ '\x7d' :: rest := by rw [hcs]; rfl
      rw [readValue_brace hskip (by simp [hcs]), hread]
      rfl

/-! ## Whole texts -/

/-- A value that is read back is what its written form as a whole stands for. -/
theorem ReadsBack.parse_print {v : Json} (h : ReadsBack (readValue maxDepth) v) :
    parse (v.print false) = .ok v := by
  obtain ⟨c, cs, hp, hg, -, hmark⟩ := h.starts
  have hread := h.read []
  have hskip := h.skipGaps_print []
  rw [List.append_nil] at hread hskip
  have hhead : ((v.print false).head? == some '\ufeff') = false := by simp [hp, hmark]
  simp only [parse, hhead, hskip, hread, bind, Except.bind]
  rfl

end Clipboard.Json
