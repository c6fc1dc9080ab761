import Clipboard.Proofs.Pattern.Lowered
import Clipboard.Shape.Color

/-!
Colours read again. The value that a colour literal is given is in lower case and without blanks, and it is a
literal of the same notation with the same value: it matches the same form, and none that is tried before.
-/

namespace Clipboard.Color

open Pattern
open Text (isSpace lowerChar lower trim)

/-! ## Digits -/

theorem settled_of_isDigit {c : Char} (h : Text.isDigit c) : Settled c := by
  unfold Text.isDigit Text.digit? at h
  dsimp only at h
  split at h
  · rename_i hascii
    have hall : ∀ n < 128, (Char.ofNat n).isDigit → Settled (Char.ofNat n) := by decide
    have hdigit : c.isDigit := by
      by_contra hno
      simp [hno] at h
    simpa using hall c.toNat hascii (by simpa using hdigit)
  · -- No script has its digits among letters with a lower case, nor among blanks.
    have hapart : ∀ first ∈ Text.digitZeros.toList, 931 < first ∧
        (∀ r ∈ Text.lowerRuns.toList, first + 9 < r.first ∨ r.last < first) ∧
          ∀ n ∈ Text.blankNumbers, n < first ∨ first + 9 < n := by
      decide +kernel
    simp only [Option.isSome_map] at h
    obtain ⟨first, hfirst⟩ := Option.isSome_iff_exists.mp h
    obtain ⟨hbeyond, hruns, hblanks⟩ :=
      hapart first (Array.mem_toList_iff.mpr (Array.mem_of_find?_eq_some hfirst))
    have hrange : first ≤ c.toNat ∧ c.toNat < first + 10 := by simpa using Array.find?_some hfirst
    have hne (d : Char) (hd : d.toNat ≤ 931) : c ≠ d := by
      rintro rfl
      omega
    constructor
    · refine lowerChar_of_apart (by omega) (hne _ (by decide)) (hne _ (by decide)) fun r hr => ?_
      have hrun := hruns r hr
      omega
    · intro hspace
      have hblank := hblanks c.toNat (Text.toNat_mem_blankNumbers hspace)
      omega

theorem lowers_isDigit : Lowers Text.isDigit := by
  intro c hc
  have hsettled := settled_of_isDigit hc
  exact ⟨ne_sigma_of_lowerChar hsettled.lower, c, hsettled.lower, hc, hsettled⟩

theorem lowers_isHexDigit : Lowers isHexDigit := by
  intro c hc
  have hascii : c.toNat < 128 := by
    simp only [isHexDigit, Char.isDigit, Bool.or_eq_true, Bool.and_eq_true, decide_eq_true_eq] at hc
    rcases hc with (hc | hc) | hc
    · have hle : c.toNat ≤ 57 := hc.2
      omega
    · have hle : c.toNat ≤ 102 := hc.2
      omega
    · have hle : c.toNat ≤ 70 := hc.2
      omega
  have hall : ∀ n < 128, isHexDigit (.ofNat n) →
      isHexDigit (Char.ofNat n).toLower ∧ Settled (Char.ofNat n).toLower := by
    decide
  obtain ⟨hhex, hsettled⟩ : isHexDigit c.toLower ∧ Settled c.toLower := by
    simpa using hall c.toNat hascii (by simpa using hc)
  refine ⟨?_, c.toLower, by rw [lowerChar, if_pos hascii], hhex, hsettled⟩
  rintro rfl
  exact absurd hascii (by decide)

/-! ## Forms -/

theorem keeps_hexForm : Keeps (fun _ => true) hexForm := by
  have hkeep : ∀ c, ¬isSpace c → (fun _ : Char => true) c := fun _ _ => rfl
  have hdigits (m n : Nat) := keeps_counted hkeep lowers_isHexDigit m n
  refine keeps_append (keeps_append (keeps_exactly hkeep (by decide)) (keeps_oneOf ?_)) keeps_textEnd
  simp only [List.forall_mem_cons, List.not_mem_nil, false_implies, implies_true, and_true]
  exact ⟨hdigits 3 1, hdigits 6 0, hdigits 8 0⟩

theorem endsText_hexForm : EndsText hexForm := endsText_append endsText_textEnd

section

/-- What is not blank is shown. -/
abbrev shown (c : Char) : Bool := !isSpace c

theorem shown_of_visible (c : Char) (h : ¬isSpace c) : shown c := by simpa [shown] using h

theorem keeps_shownSpaces : Keeps shown spaces := keeps_spaces fun c hc => by simp [shown, hc]

theorem keeps_mark {s : String} (h : ∀ c ∈ s.toList, Settled c) : Keeps shown (exactly s) :=
  keeps_exactly shown_of_visible h

theorem keeps_letters {s : String} (h : ∀ c ∈ s.toList, c.isLower ∧ c ≠ 'i') :
    Keeps shown (anyCase s) :=
  keeps_anyCase shown_of_visible h

theorem keeps_digits (m n : Nat) : Keeps shown (counted Text.isDigit m n) :=
  keeps_counted shown_of_visible lowers_isDigit m n

theorem keeps_fraction : Keeps shown ("." ++ someOf Text.isDigit) :=
  keeps_append (keeps_mark (by decide)) (keeps_someOf shown_of_visible lowers_isDigit)

theorem keeps_number : Keeps shown number :=
  keeps_append (keeps_append (keeps_optional (keeps_mark (by decide))) (keeps_digits 1 2))
    (keeps_optional keeps_fraction)

theorem keeps_component : Keeps shown component :=
  keeps_append (keeps_append (keeps_append keeps_shownSpaces keeps_number)
    (keeps_optional (keeps_mark (by decide)))) keeps_shownSpaces

theorem keeps_opacity : Keeps shown opacity := by
  refine keeps_append (keeps_append keeps_shownSpaces (keeps_oneOf ?_)) keeps_shownSpaces
  simp only [List.forall_mem_cons, List.not_mem_nil, false_implies, implies_true, and_true]
  refine ⟨keeps_mark (by decide), keeps_mark (by decide), ?_, ?_⟩
  · exact keeps_append (keeps_append (keeps_optional (keeps_mark (by decide))) (keeps_mark (by decide)))
      (keeps_someOf shown_of_visible lowers_isDigit)
  · exact keeps_append (keeps_digits 1 2) (keeps_mark (by decide))

theorem keeps_lastComponents : Keeps shown lastComponents := by
  have hcomma : Keeps shown (exactly ",") := keeps_mark (by decide)
  have hsecond := keeps_append hcomma keeps_component
  have hthird := keeps_append (keeps_append hsecond hcomma) keeps_component
  have hopacity := keeps_append hthird (keeps_optional (keeps_append hcomma keeps_opacity))
  exact keeps_append (keeps_append hopacity (keeps_mark (by decide))) keeps_textEnd

theorem keeps_rgbForm : Keeps shown rgbForm := by
  have hname := keeps_append (keeps_letters (s := "rgb") (by decide))
    (keeps_optional (keeps_letters (s := "a") (by decide)))
  have hfirst := keeps_append (keeps_append hname (keeps_mark (s := "(") (by decide))) keeps_component
  exact keeps_append hfirst keeps_lastComponents

theorem keeps_hslForm : Keeps shown hslForm := by
  have hname := keeps_append (keeps_letters (s := "hsl") (by decide))
    (keeps_optional (keeps_letters (s := "a") (by decide)))
  have hopen := keeps_append (keeps_append hname (keeps_mark (s := "(") (by decide))) keeps_shownSpaces
  have hhue := keeps_append (keeps_append hopen keeps_number)
    (keeps_optional (keeps_letters (s := "deg") (by decide)))
  exact keeps_append (keeps_append hhue keeps_shownSpaces) keeps_lastComponents

theorem endsText_lastComponents : EndsText lastComponents := endsText_append endsText_textEnd

theorem endsText_rgbForm : EndsText rgbForm := endsText_append endsText_lastComponents

theorem endsText_hslForm : EndsText hslForm := endsText_append endsText_lastComponents

end

/-! ## First characters -/

theorem begins_hexForm : Begins (· = '#') hexForm :=
  begins_append (begins_append ((begins_word '#' []).imp fun _ => eq_of_beq))

theorem begins_rgbForm : Begins (sameLetter 'r' ·) rgbForm :=
  begins_append (begins_append (begins_append (begins_append (begins_word 'r' ['g', 'b']))))

theorem begins_hslForm : Begins (sameLetter 'h' ·) hslForm :=
  begins_append (begins_append (begins_append (begins_append (begins_append (begins_append
    (begins_append (begins_word 'h' ['s', 'l'])))))))

theorem not_hash_of_sameLetter {l c : Char} (hl : l.toLower ≠ '#') (h : sameLetter l c) : c ≠ '#' := by
  rintro rfl
  have hno : sameLetter l '#' = false := by simp [sameLetter, Ne.symm hl]
  exact absurd h (by simp [hno])

theorem not_r_of_h (c : Char) (h : sameLetter 'h' c) : ¬sameLetter 'r' c := by
  intro hr
  have hlower : c.toLower = 'h' := by simpa [sameLetter] using h
  simp [sameLetter, hlower] at hr

/-! ## Values -/

theorem ofText?_of_settled {v : List Char} (h : ∀ c ∈ v, Settled c) (hne : v ≠ []) : ofText? v =
    if hexForm.starts v then some ⟨.hex, .ofList v⟩
    else if rgbForm.starts v then some ⟨.rgb, .ofList v⟩
    else if hslForm.starts v then some ⟨.hsl, .ofList v⟩
    else if names.contains (.ofList v) then some ⟨.named, .ofList v⟩
    else none := by
  have htrim : trim v = v := Text.trim_of_no_space fun c hc => (h c hc).visible
  have hshown : v.filter (!isSpace ·) = v :=
    List.filter_eq_self.mpr fun c hc => shown_of_visible c (h c hc).visible
  have hempty : v.isEmpty = false := by simpa using hne
  simp only [ofText?, htrim, lower_of_settled h, hshown, hempty, Bool.false_eq_true, if_false]

theorem not_isUpper_of_settled {c : Char} (h : Settled c) : ¬c.isUpper := by
  intro hupper
  have hcapital : c.toNat ≤ 90 := (of_decide_eq_true hupper).2
  have hascii : c.toNat < 128 := by omega
  have hself := h.lower
  rw [lowerChar, if_pos hascii] at hself
  have hall : ∀ n < 128, (Char.ofNat n).isUpper → (Char.ofNat n).toLower ≠ .ofNat n := by decide
  exact hall c.toNat hascii (by simpa using hupper) (by simpa using hself)

theorem names_spec : ∀ name ∈ names, (∀ c ∈ name.toList, Settled c) ∧
    ofText? name.toList = some ⟨.named, name⟩ := by
  have hall : ∀ name ∈ names, name ≠ "" ∧ (∀ c ∈ name.toList, c.isLower) ∧
      hexForm.starts name.toList = false ∧ rgbForm.starts name.toList = false ∧
        hslForm.starts name.toList = false := by
    decide +kernel
  intro name hname
  obtain ⟨hne, hlower, hhex, hrgb, hhsl⟩ := hall name hname
  have hsettled : ∀ c ∈ name.toList, Settled c := fun c hc => settled_of_isLower (hlower c hc)
  have hmem : names.contains name = true := List.contains_iff_mem.mpr hname
  refine ⟨hsettled, (ofText?_of_settled hsettled (by simpa using hne)).trans ?_⟩
  simp only [hhex, hrgb, hhsl, String.ofList_toList, hmem, Bool.false_eq_true, if_false, if_true]

/-- What is kept of a matched text in lower case matches again. -/
theorem starts_value {a : Pattern} {keep : Char → Bool} {p : Char → Prop} (ha : Keeps keep a)
    (hend : EndsText a) (hbegins : Begins p a) {text : List Char} (h : a.starts (trim text)) :
    a.starts ((lower (trim text)).filter keep) ∧ (∀ c ∈ (lower (trim text)).filter keep, Settled c) ∧
      (lower (trim text)).filter keep ≠ [] := by
  obtain ⟨hstarts, hv⟩ := starts_lower ha hend (fun c => Text.not_isSpace_of_getLast?_trim) h
  obtain ⟨c, cs, hcons, -⟩ := exists_of_starts hbegins hstarts
  exact ⟨hstarts, hv, by simp [hcons]⟩

/-- The value of a colour literal has no blank and no capital letter, and read again it is a literal of the
same notation with the same value. -/
theorem ofText?_value {text : List Char} {color : Color} (h : ofText? text = some color) :
    (∀ c ∈ color.value.toList, ¬isSpace c ∧ ¬c.isUpper) ∧ ofText? color.value.toList = some color := by
  have hsettled {v : List Char} (hv : ∀ c ∈ v, Settled c) : ∀ c ∈ v, ¬isSpace c ∧ ¬c.isUpper :=
    fun c hc => ⟨(hv c hc).visible, not_isUpper_of_settled (hv c hc)⟩
  simp only [ofText?] at h
  split at h
  · cases h
  split at h
  · rename_i hhex
    cases h
    obtain ⟨hstarts, hv, hne⟩ := starts_value keeps_hexForm endsText_hexForm begins_hexForm hhex
    rw [List.filter_true] at hstarts hv hne
    rw [String.toList_ofList, ofText?_of_settled hv hne, if_pos hstarts]
    exact ⟨hsettled hv, rfl⟩
  split at h
  · rename_i hrgb
    cases h
    obtain ⟨hstarts, hv, hne⟩ := starts_value keeps_rgbForm endsText_rgbForm begins_rgbForm hrgb
    have hhex := starts_eq_false begins_rgbForm begins_hexForm
      (fun c => not_hash_of_sameLetter (by decide)) hstarts
    rw [String.toList_ofList, ofText?_of_settled hv hne, if_neg (by simp [hhex]), if_pos hstarts]
    exact ⟨hsettled hv, rfl⟩
  split at h
  · rename_i hhsl
    cases h
    obtain ⟨hstarts, hv, hne⟩ := starts_value keeps_hslForm endsText_hslForm begins_hslForm hhsl
    have hhex := starts_eq_false begins_hslForm begins_hexForm
      (fun c => not_hash_of_sameLetter (by decide)) hstarts
    have hrgb := starts_eq_false begins_hslForm begins_rgbForm not_r_of_h hstarts
    rw [String.toList_ofList, ofText?_of_settled hv hne, if_neg (by simp [hhex]),
      if_neg (by simp [hrgb]), if_pos hstarts]
    exact ⟨hsettled hv, rfl⟩
  split at h
  · rename_i hname
    cases h
    obtain ⟨hv, hagain⟩ := names_spec _ (List.contains_iff_mem.mp hname)
    exact ⟨hsettled hv, hagain⟩
  · cases h

/-- The long s stays, and so do digits of another script. -/
theorem ofText?_value_hsl :
    ofText? " HſL( 120DEG , ٥٠% ,50%, .5 ) ".toList = some ⟨.hsl, "hſl(120deg,٥٠%,50%,.5)"⟩ ∧
      (∀ c ∈ "hſl(120deg,٥٠%,50%,.5)".toList, ¬isSpace c ∧ ¬c.isUpper) ∧
      ofText? "hſl(120deg,٥٠%,50%,.5)".toList = some ⟨.hsl, "hſl(120deg,٥٠%,50%,.5)"⟩ := by
  have hread : ofText? " HſL( 120DEG , ٥٠% ,50%, .5 ) ".toList =
      some ⟨.hsl, "hſl(120deg,٥٠%,50%,.5)"⟩ := by
    decide +kernel
  exact ⟨hread, ofText?_value hread⟩

end Clipboard.Color
