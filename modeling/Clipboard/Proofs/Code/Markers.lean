import Clipboard.Code.Signatures
import Clipboard.Proofs.Pattern.Overlooks

/-!
The signatures of languages in a text with blanks around it. Five signatures may take a blank at the edge of the
text for a part of themselves, or stand at the very start of a line only; all others overlook the blanks.
-/

namespace Clipboard.Language

open Pattern
open Text (isSpace isBlank hasPart)

/-- The signatures that see the blanks around a text. -/
def edgeSignatures : List Pattern :=
  [pythonSignatures[1], phpSignatures[1], rubySignatures[1], bashSignatures[0], bashSignatures[1]]

set_option maxRecDepth 10000

theorem heres_notBefore_equals : (notBefore "=").Heres IgnoresBack := heres_notBefore_back (by decide)

theorem heres_notBefore_xml : (notBefore "xml").Heres IgnoresBack := heres_notBefore_back (by decide)

attribute [local simp] indent declared quote heres_notBefore_equals heres_notBefore_xml

/-! ## Signatures -/

/-- All signatures but those five overlook blanks. Each is found by its form: it begins and ends with no blank, or
begins with the blanks of a line, or ends with those at the end of a line. -/
theorem mem_edgeSignatures_or_overlooks (l : Language) : ∀ a ∈ l.signatures, a ∈ edgeSignatures ∨ a.Overlooks := by
  cases l with
  | python =>
      simp only [signatures, pythonSignatures, List.forall_mem_cons]
      exact ⟨.inr (.append_toLineEnd (.indented {})), .inl (by simp [edgeSignatures, pythonSignatures]),
        .inr (.append_toLineEnd (.indented {})), .inr (.append_toLineEnd (.indented {})),
        .inr (.append_toLineEnd (.indented {})), .inr .solid, .inr .solid,
        .inr (.append_toLineEnd (.indented {})), nofun⟩
  | javascript =>
      simp only [signatures, javascriptSignatures, List.forall_mem_cons]
      exact ⟨.inr .solid, .inr .solid, .inr .solid, .inr .solid, .inr .solid, .inr .solid, .inr (.indented {}),
        .inr (.indented {}), nofun⟩
  | typescript =>
      simp only [signatures, typescriptSignatures, List.forall_mem_cons]
      exact ⟨.inr .solid, .inr .solid, .inr (.indented {}), .inr (.indented {}), .inr .solid, nofun⟩
  | html =>
      simp only [signatures, htmlSignatures, List.forall_mem_cons]
      exact ⟨.inr .solid, .inr .solid, nofun⟩
  | css =>
      simp only [signatures, cssSignatures, List.forall_mem_cons]
      exact ⟨.inr (.indented {}), .inr (.indented {}), nofun⟩
  | java =>
      simp only [signatures, javaSignatures, List.forall_mem_cons]
      exact ⟨.inr .solid, .inr .solid, .inr (.indented {}), .inr (.indented {}), nofun⟩
  | cpp =>
      simp only [signatures, cppSignatures, List.forall_mem_cons]
      exact ⟨.inr (.indented {}), .inr .solid, .inr .solid, .inr .solid, nofun⟩
  | csharp =>
      simp only [signatures, csharpSignatures, List.forall_mem_cons]
      exact ⟨.inr (.indented {}), .inr (.indented {}), .inr .solid, .inr .solid, nofun⟩
  | rust =>
      simp only [signatures, rustSignatures, List.forall_mem_cons]
      exact ⟨.inr .solid, .inr .solid, .inr .solid, .inr (.indented {}), .inr (.indented {}), nofun⟩
  | go =>
      simp only [signatures, goSignatures, List.forall_mem_cons]
      exact ⟨.inr (.append_toLineEnd (.indented {})), .inr .solid, .inr .solid, .inr (.append_spaces .solid),
        nofun⟩
  | sql =>
      simp only [signatures, sqlSignatures, List.forall_mem_cons]
      exact ⟨.inr .solid, .inr .solid, .inr .solid, .inr .solid, .inr .solid, nofun⟩
  | php =>
      simp only [signatures, phpSignatures, List.forall_mem_cons]
      exact ⟨.inr .solid, .inl (by simp [edgeSignatures, phpSignatures]), .inr .solid, .inr (.indented {}),
        nofun⟩
  | ruby =>
      simp only [signatures, rubySignatures, List.forall_mem_cons]
      exact ⟨.inr (.append_toLineEnd (.indented {})), .inl (by simp [edgeSignatures, rubySignatures]),
        .inr .solid, .inr (.indented {}), .inr (.append_toLineEnd (.indented {})), nofun⟩
  | bash =>
      simp only [signatures, bashSignatures, List.forall_mem_cons]
      exact ⟨.inl (by simp [edgeSignatures, bashSignatures]), .inl (by simp [edgeSignatures, bashSignatures]),
        .inr (.append_toLineEnd (.indented {})), nofun⟩

theorem not_overlooks_of_mem_edgeSignatures : ∀ a ∈ edgeSignatures, ¬a.Overlooks := by
  have hback {a : Pattern} (text back : String) (hblank : isBlank back.toList)
      (hne : a.found (text.toList ++ back.toList) ≠ a.found text.toList) : ¬a.Overlooks :=
    fun h => hne (h.back text.toList back.toList hblank)
  have hfront {a : Pattern} (text : String) (hne : a.found text.toList ≠ a.found (text.toList.dropWhile isSpace)) :
      ¬a.Overlooks := fun h => hne (h.front text.toList)
  simp only [edgeSignatures, List.forall_mem_cons]
  exact ⟨hback "from a import" "  " (by decide) (by decide), hback "$a=" " " (by decide) (by decide),
    hback "puts" "\n" (by decide) (by decide), hfront " #!/bin/sh" (by decide),
    hback "git" " " (by decide) (by decide), nofun⟩

theorem overlooks_iff {l : Language} {a : Pattern} (h : a ∈ l.signatures) : a.Overlooks ↔ a ∉ edgeSignatures :=
  ⟨fun ha hedge => not_overlooks_of_mem_edgeSignatures a hedge ha, (mem_edgeSignatures_or_overlooks l a h).resolve_left⟩

section

variable {front back : List Char} (hfront : isBlank front) (hback : isBlank back) {cs : List Char}
include hfront hback

/-- The signatures tell the same language if the five find the same. -/
theorem ofMarkers?_padded (hedge : ∀ a ∈ edgeSignatures, a.found (front ++ cs ++ back) = a.found cs) :
    ofMarkers? (front ++ cs ++ back) = ofMarkers? cs := by
  have hfound (l : Language) (a : Pattern) (ha : a ∈ l.signatures) : a.found (front ++ cs ++ back) = a.found cs := by
    by_cases h : a ∈ edgeSignatures
    · exact hedge a h
    · exact ((overlooks_iff ha).mpr h).found_eq hfront hback cs
  have hany (l : Language) : l.signatures.any (·.found (front ++ cs ++ back)) = l.signatures.any (·.found cs) := by
    rw [Bool.eq_iff_iff, List.any_eq_true, List.any_eq_true]
    exact exists_congr fun a => and_congr_right fun ha => by rw [hfound l a ha]
  simp only [ofMarkers?, hany]

end

end Clipboard.Language
