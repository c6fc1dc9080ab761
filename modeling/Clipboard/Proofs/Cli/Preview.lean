import Clipboard.Cli.Render
import Clipboard.Proofs.Text.Lower

/-!
The short line for a content. It fits its width and is one line; what it leaves out is marked, unless the first
line ends in another way than with a line feed.
-/

namespace Clipboard

open Text

theorem Text.head?_lines {cs : List Char} (h : cs ≠ []) :
    (lines cs).head? = some (cs.takeWhile (!isLineBreak ·)) := by
  have hne (ds : List Char) : lines ds = [] → ds = [] := by
    fun_cases lines ds <;> simp_all
  fun_induction lines cs with
  | case1 => exact absurd rfl h
  | case2 cs ih =>
      have hbreak : isLineBreak '\r' := by decide
      simp [hbreak]
  | case3 c cs _ hbreak => simp [hbreak]
  | case4 c cs _ hbreak hlines =>
      simp [hbreak, hne cs hlines]
  | case5 c cs _ hbreak l ls hlines ih =>
      have hcs : cs ≠ [] := by
        rintro rfl
        cases hlines
      rw [hlines] at ih
      simpa [hbreak] using ih hcs

namespace Cli

/-- The content without the blanks at its ends, up to its first line break of any kind. -/
def firstLine (cs : List Char) : List Char := (trim cs).takeWhile (!isLineBreak ·)

variable {cs : List Char} {width : Int}

theorem not_isLineBreak_of_mem_firstLine {c : Char} (h : c ∈ firstLine cs) : ¬isLineBreak c := by
  simpa using List.mem_takeWhile_imp h

theorem firstLine_eq_trim_iff : firstLine cs = trim cs ↔ ∀ c ∈ trim cs, ¬isLineBreak c := by
  simp [firstLine, List.takeWhile_eq_self_iff]

/-- The first line is cut if it is too long, or if a line feed ends it. -/
theorem preview_eq (cs : List Char) (width : Int) :
    preview cs width = if width < (firstLine cs).length ∨ '\n' ∈ trim cs then
      dropWhileEnd isSpace (takeFirst (width - 1) (firstLine cs)) ++ ['…'] else firstLine cs := by
  have hfirst : (lines (trim cs)).head?.getD [] = firstLine cs := by
    by_cases hnil : trim cs = []
    · rw [firstLine, hnil]
      rfl
    · rw [head?_lines hnil]
      rfl
  simp only [preview, hfirst, Bool.or_eq_true, decide_eq_true_eq, List.contains_iff_mem]

/-- What is shown begins the first line; a mark may follow it. -/
theorem preview_cases (hwidth : 1 ≤ width) (cs : List Char) :
    preview cs width = firstLine cs ∧ ((firstLine cs).length : Int) ≤ width ∨
      ∃ shown, shown <+: firstLine cs ∧ (shown.length : Int) < width ∧ preview cs width = shown ++ ['…'] := by
  rw [preview_eq]
  split
  · obtain ⟨blank, hblank, -⟩ := dropWhileEnd_append_blank (takeFirst (width - 1) (firstLine cs))
    have htake : takeFirst (width - 1) (firstLine cs) = (firstLine cs).take (width - 1).toNat :=
      if_pos (by omega)
    have hbegins : dropWhileEnd isSpace (takeFirst (width - 1) (firstLine cs)) <+:
        (firstLine cs).take (width - 1).toNat := ⟨blank, by rw [← hblank, htake]⟩
    have hlength := hbegins.length_le
    rw [List.length_take] at hlength
    exact .inr ⟨_, hbegins.trans (List.take_prefix _ _), by omega, rfl⟩
  · rename_i h
    exact .inl ⟨rfl, Int.not_lt.mp (not_or.mp h).1⟩

/-- The line for a content is at most as wide as wanted and has no line break in it. It is the whole content, or
ends with the mark, exactly if the content is one line, a line feed is among its line breaks, its first line is
too long, or that line ends with the mark itself. -/
theorem preview_marks (hwidth : 1 ≤ width) (cs : List Char) :
    ((preview cs width).length : Int) ≤ width ∧ (∀ c ∈ preview cs width, ¬isLineBreak c) ∧
      ((preview cs width = trim cs ∨ '…' ∈ (preview cs width).getLast?) ↔
        (∀ c ∈ trim cs, ¬isLineBreak c) ∨ '\n' ∈ trim cs ∨ width < (firstLine cs).length ∨
          '…' ∈ (firstLine cs).getLast?) := by
  refine ⟨?_, ?_, ?_⟩
  · rcases preview_cases hwidth cs with ⟨h, hlength⟩ | ⟨shown, -, hlength, h⟩
    · rwa [h]
    · rw [h, List.length_append, List.length_singleton]
      omega
  · have hfirst : ∀ c ∈ firstLine cs, ¬isLineBreak c := fun c => not_isLineBreak_of_mem_firstLine
    rcases preview_cases hwidth cs with ⟨h, -⟩ | ⟨shown, hbegins, -, h⟩
    · rwa [h]
    · rw [h, List.forall_mem_append, List.forall_mem_singleton]
      exact ⟨fun c hc => hfirst c (hbegins.subset hc), by decide⟩
  · rw [← firstLine_eq_trim_iff, preview_eq]
    split
    · rename_i hcut
      refine iff_of_true (.inr (by simp)) ?_
      rcases hcut with hlong | hfeed
      · exact .inr (.inr (.inl hlong))
      · exact .inr (.inl hfeed)
    · rename_i hwhole
      obtain ⟨hshort, hfeed⟩ := not_or.mp hwhole
      simp only [hshort, hfeed, false_or]

/-- Behind a carriage return text is left out without a mark; behind a line feed it is not. -/
theorem preview_marks_return :
    let returned := "one\x0dtwo".toList
    let fed := " one \ntwo ".toList
    (1 : Int) ≤ 60 ∧ preview returned 60 = "one".toList ∧
      ¬(preview returned 60 = trim returned ∨ '…' ∈ (preview returned 60).getLast?) ∧
      preview fed 4 = "one…".toList ∧ (preview fed 4 = trim fed ∨ '…' ∈ (preview fed 4).getLast?) := by
  intro returned fed
  have hreturned := (preview_marks (by decide : (1 : Int) ≤ 60) returned).2.2
  have hfed := (preview_marks (by decide : (1 : Int) ≤ 4) fed).2.2
  refine ⟨by decide, by decide, fun h => ?_, by decide, hfed.mpr (.inr (.inl (by decide)))⟩
  exact absurd (hreturned.mp h) (by decide)

end Cli

end Clipboard
