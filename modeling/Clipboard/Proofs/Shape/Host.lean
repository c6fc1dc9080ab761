import Clipboard.Proofs.Pattern.Match
import Clipboard.Shape.Host

/-!
When the title of a link can be told. Only brackets and characters that stand for a separator can
make an address misleading, so a text without any of them always has a title.
-/

namespace Clipboard

namespace Text

theorem trim_subset (cs : List Char) : trim cs ⊆ cs := by
  intro c hc
  rw [trim, dropWhileEnd, List.mem_reverse] at hc
  have hc := List.mem_reverse.mp ((List.dropWhile_suffix _).subset hc)
  exact (List.dropWhile_suffix _).subset hc

theorem cutAt_snd_subset {sep : Char} {cs rest : List Char} (h : (cutAt sep cs).2 = some rest) :
    rest ⊆ cs := by
  unfold cutAt at h
  split at h
  · cases h
  · rename_i d more hdrop
    cases h
    exact fun c hc => (List.dropWhile_suffix (· != sep)).subset (hdrop ▸ List.mem_cons_of_mem d hc)

end Text

namespace Link

open Text

/-! ## The parts of an address -/

theorem bare_subset (cs : List Char) : bare cs ⊆ cs :=
  List.Subset.trans List.filter_sublist.subset (List.dropWhile_suffix _).subset

theorem afterScheme_subset (cs : List Char) : afterScheme cs ⊆ cs := by
  unfold afterScheme
  split
  · rename_i c scheme rest hcut
    have hrest : (cutAt ':' cs).2 = some rest := by rw [hcut]
    split
    · exact cutAt_snd_subset hrest
    · exact List.Subset.refl cs
  · exact List.Subset.refl cs

theorem authority_subset (cs : List Char) : authority cs ⊆ cs := by
  unfold authority
  split
  · rename_i rest hafter
    intro c hc
    have hc := (List.takeWhile_prefix _).subset hc
    exact afterScheme_subset cs (hafter ▸ List.mem_cons_of_mem _ (List.mem_cons_of_mem _ hc))
  · exact List.nil_subset cs

/-- Neither a bracket nor a character that stands for a separator. -/
def isHarmless (c : Char) : Bool :=
  c != '[' && c != ']' && !foldedSeparators.contains c.toNat

theorem checkBrackets_of_harmless {a : List Char} (h : ∀ c ∈ a, isHarmless c) :
    checkBrackets a = .ok () := by
  have hnone : ∀ c, isHarmless c = false → c ∉ a := fun c hc hmem => by
    rw [h c hmem] at hc
    cases hc
  simp [checkBrackets, hnone '[' (by decide), hnone ']' (by decide)]

theorem host?_of_harmless {address : List Char} (h : ∀ c ∈ address, isHarmless c) :
    ∃ host, host? address = .ok host := by
  have ha : ∀ c ∈ authority (bare address), isHarmless c := fun c hc =>
    h c (bare_subset _ (authority_subset _ hc))
  have hseparators : (authority (bare address)).any (foldedSeparators.contains ·.toNat) = false := by
    rw [List.any_eq_false]
    intro c hc hsep
    have := ha c hc
    simp only [isHarmless, hsep, Bool.not_true, Bool.and_false] at this
    cases this
  simp only [host?, checkBrackets_of_harmless ha, hseparators, bind, Except.bind, pure, Except.pure]
  cases hostIn (authority (bare address)) with
  | nil => exact ⟨none, rfl⟩
  | cons c cs => exact ⟨_, rfl⟩

/-- A text without brackets and separators in disguise has a title. -/
theorem title_of_harmless {text : List Char} (h : ∀ c ∈ text, isHarmless c) :
    ∃ t, title text = .ok t := by
  have haddress : ∀ c ∈ (first? text).getD (trim text), isHarmless c := by
    cases hfirst : first? text with
    | none => exact fun c hc => h c (trim_subset text hc)
    | some address => exact fun c hc => h c (Pattern.firstText?_subset hfirst hc)
  have hscheme : ∀ c ∈ "http://".toList, isHarmless c := List.all_eq_true.mp (by decide)
  have hwhole : ∀ c ∈ (if hasScheme ((first? text).getD (trim text)) then
      (first? text).getD (trim text)
      else "http://".toList ++ (first? text).getD (trim text)), isHarmless c := by
    split
    · exact haddress
    · exact List.forall_mem_append.mpr ⟨hscheme, haddress⟩
  obtain ⟨host, hhost⟩ := host?_of_harmless hwhole
  exact ⟨host.getD (trim text), by rw [title, hhost]; rfl⟩

end Link

end Clipboard
