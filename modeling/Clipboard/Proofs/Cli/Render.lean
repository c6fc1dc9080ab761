import Clipboard.Cli.Render
import Clipboard.Proofs.Fallible
import Clipboard.Proofs.Snippet.Record

/-!
Snippets that can be shown: in a line, in a table and in a panel, wherever there are texts in all places.
-/

namespace Clipboard.Cli

open Fallible

theorem exists_chars_of_isText {v : Json} (h : v.isText) : ∃ cs, v.chars? = some cs := by
  cases v with
  | text s => exact ⟨_, rfl⟩
  | torn ps => exact ⟨_, rfl⟩
  | _ => cases h

theorem succeeds_shortId {v : Json} (h : v.isText) : Succeeds (shortId v) := by
  obtain ⟨cs, hcs⟩ := exists_chars_of_isText h
  simp [shortId, hcs]

theorem succeeds_previewOf {v : Json} (h : v.isText) : Succeeds (previewOf v) := by
  obtain ⟨cs, hcs⟩ := exists_chars_of_isText h
  simp [previewOf, hcs]

theorem succeeds_cell {v : Json} (h : v.isText) : Succeeds (cell v) := by
  obtain ⟨cs, hcs⟩ := exists_chars_of_isText h
  unfold cell
  split <;> simp_all

theorem succeeds_joined {vs : List Json} (h : ∀ v ∈ vs, v.isText) : Succeeds (joined vs) := by
  refine (succeeds_bind_of_forall fun _ => succeeds_pure _).mpr (succeeds_mapM_iff.mpr ?_)
  intro v hv
  obtain ⟨cs, hcs⟩ := exists_chars_of_isText (h v hv)
  simp [hcs]

theorem succeeds_rowOf {s : Snippet} (h : s.IsTextual) : Succeeds (rowOf s) := by
  obtain ⟨id, hid⟩ := succeeds_shortId h.id
  obtain ⟨tags, htags⟩ := succeeds_joined h.tags
  obtain ⟨line, hline⟩ := succeeds_previewOf h.content
  obtain ⟨source, hsource⟩ := succeeds_cell h.source
  simp only [rowOf, hid, htags, hline, hsource]
  exact succeeds_ok _

theorem succeeds_tableOf {ss : List Snippet} (h : ∀ s ∈ ss, s.IsTextual) (title : String) :
    Succeeds (tableOf ss title) :=
  (succeeds_bind_of_forall fun _ => succeeds_pure _).mpr
    (succeeds_mapM_iff.mpr fun s hs => succeeds_rowOf (h s hs))

theorem succeeds_panelOf {s : Snippet} (h : s.IsTextual) : Succeeds (panelOf s) := by
  obtain ⟨tags, htags⟩ := succeeds_joined h.tags
  obtain ⟨content, hcontent⟩ := exists_chars_of_isText h.content
  simp only [panelOf, htags, hcontent]
  exact succeeds_ok _

end Clipboard.Cli
