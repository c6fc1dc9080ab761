import Clipboard.Proofs.Remote.Reply
import Clipboard.Proofs.Search.Run

/-!
How the parts of a filter hang together, whatever was searched for before: each command sets its own
parts only, a date is either understood or searched for, a language is that of code, and a type takes
the place of a text.
-/

namespace Clipboard

open Calendar (ResolveFault)
open Remote (Transcript)

/-- Every part belongs to a command and the parts of one command go together. -/
structure Filter.Coherent (f : Filter) : Prop where
  date : f.dateRange.isSome ∨ f.dateText.isSome ∨ f.dateLabel.isSome → f.command = some "date"
  type : f.contentType.isSome ∨ f.language.isSome → f.command = some "type"
  app : f.sourceApp.isSome → f.command = some "app"
  favorite : f.favoritesOnly → f.command = some "fav"
  text : f.freeText.isSome →
    f.command = none ∨ f.command = some "type" ∨ f.command = some "fav" ∨ f.command = some "smart"
  date_or_text : f.dateRange = none ∨ f.dateText = none
  label_iff : f.dateLabel.isSome ↔ f.dateRange.isSome ∨ f.dateText.isSome
  code_of_language : f.language.isSome → f.contentType = some "code"
  text_of_type : f.contentType.isSome → f.freeText = none
  terms_of_text : f.freeText = none → f.terms = []

namespace Filter

/-- Nothing is asked for yet. -/
theorem coherent_empty (command : Option String) : Coherent { command } := by
  constructor <;> simp

theorem Coherent.sort {f : Filter} (h : f.Coherent) (name : String) :
    Coherent { f with sortOrder := some name } :=
  { h with }

theorem Coherent.untyped {f : Filter} (h : f.Coherent) (hc : f.command ≠ some "type") :
    f.contentType = none ∧ f.language = none := by
  have hnone := mt h.type hc
  simpa using hnone

theorem Coherent.undated {f : Filter} (h : f.Coherent) (hc : f.command ≠ some "date") :
    f.dateRange = none ∧ f.dateText = none := by
  have hnone := mt h.date hc
  simp only [not_or, Option.not_isSome_iff_eq_none] at hnone
  exact ⟨hnone.1, hnone.2.1⟩

theorem Coherent.unsourced {f : Filter} (h : f.Coherent) (hc : f.command ≠ some "app") :
    f.sourceApp = none := by
  simpa using mt h.app hc

theorem Coherent.unmarked {f : Filter} (h : f.Coherent) (hc : f.command ≠ some "fav") :
    f.favoritesOnly = false := by
  simpa using mt h.favorite hc

theorem Coherent.textless {f : Filter} (h : f.Coherent)
    (hc : f.command = some "app" ∨ f.command = some "date") : f.freeText = none := by
  cases hfree : f.freeText with
  | none => rfl
  | some phrase =>
      have htext := h.text (Option.isSome_of_mem hfree)
      rcases hc with hc | hc <;> simp [hc] at htext

theorem coherent_ofText (minTermLength : Int) (cs : List Char) {command : Option String}
    (h : command = none ∨ command = some "type" ∨ command = some "smart") :
    (ofText minTermLength cs command).Coherent := by
  rcases h with rfl | rfl | rfl <;> constructor <;> simp [ofText]

end Filter

namespace Compiler

theorem Makes.coherent {c : Compiler} {previous : Option Filter} {f : Filter}
    (hprevious : ∀ p ∈ previous, p.Coherent) (h : c.Makes previous f) : f.Coherent := by
  have hbase : ∀ command, (baseFor command previous).Coherent :=
    fun command => baseFor_of hprevious (Filter.coherent_empty _)
  have hown : ∀ command, (baseFor command previous).command = some command.name :=
    command_baseFor
  cases h with
  | nothing => exact Filter.coherent_empty none
  | text cs command h => exact Filter.coherent_ofText c.minTermLength cs h
  | order name h =>
      refine Filter.Coherent.sort ?_ name
      cases previous with
      | none => exact Filter.coherent_empty none
      | some p => exact hprevious p rfl
  | noDate | unknownDate text label =>
      exact { hbase .date with
        date := fun _ => hown .date, date_or_text := .inl rfl, label_iff := by simp }
  | foundDate range label h =>
      exact { hbase .date with
        date := fun _ => hown .date, date_or_text := .inr rfl, label_iff := by simp }
  | noType =>
      exact { hbase .type with
        type := fun _ => hown .type, code_of_language := nofun, text_of_type := nofun }
  | type kind language =>
      refine { hbase .type with
        type := fun _ => hown .type, text := nofun, code_of_language := fun hlanguage => ?_
        text_of_type := fun _ => rfl, terms_of_text := fun _ => rfl }
      by_cases hcode : kind = "code"
      · rw [withType, hcode]
      · simp [withType, hcode] at hlanguage
  | app name => exact { hbase .app with app := fun _ => hown .app }
  | favorite cs =>
      unfold favoriteFilter
      split
      · exact { hbase .fav with favorite := fun _ => hown .fav }
      · refine { hbase .fav with
          favorite := fun _ => hown .fav, text := fun _ => .inr (.inr (.inl (hown .fav)))
          text_of_type := fun htype => ?_, terms_of_text := nofun }
        -- No type is left over from before, since a type comes from another command.
        have htyped := (hbase .fav).type (.inl htype)
        rw [hown .fav] at htyped
        exact absurd htyped (by decide)
  | smart => exact Filter.coherent_empty _

/-- However a search is refined, sorted and started anew, whatever the clock shows and whatever is
consulted, the parts of every filter on the way hang together. -/
theorem run_coherent {c : Compiler} {turns : List Turn} {t : Transcript} {fs : List Filter}
    (h : ((c.run none turns).run t).1 = .ok fs) : ∀ f ∈ fs, f.Coherent :=
  forall_of_run_none (fun _ _ hprevious hf => hf.coherent hprevious) h

/-- A type is sorted, then taken back, and a date is asked for. -/
theorem run_coherent_python :
    let turn (input : String) : Turn :=
      { input, now := ⟨⟨2024, 5, 1, by decide, by decide, by decide⟩, .midnight⟩,
        outside := .replying "" }
    let inputs := ["/type python", "/newest", "/type", "/date yesterday"]
    ∃ fs, ((({} : Compiler).run none (inputs.map turn)).run {}).1 = .ok fs ∧
      fs.map (·.language) = [some "python", some "python", none, none] ∧
      ∀ f ∈ fs, f.Coherent := by
  intro turn inputs
  have hlanguages :
      ((({} : Compiler).run none (inputs.map turn)).run {}).1.toOption.map (·.map (·.language)) =
        some [some "python", some "python", none, none] := by
    decide +kernel
  cases hrun : ((({} : Compiler).run none (inputs.map turn)).run {}).1 with
  | error e => simp [hrun, Except.toOption] at hlanguages
  | ok fs => exact ⟨fs, rfl, by simpa [hrun, Except.toOption] using hlanguages, run_coherent hrun⟩

end Compiler

end Clipboard
