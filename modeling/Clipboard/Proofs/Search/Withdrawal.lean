import Clipboard.Proofs.Classify.Model
import Clipboard.Proofs.Search.Describe
import Clipboard.Proofs.Search.Identity

/-!
Commands that are given again without their argument. What the argument asked for is asked no more,
whether it was understood or not, but for one case: a phrase that is no type is searched for as a text,
and the command for types alone leaves that text where it is.
-/

namespace Clipboard

open Calendar (Moment)
open Remote (Outside Transcript)
open Text (isBlank trim)

/-! ## Reading commands -/

namespace Query

variable (c : Command)

theorem trim_slash : trim ('/' :: c.name.toList) = '/' :: c.name.toList := by
  cases c <;> decide

theorem cutAt_name : Text.cutAt ' ' c.name.toList = (c.name.toList, none) := by
  cases c <;> rfl

theorem ofInput_alone : ofInput ('/' :: c.name.toList) = .command c [] :=
  ofInput_of_cutAt (trim_slash c) (cutAt_name c)

theorem ofInput_argument (argument : List Char) :
    ofInput ('/' :: (c.name.toList ++ ' ' :: argument)) = .command c (trim argument) := by
  by_cases hblank : isBlank argument
  · have hspace : isBlank (' ' :: argument) := by
      have hfirst : Text.isSpace ' ' := by decide
      simpa [isBlank, hfirst] using hblank
    have htrim : trim ('/' :: (c.name.toList ++ ' ' :: argument)) = '/' :: c.name.toList :=
      (Text.trim_append_of_isBlank hspace ('/' :: c.name.toList)).trans (trim_slash c)
    rw [ofInput_of_cutAt htrim (cutAt_name c), Text.trim_of_isBlank hblank]
    rfl
  · exact ofInput_command c hblank

end Query

namespace Compiler

/-- What a command makes of the filter before it when it has no argument. -/
def bareFilter (f : Filter) : Command → Filter
  | .date => { f with dateRange := none, dateLabel := none, dateText := none }
  | .type => { f with contentType := none, language := none }
  | .app => { f with sourceApp := none }
  | .fav => { f with favoritesOnly := true }
  | .smart => { command := some Command.smart.name }

variable {k : Compiler} {o : Outside} {now : Moment} {relaxed : Bool} {t : Transcript} {f : Filter}
  {command : Command}

theorem compile_alone {input : String} (h : Query.ofInput input.toList = .command command [])
    (previous : Option Filter) :
    (k.compile o now input previous relaxed).run t =
      (.ok (bareFilter (baseFor command previous) command), t) := by
  unfold compile
  rw [h]
  cases command <;> rfl

theorem baseFor_of_command (hcommand : f.command = some command.name) :
    baseFor command (some f) = f := by
  simp [baseFor, Option.filter_some, hcommand]

/-- Of a filter whose parts hang together a command alone leaves a text at most, and that only if it is
the command for types. -/
theorem isIdentity_bareFilter_iff (hf : f.Coherent) (hcommand : f.command = some command.name)
    (hfav : command ≠ .fav) :
    (bareFilter f command).isIdentity ↔ (command = .type → ¬Filter.isGiven f.freeText) := by
  cases command with
  | date =>
      obtain ⟨htype, hlanguage⟩ := hf.untyped (by rw [hcommand]; decide)
      have happ := hf.unsourced (by rw [hcommand]; decide)
      have hmark := hf.unmarked (by rw [hcommand]; decide)
      have hfree := hf.textless (.inr hcommand)
      simp [bareFilter, Filter.isIdentity, Filter.isGiven, htype, hlanguage, happ, hmark, hfree]
  | type =>
      obtain ⟨hrange, htext⟩ := hf.undated (by rw [hcommand]; decide)
      have happ := hf.unsourced (by rw [hcommand]; decide)
      have hmark := hf.unmarked (by rw [hcommand]; decide)
      simp [bareFilter, Filter.isIdentity, Filter.isGiven, hrange, htext, happ, hmark]
  | app =>
      obtain ⟨htype, hlanguage⟩ := hf.untyped (by rw [hcommand]; decide)
      obtain ⟨hrange, htext⟩ := hf.undated (by rw [hcommand]; decide)
      have hmark := hf.unmarked (by rw [hcommand]; decide)
      have hfree := hf.textless (.inl hcommand)
      simp [bareFilter, Filter.isIdentity, Filter.isGiven, htype, hlanguage, hrange, htext, hmark,
        hfree]
  | fav => exact absurd rfl hfav
  | smart => exact iff_of_true rfl fun h => by cases h

/-! ## Phrases that are no type -/

/-- No word of the phrase names a type, and no model tells one. -/
structure IsNoType (k : Compiler) (o : Outside) (t : Transcript) (phrase : List Char) : Prop where
  given : phrase ≠ []
  unnamed : IsUnnamed phrase
  untold : (k.askedType? o phrase t).1 = none

theorem typeFilter_of_isNoType {phrase : List Char} (h : k.IsNoType o t phrase) (base : Filter) :
    (k.typeFilter o base phrase t).1 = k.textFilter phrase (some Command.type.name) := by
  rw [typeFilter_of_isUnnamed k o t h.given h.unnamed, h.untold]

theorem typeFilter_of_not_isNoType {phrase : List Char} (h : ¬k.IsNoType o t phrase)
    (base : Filter) :
    let r := (k.typeFilter o base phrase t).1
    r = { base with contentType := none, language := none } ∨
      ∃ kind language, r = withType base kind language := by
  by_cases hgiven : phrase = []
  · subst hgiven
    exact .inl rfl
  · by_cases hunnamed : IsUnnamed phrase
    · rw [typeFilter_of_isUnnamed k o t hgiven hunnamed]
      cases htold : (k.askedType? o phrase t).1 with
      | none => exact absurd ⟨hgiven, hunnamed, htold⟩ h
      | some type => exact .inr ⟨type.1, type.2, rfl⟩
    · cases hnamed : namedType? phrase with
      | none => exact absurd (namedType?_eq_none_iff.mp hnamed) hunnamed
      | some type =>
          refine .inr ⟨type.1, type.2, ?_⟩
          rw [typeFilter, if_neg (by simpa using hgiven), hnamed]
          rfl

/-- Only a phrase that is no type leaves a text. -/
theorem isGiven_typeFilter_iff {phrase : List Char} {base : Filter} (hbase : base.freeText = none) :
    Filter.isGiven (k.typeFilter o base phrase t).1.freeText ↔ k.IsNoType o t phrase := by
  by_cases hno : k.IsNoType o t phrase
  · rw [typeFilter_of_isNoType hno]
    refine iff_of_true ?_ hno
    simpa [textFilter, Filter.ofText, Filter.isGiven] using Text.lower_ne_nil hno.given
  · have hnone : ¬Filter.isGiven none := by decide
    rcases typeFilter_of_not_isNoType hno base with hr | ⟨_, _, hr⟩
    · rw [hr, hbase]
      exact iff_of_false hnone hno
    · rw [hr]
      exact iff_of_false hnone hno

/-! ## Commands and their arguments -/

theorem command_of_compile {input : String} {argument : List Char}
    (hinput : Query.ofInput input.toList = .command command argument)
    (h : ((k.compile o now input none relaxed).run t).1 = .ok f) :
    f.command = some command.name := by
  have hbase : (baseFor command none).command = some command.name := command_baseFor command
  cases command with
  | date =>
      rw [compile_date k o now none relaxed t hinput] at h
      by_cases hgiven : argument = []
      · subst hgiven
        cases h
        exact hbase
      · rw [dateFilter_run k o now _ t hgiven] at h
        dsimp only at h
        cases hres : ((k.dates.resolve o now (.ofList argument) (relaxed || k.smart)).run t).1 with
        | error e =>
            rw [hres] at h
            cases h
        | ok res =>
            rw [hres] at h
            cases h
            cases res <;> exact hbase
  | type =>
      rw [compile_type k o now none relaxed t hinput] at h
      cases h
      by_cases hno : k.IsNoType o t argument
      · rw [typeFilter_of_isNoType hno]
        rfl
      · rcases typeFilter_of_not_isNoType hno (baseFor .type none) with hr | ⟨_, _, hr⟩ <;> rw [hr]
        · exact hbase
        · exact hbase
  | app =>
      simp only [compile, hinput] at h
      cases h
      exact hbase
  | fav =>
      simp only [compile, hinput] at h
      cases h
      unfold favoriteFilter
      split <;> exact hbase
  | smart =>
      simp only [compile, hinput] at h
      cases h
      unfold smartFilter
      split <;> rfl

/-- A command that is given alone, after itself with an argument, asks for nothing any more; nobody is
consulted for it. The exception is an argument that is no type. It is searched for as a text, and the
command for types alone leaves that filter as it is. -/
theorem isIdentity_withdrawn (k : Compiler) (command : Command) (hfav : command ≠ .fav)
    (argument : String) {o : Outside} {now : Moment} {relaxed : Bool} {t : Transcript} {f : Filter}
    (h : ((k.compile o now ("/" ++ command.name ++ " " ++ argument) none relaxed).run t).1 = .ok f)
    (o' : Outside) (now' : Moment) (relaxed' : Bool) (t' : Transcript) :
    let phrase := trim argument.toList
    let isText := command = .type ∧ k.IsNoType o t phrase
    ∃ f', (k.compile o' now' ("/" ++ command.name) (some f) relaxed').run t' = (.ok f', t') ∧
      (f'.isIdentity ↔ ¬isText) ∧
      (isText → f' = f ∧ f = k.textFilter phrase (some command.name)) := by
  intro phrase isText
  have hinput : Query.ofInput ("/" ++ command.name ++ " " ++ argument).toList =
      .command command phrase := by
    simpa using Query.ofInput_argument command argument.toList
  have halone : Query.ofInput ("/" ++ command.name).toList = .command command [] := by
    simpa using Query.ofInput_alone command
  have hcommand := command_of_compile hinput h
  have hf : f.Coherent := (makes_of_compile h).coherent fun _ hp => absurd hp (Option.not_mem_none _)
  have hbare := isIdentity_bareFilter_iff hf hcommand hfav
  refine ⟨_, compile_alone halone (some f), ?_⟩
  rw [baseFor_of_command hcommand]
  by_cases htype : command = .type
  · subst htype
    have hr := congrArg Prod.fst (compile_type k o now none relaxed t hinput)
    have hfilter : f = (k.typeFilter o (baseFor .type none) phrase t).1 :=
      Except.ok.inj (h.symm.trans hr)
    refine ⟨?_, fun ⟨_, hno⟩ => ?_⟩
    · rw [hbare, hfilter, isGiven_typeFilter_iff rfl]
      simp [isText]
    · have htext : f = k.textFilter phrase (some Command.type.name) :=
        hfilter.trans (typeFilter_of_isNoType hno _)
      refine ⟨?_, htext⟩
      rw [htext]
      rfl
  · refine ⟨hbare.trans (iff_of_true (fun h => absurd h htype) fun h => htype h.1), fun h => ?_⟩
    exact absurd h.1 htype

/-- A program is named and taken back. Fruit is no type, and stays as a text. -/
theorem isIdentity_withdrawn_banana :
    let now : Moment := ⟨⟨2024, 5, 1, by decide, by decide, by decide⟩, .midnight⟩
    let compile (input : String) (previous : Option Filter) :=
      ((({} : Compiler).compile (.replying "") now input previous false).run {}).1
    (∃ f f', compile "/app Mail" none = .ok f ∧ compile "/app" (some f) = .ok f' ∧ f'.isIdentity) ∧
      ∃ f f', compile "/type banana bread" none = .ok f ∧ compile "/type" (some f) = .ok f' ∧
        ¬f'.isIdentity := by
  intro now compile
  obtain ⟨f, hmail⟩ : ∃ f, compile "/app Mail" none = .ok f := ⟨_, rfl⟩
  obtain ⟨g, hbanana⟩ : ∃ g, compile "/type banana bread" none = .ok g := ⟨_, rfl⟩
  have hno : ({} : Compiler).IsNoType (.replying "") {} (trim "banana bread".toList) :=
    ⟨by decide, namedType?_eq_none_iff.mp (by decide +kernel), rfl⟩
  constructor
  · obtain ⟨f', hf', hiff, -⟩ := isIdentity_withdrawn {} .app (by decide) "Mail" hmail
      (.replying "") now false {}
    exact ⟨f, f', hmail, congrArg Prod.fst hf', hiff.mpr fun h => by cases h.1⟩
  · obtain ⟨f', hf', hiff, -⟩ := isIdentity_withdrawn {} .type (by decide) "banana bread"
      hbanana (.replying "") now false {}
    exact ⟨g, f', hbanana, congrArg Prod.fst hf', fun h => hiff.mp h ⟨rfl, hno⟩⟩

end Compiler

end Clipboard
