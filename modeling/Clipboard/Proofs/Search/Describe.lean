import Clipboard.Proofs.Calendar.Periods
import Clipboard.Proofs.Search.Coherence
import Clipboard.Proofs.Search.Match
import Clipboard.Proofs.Search.Question
import Clipboard.Proofs.Text.Lower

/-!
Input that describes a snippet: by its type, by its language, by the name of where it came from, or by
the day. Whatever the compiler, the filter for such input asks for what the snippet has.
-/

namespace Clipboard

open Calendar (Date DateRange Moment)
open Fallible (bind_eq_ok_iff)
open Remote (Outside Transcript)
open Text (dropWhileEnd hasPart isBlank isSpace lower trim)

/-! ## Commands with an argument -/

theorem Text.cutAt_append {sep : Char} {front : List Char} (h : front.all (· != sep))
    (back : List Char) : cutAt sep (front ++ sep :: back) = (front, some back) := by
  have hfront := List.all_eq_true.mp h
  rw [cutAt, List.dropWhile_append_of_pos hfront, List.takeWhile_append_of_pos hfront]
  simp

theorem Command.name_spec (command : Command) :
    command.name.toList.all (· != ' ') ∧ String.ofList (lower command.name.toList) = command.name ∧
      command.name ∉ sortOrders ∧ ofName? command.name = some command := by
  cases command <;> decide +kernel

theorem Query.ofInput_of_cutAt {command : Command} {input rest : List Char}
    {argument : Option (List Char)} (htrim : trim input = '/' :: rest)
    (hcut : Text.cutAt ' ' rest = (command.name.toList, argument)) :
    ofInput input = .command command (trim (argument.getD [])) := by
  obtain ⟨-, hlower, horder, hcommand⟩ := command.name_spec
  simp [ofInput, htrim, hcut, hlower, horder, hcommand]

theorem Query.ofInput_command (command : Command) {argument : List Char} (h : ¬isBlank argument) :
    ofInput ('/' :: (command.name.toList ++ ' ' :: argument)) =
      .command command (trim argument) := by
  have hslash : isSpace '/' = false := by decide
  have htrim : trim ('/' :: (command.name.toList ++ ' ' :: argument)) =
      '/' :: (command.name.toList ++ ' ' :: dropWhileEnd isSpace argument) := by
    rw [trim, List.dropWhile_cons_of_neg (by simp [hslash])]
    have happend := Text.dropWhileEnd_append h ('/' :: command.name.toList ++ [' '])
    simpa using happend
  rw [ofInput_of_cutAt htrim (Text.cutAt_append command.name_spec.1 _), Option.getD_some,
    Text.trim_dropWhileEnd]

theorem Query.ofInput_append (command : Command) (front argument : String)
    (hfront : front.toList = '/' :: (command.name.toList ++ [' ']))
    (h : ¬isBlank argument.toList) :
    ofInput (front ++ argument).toList = .command command (trim argument.toList) := by
  have hcommand := ofInput_command command h
  rw [String.toList_append, hfront]
  simpa using hcommand

/-! ## Conditions that a snippet meets -/

theorem Kind.name_spec (k : Kind) :
    ¬isBlank k.name.toList ∧ trim k.name.toList = k.name.toList := by
  cases k <;> decide

theorem Language.name_spec (l : Language) :
    ¬isBlank l.name.toList ∧ trim l.name.toList = l.name.toList := by
  cases l <;> decide

/-- The kinds that are told without a model, or with one. -/
def tellableKinds : List Kind := [.code, .link, .color, .message, .text]

namespace Matcher

/-- The filter asks for one thing, which the snippet has, and for no text. -/
structure Suits (m : Matcher) (s : Snippet) (f : Filter) : Prop where
  all : f.favoritesOnly = false
  order : f.sortOrder = none
  textless : f.freeText = none ∧ f.terms = []
  app : given f.sourceApp (isFrom s) = .ok true
  type : given f.contentType (hasType s) = .ok true
  language : given f.language (m.hasLanguage s) = .ok true
  date : hasDate s f = .ok true
  plain : ∀ range ∈ f.dateRange, range.IsPlain

theorem Suits.accepts {m : Matcher} {s : Snippet} {f : Filter} (h : m.Suits s f) :
    m.accepts f s = .ok true := by
  simp [Matcher.accepts, h.all, h.textless.1, h.textless.2, h.app, h.type, h.language, h.date,
    Filter.isGiven, bind, Except.bind, pure, Except.pure]

theorem isFrom_of_source {s : Snippet} {name wanted : String} (happ : ∀ app ∈ s.app, app.name.isText)
    (hsource : s.source = .text name) (hpart : hasPart (lower wanted.toList) (lower name.toList)) :
    isFrom s wanted = .ok true := by
  have hsource : (do return holds (← lowered s.source) (Text.lowerString wanted) :
      Except Search.Fault Bool) = .ok true := by
    rw [hsource]
    have hholds : holds [lower name.toList] (Text.lowerString wanted) := by
      simpa [holds, Text.lowerString] using hpart
    exact congrArg Except.ok hholds
  unfold isFrom
  cases hs : s.app with
  | none => exact hsource
  | some app =>
      obtain ⟨texts, hnamed⟩ := lowered_succeeds_iff.mpr (happ app hs)
      cases hshown : holds texts (Text.lowerString wanted) with
      | true => simp [hnamed, hshown, bind, Except.bind, pure, Except.pure]
      | false => simpa [hnamed, hshown, bind, Except.bind, pure, Except.pure] using hsource

/-- A kind that can be told is found by its name. -/
theorem namedType?_name {k : Kind} (h : k ∈ tellableKinds) :
    ∃ type, namedType? k.name.toList = some (type, none) ∧
      ∀ s : Snippet, s.kind = k → given (some type) (hasType s) = .ok true := by
  simp only [tellableKinds, List.mem_cons, List.not_mem_nil, or_false] at h
  rcases h with rfl | rfl | rfl | rfl | rfl
  · exact ⟨"code", by decide +kernel, fun s hs => by simp [given, hasType, hs]⟩
  · exact ⟨"link", by decide +kernel, fun s hs => by simp [given, hasType, hs]⟩
  · exact ⟨"color", by decide +kernel, fun s hs => by simp [given, hasType, hs]⟩
  · exact ⟨"text", by decide +kernel, fun s hs => by simp [given, hasType, hs]⟩
  · exact ⟨"text", by decide +kernel, fun s hs => by simp [given, hasType, hs]⟩

theorem namedType?_language (l : Language) :
    namedType? l.name.toList = some ("code", some l.name) := by
  cases l <;> decide +kernel

theorem hasLanguage_of_shown {m : Matcher} {s : Snippet} {text : String} {l : Language}
    (hcontent : s.content = .text text) (h : m.languageOf? text.toList = some l) :
    m.hasLanguage s l.name = .ok true := by
  have hagrees : Language.agrees l.name (some l.name) := by
    cases l <;> decide +kernel
  have hread : textOf .notSearchable s.content = .ok text.toList := by
    rw [hcontent]
    rfl
  rw [hasLanguage, hread]
  change Except.ok (Language.agrees l.name ((m.languageOf? text.toList).map (·.name))) = _
  rw [h]
  exact congrArg Except.ok hagrees

section

variable {m : Matcher} {s : Snippet}

theorem suits_withType {type : String} {language : Option String}
    (htype : given (some type) (hasType s) = .ok true)
    (hlanguage : given language (m.hasLanguage s) = .ok true) :
    m.Suits s (Compiler.withType { command := some Command.type.name } type language) where
  all := rfl
  order := rfl
  textless := ⟨rfl, rfl⟩
  app := rfl
  type := htype
  language := by
    unfold Compiler.withType
    dsimp only
    split
    · exact hlanguage
    · rfl
  date := rfl
  plain := by simp [Compiler.withType]

theorem suits_appFilter {name : List Char} (h : isFrom s (.ofList name) = .ok true) :
    m.Suits s (Compiler.appFilter { command := some Command.app.name } name) where
  all := rfl
  order := rfl
  textless := ⟨rfl, rfl⟩
  app := by
    unfold Compiler.appFilter given
    dsimp only
    cases name.isEmpty with
    | true => rfl
    | false => simp [h]
  type := rfl
  language := rfl
  date := rfl
  plain := by simp [Compiler.appFilter]

theorem suits_dated {range : DateRange} (hrange : range.IsPlain)
    (h : range.contains s.moment = .ok true) (phrase : List Char) (label : String)
    (strategy : Calendar.Strategy) :
    m.Suits s (Compiler.dated { command := some Command.date.name } phrase
      (.found range label strategy)) where
  all := rfl
  order := rfl
  textless := ⟨rfl, rfl⟩
  app := rfl
  type := rfl
  language := rfl
  date := by
    unfold hasDate
    exact congrArg (Except.mapError Search.Fault.calendar) h
  plain := by simpa [Compiler.dated] using hrange

end

end Matcher

/-! ## The current day -/

namespace Calendar

/-- A moment without an offset lies in its day. -/
theorem DateRange.contains_days_self {m : Moment} (h : m.offset = none) :
    (DateRange.days m.date m.date).contains m = .ok true :=
  (covers_day m.date m h).eq_ok_true rfl

theorem Resolver.resolve_today (r : Resolver) (o : Outside) (now : Moment) (relaxed : Bool)
    (t : Transcript) : ∃ label, ((r.resolve o now "today" relaxed).run t).1 =
      .ok (.found (.days now.date now.date) label .phraseTable) := by
  have hphrase : Phrase.ofWords? (Phrase.wordsOf "today".toList) =
      some (.day (.shifted 0) none) := by decide +kernel
  have hon : Phrase.on now.date r.preferPast (.day (.shifted 0) none) =
      .ok (.days now.date now.date) :=
    bind_eq_ok_iff.mpr ⟨now.date, Date.addDays_eq_ok_iff.mpr (Int.add_zero _).symm, rfl⟩
  obtain ⟨label, hrun⟩ := knows_of_on hphrase hon o relaxed t
  exact ⟨label, congrArg Prod.fst hrun⟩

end Calendar

/-! ## Queries for a snippet -/

/-- Input that names the type of a snippet, the language that its tags name, where it came from, or the
current day. -/
inductive Describes (x : Snippet) : String → Prop
  | type : Describes x ("/type " ++ x.kind.name)
  | language (l : Language) (h : x.tags = [.text "code", .text l.name]) :
      Describes x ("/type " ++ l.name)
  | source (name : String) (h : x.source = .text name) (hname : ¬isBlank name.toList) :
      Describes x ("/app " ++ name)
  | today : Describes x "/date today"

/-- What holds of a snippet that was captured at a moment and classified without a model. -/
structure IsFresh (c : Classifier) (now : Moment) (x : Snippet) : Prop where
  textual : x.IsTextual
  moment : x.moment = now
  kind : x.kind ∈ tellableKinds
  language : ∀ l : Language, x.tags = [.text "code", .text l.name] →
    x.kind = .code ∧ ∃ text, x.content = .text text ∧ c.languageOf? text.toList = some l

section

variable {c : Classifier} {now : Moment} {x : Snippet} {query : String} (k : Compiler)
  (o : Outside) (relaxed : Bool) (t : Transcript) (ratio : Float)

theorem compile_named {argument : List Char} {type : String} {language : Option String}
    (hquery : Query.ofInput query.toList = .command .type argument) (hgiven : argument ≠ [])
    (hnamed : namedType? argument = some (type, language)) :
    ((k.compile o now query none relaxed).run t).1 =
      .ok (Compiler.withType { command := some Command.type.name } type language) := by
  rw [k.compile_type o now none relaxed t hquery]
  unfold Compiler.typeFilter
  rw [if_neg (by simpa using hgiven), hnamed]
  rfl

/-- Whatever model the compiler has, input that describes a snippet gives a filter for it. -/
theorem compile_of_describes (hx : IsFresh c now x) (hnow : now.offset = none)
    (hquery : Describes x query) :
    ∃ f, ((k.compile o now query none relaxed).run t).1 = .ok f ∧
      Matcher.Suits ⟨c.languageOf?, ratio⟩ x f := by
  cases hquery with
  | type =>
      obtain ⟨hgiven, htrim⟩ := x.kind.name_spec
      obtain ⟨type, hnamed, htype⟩ := Matcher.namedType?_name hx.kind
      have hinput := Query.ofInput_append .type "/type " _ (by decide) hgiven
      rw [htrim] at hinput
      exact ⟨_, compile_named k o relaxed t hinput (htrim ▸ Text.trim_ne_nil hgiven) hnamed,
        Matcher.suits_withType (htype x rfl) rfl⟩
  | language l h =>
      obtain ⟨hgiven, htrim⟩ := l.name_spec
      obtain ⟨hkind, text, hcontent, hshown⟩ := hx.language l h
      have hinput := Query.ofInput_append .type "/type " _ (by decide) hgiven
      rw [htrim] at hinput
      refine ⟨_, compile_named k o relaxed t hinput (htrim ▸ Text.trim_ne_nil hgiven)
        (Matcher.namedType?_language l), Matcher.suits_withType ?_ ?_⟩
      · simp [Matcher.given, Matcher.hasType, hkind]
      · have hfound := Matcher.hasLanguage_of_shown (m := ⟨c.languageOf?, ratio⟩) hcontent hshown
        simp [Matcher.given, hfound]
  | source name h hname =>
      have hinput := Query.ofInput_append .app "/app " name (by decide) hname
      have hcompile : ((k.compile o now ("/app " ++ name) none relaxed).run t).1 =
          .ok (Compiler.appFilter { command := some Command.app.name } (trim name.toList)) := by
        unfold Compiler.compile
        rw [hinput]
        rfl
      have hpart := Text.hasPart_lower_trim name.toList
      rw [← String.toList_ofList (l := trim name.toList)] at hpart
      exact ⟨_, hcompile, Matcher.suits_appFilter (Matcher.isFrom_of_source hx.textual.app h hpart)⟩
  | today =>
      have hinput := Query.ofInput_append .date "/date " "today" (by decide) (by decide)
      have htrim : trim "today".toList = "today".toList := by decide
      obtain ⟨label, hresolve⟩ := k.dates.resolve_today o now (relaxed || k.smart) t
      have hcompile : ((k.compile o now "/date today" none relaxed).run t).1 = .ok
          (Compiler.dated { command := some Command.date.name } "today".toList
            (.found (.days now.date now.date) label .phraseTable)) := by
        rw [htrim] at hinput
        have hdate := k.compile_date o now none relaxed t hinput
        rw [k.dateFilter_run o now _ t (by decide)] at hdate
        exact (congrArg Prod.fst hdate).trans (congrArg (Except.map _) hresolve)
      have hcontains := DateRange.contains_days_self hnow
      refine ⟨_, hcompile, Matcher.suits_dated (DateRange.isPlain_days _ _) ?_ _ label _⟩
      rw [hx.moment]
      exact hcontains

end

end Clipboard
