import Clipboard.Proofs.Calendar.Resolver
import Clipboard.Proofs.Remote.Asked
import Clipboard.Proofs.Remote.Unasked

/-!
The one question that search input can put to a model. It is put for a type that no word names, and for
days that neither the known phrases nor the parser tell. Without a question, and after a question to
which the reply is no answer, the filter is the one that a compiler without a model makes.
-/

namespace Clipboard

open Calendar (Moment Resolver)
open Fallible
open Remote (DateGuesser KindGuess Labeller Outside ParserSettings Reply Request Transcript objectIn)

/-! ## Days -/

namespace Calendar.Resolver

/-- The phrase is not blank, and neither the known phrases nor the parser have days for it. -/
structure LeavesOpen (o : Outside) (k : ParserSettings) (phrase : List Char) : Prop where
  words : Phrase.wordsOf phrase ≠ []
  unknown : Phrase.ofWords? (Phrase.wordsOf phrase) = none
  unfound : datesFound o k (Phrase.wordsOf phrase) = []

/-- The resolver without its model. -/
def unguessed (r : Resolver) : Resolver := { r with guesser := none }

variable {o : Outside} {k : ParserSettings} {r : Resolver} {now : Moment} {phrase : String} {relaxed : Bool}

theorem parsed_eq_none_iff {words : List String} :
    parsed o k words = .ok none ↔ datesFound o k words = [] := by
  unfold parsed
  cases datesFound o k words with
  | nil => simp
  | cons f others =>
      cases DayPart.mentioned (" ".intercalate words).toList with
      | error name => simp
      | ok part =>
          simp only [reduceCtorEq, iff_false]
          cases rangeOf o k part f others <;> rintro ⟨⟩

theorem resolve_unguessed
    (h : relaxed → LeavesOpen o (r.parserSettings now) phrase.toList → r.guesser = none) (t : Transcript) :
    (r.resolve o now phrase relaxed).run t = (r.unguessed.resolve o now phrase relaxed).run t := by
  have hsettings : r.unguessed.parserSettings now = r.parserSettings now := rfl
  unfold resolve
  rw [hsettings]
  dsimp only [unguessed]
  cases hwords : Phrase.wordsOf phrase.toList with
  | nil => rfl
  | cons w ws =>
      simp only [List.isEmpty_cons, Bool.false_eq_true, if_false]
      cases hphrase : Phrase.ofWords? (w :: ws) with
      | some p => rfl
      | none =>
          simp only [ite_self]
          rw [bind_run, bind_run]
          have hparsed := byParser_fst o (r.parserSettings now) (w :: ws) t
          rcases hrun : (byParser o (r.parserSettings now) (w :: ws)).run t with ⟨days, t'⟩
          rw [hrun] at hparsed
          cases days with
          | error f => rfl
          | ok days =>
              cases days with
              | some range => rfl
              | none =>
                  have hopen : LeavesOpen o (r.parserSettings now) phrase.toList := by
                    constructor
                    all_goals rw [hwords]
                    · simp
                    · exact hphrase
                    · exact parsed_eq_none_iff.mp hparsed.symm
                  cases hrelaxed : relaxed with
                  | false => rfl
                  | true => simp [h hrelaxed hopen]

/-- What the reply to the question for a phrase comes to. -/
def ofReply (phrase : String) (reply : Reply) : Resolution :=
  let asked := " ".intercalate (Phrase.wordsOf phrase.toList)
  match reply.text >>= objectIn >>= DateGuesser.guessOf asked with
  | .ok answer => .found answer.range answer.label .remote
  | .error _ => .unresolved (Text.trimString phrase)

theorem ofReply_of_not_succeeds {reply : Reply} (h : ¬Succeeds (reply.text >>= objectIn >>=
    DateGuesser.guessOf (" ".intercalate (Phrase.wordsOf phrase.toList)))) :
    ofReply phrase reply = .unresolved (Text.trimString phrase) := by
  unfold ofReply
  dsimp only
  split
  · rename_i answer hanswer
    exact absurd ⟨answer, hanswer⟩ h
  · rfl

/-- What is left open is left to the model, which nothing was asked before it. -/
theorem resolve_run_of_leavesOpen (h : LeavesOpen o k phrase.toList) (now : Moment) (t : Transcript) :
    ∃ t', t'.requests = t.requests ∧ ∀ (r : Resolver) (relaxed : Bool), r.parserSettings now = k →
      (r.resolve o now phrase relaxed).run t = match if relaxed then r.guesser else none with
        | none => (.ok (.unresolved (Text.trimString phrase)), t')
        | some g =>
          let request := g.request now (" ".intercalate (Phrase.wordsOf phrase.toList))
          (.ok (ofReply phrase (o.reply t.requests request)), t'.asked request) := by
  have hnothing := asksNothing_byParser o k (Phrase.wordsOf phrase.toList) t
  have hparsed := byParser_fst o k (Phrase.wordsOf phrase.toList) t
  rw [parsed_eq_none_iff.mpr h.unfound] at hparsed
  rcases hrun : (byParser o k (Phrase.wordsOf phrase.toList)).run t with ⟨days, t'⟩
  rw [hrun] at hnothing hparsed
  cases hparsed
  refine ⟨t', hnothing, fun r relaxed hsettings => ?_⟩
  have hsome : (Phrase.wordsOf phrase.toList).isEmpty = false := by
    simpa using h.words
  unfold resolve
  simp only [hsome, Bool.false_eq_true, if_false, h.unknown, hsettings]
  rw [bind_run, hrun]
  dsimp only
  cases if relaxed then r.guesser else none with
  | none => rfl
  | some g =>
      dsimp only
      rw [liftM_bind_run, g.guess_run, ← hnothing, ofReply]
      cases (o.reply t'.requests _).text >>= objectIn >>= DateGuesser.guessOf _ <;> rfl

end Calendar.Resolver

/-! ## Types -/

namespace Remote.Labeller

/-- The object in a reply names a known kind or a language. -/
def NamesKind (r : Reply) : Prop :=
  (∃ s, Json.lookup? "content_type" r.fields = some (.text s) ∧ Text.lowerString s ∈ kinds) ∨
    ∃ v cs, Json.lookup? "language" r.fields = some v ∧ v.chars? = some cs ∧ ¬Text.isBlank cs

theorem kind_kindOf_eq_none_iff (r : Reply) : (kindOf r.fields).kind = none ↔ ¬NamesKind r := by
  unfold kindOf NamesKind
  extract_lets kind
  have hkind : kind = none ↔ ¬∃ s, Json.lookup? "content_type" r.fields = some (.text s) ∧
      Text.lowerString s ∈ kinds := by
    unfold kind
    split
    · rename_i s hs
      simp [hs]
    · rename_i hnone
      refine iff_of_true rfl ?_
      rintro ⟨s, hs, -⟩
      exact hnone s hs
  have hlanguage : (∃ v cs, Json.lookup? "language" r.fields = some v ∧ v.chars? = some cs ∧
      ¬Text.isBlank cs) ↔
      ∃ cs, (Json.lookup? "language" r.fields).bind (·.chars?) = some cs ∧ ¬Text.isBlank cs := by
    simp only [Option.bind_eq_some_iff]
    constructor
    · rintro ⟨v, cs, hv, hcs, hblank⟩
      exact ⟨cs, ⟨v, hv, hcs⟩, hblank⟩
    · rintro ⟨cs, ⟨v, hv, hcs⟩, hblank⟩
      exact ⟨v, cs, hv, hcs, hblank⟩
  rw [not_or, ← hkind, hlanguage]
  cases (Json.lookup? "language" r.fields).bind (·.chars?) with
  | none => simp
  | some cs => by_cases hblank : Text.isBlank cs <;> simp [hblank]

end Remote.Labeller

/-- No language and no word for a type is in the phrase. -/
structure IsUnnamed (phrase : List Char) : Prop where
  language : Language.mentioned? (.ofList phrase) = none
  word : ∀ w ∈ Text.words (Text.lower phrase), typeWords.lookup (.ofList w) = none

theorem namedType?_eq_none_iff {phrase : List Char} :
    namedType? phrase = none ↔ IsUnnamed phrase := by
  unfold namedType?
  cases hlanguage : Language.mentioned? (.ofList phrase) with
  | some l =>
      refine iff_of_false nofun fun h => ?_
      rw [h.language] at hlanguage
      cases hlanguage
  | none =>
      rw [Option.map_eq_none_iff, List.findSome?_eq_none_iff]
      exact ⟨fun h => ⟨hlanguage, h⟩, fun h => h.word⟩

/-! ## Questions -/

/-- What a model may be asked on behalf of a search. -/
inductive Question
  | type (l : Labeller) (phrase : List Char)
  | date (g : DateGuesser) (now : Moment) (phrase : List Char)

namespace Question

def request : Question → Request
  | type l phrase => l.kindRequest (.ofList phrase)
  | date g now phrase => g.request now (" ".intercalate (Calendar.Phrase.wordsOf phrase))

/-- The reply is an object that names a kind or a language, or that has days for the phrase. -/
def IsAnswered (reply : Reply) : Question → Prop
  | type .. => Labeller.NamesKind reply
  | date _ _ phrase => Succeeds (reply.text >>= objectIn >>=
      DateGuesser.guessOf (" ".intercalate (Calendar.Phrase.wordsOf phrase)))

end Question

namespace Compiler

/-- The compiler without its models. -/
def unmodelled (c : Compiler) : Compiler :=
  { c with labeller := none, dates := c.dates.unguessed }

theorem isUnmodelled_unmodelled (c : Compiler) : c.unmodelled.IsUnmodelled := ⟨rfl, rfl⟩

variable (c : Compiler) (o : Outside) (now : Moment) (input : String)
  (previous : Option Filter) (relaxed : Bool) (t : Transcript)

/-- The question that input puts to a model that there is. -/
inductive Poses : Question → Prop
  | type {l : Labeller} {phrase : List Char} (h : Query.ofInput input.toList = .command .type phrase)
      (hgiven : phrase ≠ []) (hunnamed : IsUnnamed phrase) (hmodel : c.labeller = some l)
      (henabled : l.enabled) : Poses (.type l phrase)
  | date {g : DateGuesser} {phrase : List Char}
      (h : Query.ofInput input.toList = .command .date phrase) (hmode : relaxed ∨ c.smart)
      (hopen : Resolver.LeavesOpen o (c.dates.parserSettings now) phrase) (hmodel : c.dates.guesser = some g) :
      Poses (.date g now phrase)

theorem askedType?_run {l : Labeller} (hmodel : c.labeller = some l) (henabled : l.enabled)
    (phrase : List Char) :
    let request := l.kindRequest (.ofList phrase)
    let guess := Labeller.kindOf (o.reply t.requests request).fields
    c.askedType? o phrase t = (guess.kind.map (·, guess.language), t.asked request) := by
  intro request guess
  have hrun := l.inferKind_run o t (.ofList phrase)
  rw [if_pos henabled] at hrun
  unfold guess request askedType? Reply.fields
  generalize (o.reply t.requests (l.kindRequest (.ofList phrase))).text >>= objectIn = object
    at hrun ⊢
  simp only [hmodel, bind, StateT.bind, hrun]
  cases object <;> rfl

theorem askedType?_unasked (h : ∀ l, c.labeller = some l → ¬l.enabled) (phrase : List Char) :
    c.askedType? o phrase t = (none, t) := by
  unfold askedType?
  cases hmodel : c.labeller with
  | none => rfl
  | some l =>
      have hrun := l.inferKind_run o t (.ofList phrase)
      rw [if_neg (h l hmodel)] at hrun
      simp only [bind, StateT.bind, hrun]
      rfl

theorem typeFilter_of_isUnnamed {base : Filter} {phrase : List Char} (hgiven : phrase ≠ [])
    (hunnamed : IsUnnamed phrase) :
    c.typeFilter o base phrase t = (match (c.askedType? o phrase t).1 with
      | some (type, language) => withType base type language
      | none => c.textFilter phrase (some Command.type.name), (c.askedType? o phrase t).2) := by
  unfold typeFilter
  rw [if_neg (by simpa using hgiven), namedType?_eq_none_iff.mpr hunnamed]
  simp only [bind, StateT.bind]
  rcases c.askedType? o phrase t with ⟨answer, t'⟩
  cases answer <;> rfl

theorem typeFilter_unmodelled {phrase : List Char}
    (h : phrase = [] ∨ ¬IsUnnamed phrase ∨ ∀ l, c.labeller = some l → ¬l.enabled) (base : Filter) :
    c.typeFilter o base phrase t = c.unmodelled.typeFilter o base phrase t := by
  by_cases hblank : phrase = []
  · subst hblank
    rfl
  · by_cases hunnamed : IsUnnamed phrase
    · have hmodel := (h.resolve_left hblank).resolve_left (not_not.mpr hunnamed)
      rw [typeFilter_of_isUnnamed c o t hblank hunnamed,
        typeFilter_of_isUnnamed c.unmodelled o t hblank hunnamed, askedType?_unasked c o t hmodel]
      rfl
    · unfold typeFilter
      cases hnamed : namedType? phrase with
      | none => exact absurd (namedType?_eq_none_iff.mp hnamed) hunnamed
      | some type => rfl

/-- The filter with the days that a phrase is resolved to. -/
def dated (base : Filter) (phrase : List Char) : Calendar.Resolution → Filter
  | .found range label _ =>
    { base with dateRange := some range, dateLabel := some label, dateText := none }
  | .unresolved label =>
    { base with dateRange := none, dateLabel := some label, dateText := some (.ofList phrase) }

theorem dateFilter_run {phrase : List Char} (h : phrase ≠ []) (base : Filter) :
    (c.dateFilter o now base phrase relaxed).run t =
      let resolved := (c.dates.resolve o now (.ofList phrase) relaxed).run t
      (resolved.1.map (dated base phrase), resolved.2) := by
  unfold dateFilter
  rw [if_neg (by simpa using h), bind_run]
  rcases (c.dates.resolve o now (.ofList phrase) relaxed).run t with ⟨res | res, t'⟩
  · rfl
  · cases res <;> rfl

section

variable {input : String} {phrase : List Char}

theorem compile_type (h : Query.ofInput input.toList = .command .type phrase) :
    (c.compile o now input previous relaxed).run t =
      ((.ok (c.typeFilter o (baseFor .type previous) phrase t).1),
        (c.typeFilter o (baseFor .type previous) phrase t).2) := by
  unfold compile
  rw [h]
  rfl

theorem compile_date (h : Query.ofInput input.toList = .command .date phrase) :
    (c.compile o now input previous relaxed).run t =
      (c.dateFilter o now (baseFor .date previous) phrase (relaxed || c.smart)).run t := by
  unfold compile
  rw [h]

end

theorem compile_of_not_poses (h : ¬∃ q, c.Poses o now input relaxed q) :
    (c.compile o now input previous relaxed).run t =
      (c.unmodelled.compile o now input previous relaxed).run t := by
  cases hquery : Query.ofInput input.toList with
  | nothing | text cs | order name => simp only [compile, hquery] <;> rfl
  | command command phrase =>
      cases command with
      | app | fav | smart => simp only [compile, hquery] <;> rfl
      | type =>
          have hunasked : phrase = [] ∨ ¬IsUnnamed phrase ∨
              ∀ l, c.labeller = some l → ¬l.enabled := by
            by_contra! hasked
            obtain ⟨hgiven, hunnamed, l, hmodel, henabled⟩ := hasked
            exact h ⟨_, .type hquery hgiven hunnamed hmodel henabled⟩
          rw [compile_type c o now previous relaxed t hquery,
            compile_type c.unmodelled o now previous relaxed t hquery,
            typeFilter_unmodelled c o t hunasked]
      | date =>
          rw [compile_date c o now previous relaxed t hquery,
            compile_date c.unmodelled o now previous relaxed t hquery]
          by_cases hblank : phrase = []
          · subst hblank
            rfl
          · have hlocal : relaxed || c.smart →
                Resolver.LeavesOpen o (c.dates.parserSettings now) (String.ofList phrase).toList →
                c.dates.guesser = none := by
              intro hmode hopen
              by_contra hmodel
              obtain ⟨g, hmodel⟩ := Option.ne_none_iff_exists'.mp hmodel
              rw [String.toList_ofList] at hopen
              exact h ⟨_, .date hquery (by simpa using hmode) hopen hmodel⟩
            rw [dateFilter_run c o now _ t hblank, dateFilter_run c.unmodelled o now _ t hblank,
              Resolver.resolve_unguessed hlocal t]
            rfl

theorem compile_of_poses {q : Question} (h : c.Poses o now input relaxed q) :
    ((c.compile o now input previous relaxed).run t).2.requests = t.requests ++ [q.request] ∧
      (¬q.IsAnswered (o.reply t.requests q.request) →
        ((c.compile o now input previous relaxed).run t).1 =
          ((c.unmodelled.compile o now input previous relaxed).run t).1) := by
  cases h with
  | @type l phrase hquery hgiven hunnamed hmodel henabled =>
      rw [compile_type c o now previous relaxed t hquery,
        compile_type c.unmodelled o now previous relaxed t hquery,
        typeFilter_of_isUnnamed c o t hgiven hunnamed,
        typeFilter_of_isUnnamed c.unmodelled o t hgiven hunnamed,
        askedType?_run c o t hmodel henabled, askedType?_unasked c.unmodelled o t nofun]
      refine ⟨rfl, fun hanswer => ?_⟩
      have hnone := (Labeller.kind_kindOf_eq_none_iff _).mpr hanswer
      simp only [Question.request] at hnone
      rw [hnone]
      rfl
  | @date g phrase hquery hmode hopen hmodel =>
      have hgiven : phrase ≠ [] := by
        rintro rfl
        exact hopen.words rfl
      have hmode : (relaxed || c.smart) = true := by simpa using hmode
      rw [compile_date c o now previous relaxed t hquery,
        compile_date c.unmodelled o now previous relaxed t hquery,
        dateFilter_run c o now _ t hgiven, dateFilter_run c.unmodelled o now _ t hgiven]
      rw [← String.toList_ofList (l := phrase)] at hopen
      obtain ⟨t', hrequests, hresolve⟩ := Resolver.resolve_run_of_leavesOpen hopen now t
      have halone : (if relaxed || c.unmodelled.smart then c.unmodelled.dates.guesser else none) =
          none := ite_self none
      rw [hresolve c.dates _ rfl, hresolve c.unmodelled.dates _ rfl, if_pos hmode, hmodel, halone]
      simp only [String.toList_ofList]
      refine ⟨congrArg (· ++ [_]) hrequests, fun hanswer => ?_⟩
      rw [Resolver.ofReply_of_not_succeeds]
      rwa [String.toList_ofList]

/-- The model is asked exactly the questions that input puts to it, at most one. Without a question a
compiler does what it does without its models, and so it does, but for the request, if the reply does
not answer the question. Without its models it asks nothing. -/
theorem compile_poses :
    let run := (c.compile o now input previous relaxed).run t
    let alone := (c.unmodelled.compile o now input previous relaxed).run t
    alone.2.requests = t.requests ∧
      ((¬∃ q, c.Poses o now input relaxed q) → run = alone) ∧
      ∀ q, c.Poses o now input relaxed q → run.2.requests = t.requests ++ [q.request] ∧
        (¬q.IsAnswered (o.reply t.requests q.request) → run.1 = alone.1) :=
  ⟨asksNothing_compile c.isUnmodelled_unmodelled o now input previous relaxed t,
    c.compile_of_not_poses o now input previous relaxed t,
    fun _ => c.compile_of_poses o now input previous relaxed t⟩

end Compiler

end Clipboard
