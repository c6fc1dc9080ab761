import Clipboard.Proofs.Fallible
import Clipboard.Search.Query

/-!
Runs of search inputs, each compiled after the filter before it, and what one input can make of that
filter.
-/

namespace Clipboard

open Calendar (DateRange Resolver ResolveFault)
open Fallible
open Remote (Attempt Outside Transcript)

/-- Some phrase at some moment means the days, whatever is consulted. -/
def Calendar.Resolver.Finds (r : Resolver) (range : DateRange) : Prop :=
  ∃ o now phrase relaxed t label strategy,
    ((r.resolve o now phrase relaxed).run t).1 = .ok (.found range label strategy)

theorem Query.mem_sortOrders_of_ofInput {input : List Char} {name : String}
    (h : Query.ofInput input = .order name) : name ∈ sortOrders := by
  unfold Query.ofInput at h
  split at h
  · cases h
  · split at h
    dsimp only at h
    split at h
    · rename_i hmem
      cases h
      exact List.contains_iff_mem.mp hmem
    · split at h <;> cases h
  · cases h

namespace Compiler

/-! ## Runs -/

/-- An input with the moment at which it is compiled and the outside as it is then. -/
structure Turn where
  input : String
  relaxed : Bool := false
  now : Calendar.Moment
  outside : Outside

/-- Compiles inputs in turn, the outside and the clock changing as they like. -/
def run (c : Compiler) (previous : Option Filter) : List Turn → Attempt ResolveFault (List Filter)
  | [] => return []
  | turn :: rest => do
    let f ← c.compile turn.outside turn.now turn.input previous turn.relaxed
    return f :: (← c.run (some f) rest)

/-- Inputs that are compiled at one moment make a run. -/
theorem compileAll_eq_run (o : Outside) (c : Compiler) (now : Calendar.Moment)
    (previous : Option Filter) (inputs : List (String × Bool)) :
    c.compileAll o now previous inputs =
      c.run previous (inputs.map fun (input, relaxed) => ⟨input, relaxed, now, o⟩) := by
  induction inputs generalizing previous with
  | nil => rfl
  | cons head rest ih => simp only [compileAll, List.map_cons, run, ih]

/-! ## One input -/

/-- What an input can make of the filter before it. -/
inductive Makes (c : Compiler) (previous : Option Filter) : Filter → Prop
  | nothing : Makes c previous {}
  | text (cs : List Char) (command : Option String)
      (h : command = none ∨ command = some Command.type.name ∨ command = some Command.smart.name) :
      Makes c previous (c.textFilter cs command)
  | order (name : String) (h : name ∈ sortOrders) :
      Makes c previous { previous.getD {} with sortOrder := some name }
  | noDate : Makes c previous
      { baseFor .date previous with dateRange := none, dateLabel := none, dateText := none }
  | foundDate (range : DateRange) (label : String) (h : c.dates.Finds range) : Makes c previous
      { baseFor .date previous with
        dateRange := some range, dateLabel := some label, dateText := none }
  | unknownDate (text label : String) : Makes c previous
      { baseFor .date previous with
        dateRange := none, dateLabel := some label, dateText := some text }
  | noType : Makes c previous { baseFor .type previous with contentType := none, language := none }
  | type (kind : String) (language : Option String) :
      Makes c previous (withType (baseFor .type previous) kind language)
  | app (name : List Char) : Makes c previous (appFilter (baseFor .app previous) name)
  | favorite (cs : List Char) : Makes c previous (c.favoriteFilter (baseFor .fav previous) cs)
  | smart : Makes c previous { command := some Command.smart.name }

variable {c : Compiler} {previous : Option Filter} {f : Filter} {o : Outside}
  {now : Calendar.Moment} {t : Transcript}

/-- A command starts from a filter of its own. -/
theorem command_baseFor (command : Command) :
    (baseFor command previous).command = some command.name := by
  unfold baseFor
  cases hp : previous.filter (·.command == some command.name) with
  | none => rfl
  | some p => simpa using (Option.filter_eq_some_iff.mp hp).2

theorem baseFor_of {P : Filter → Prop} {command : Command} (hprevious : ∀ p ∈ previous, P p)
    (hnew : P { command := some command.name }) : P (baseFor command previous) := by
  unfold baseFor
  cases hp : previous.filter (·.command == some command.name) with
  | none => exact hnew
  | some p => exact hprevious p (Option.filter_eq_some_iff.mp hp).1

theorem makes_typeFilter (phrase : List Char) :
    c.Makes previous (c.typeFilter o (baseFor .type previous) phrase t).1 := by
  have htext : c.Makes previous (c.textFilter phrase (some Command.type.name)) :=
    .text phrase _ (.inr (.inl rfl))
  unfold typeFilter
  split
  · exact .noType
  · cases namedType? phrase with
    | some answer => exact .type answer.1 answer.2
    | none =>
        dsimp only [bind, StateT.bind]
        rcases c.askedType? o phrase t with ⟨_ | ⟨kind, language⟩, t'⟩
        · exact htext
        · exact .type kind language

theorem makes_dateFilter {phrase : List Char} {relaxed : Bool}
    (h : ((c.dateFilter o now (baseFor .date previous) phrase relaxed).run t).1 = .ok f) :
    c.Makes previous f := by
  unfold dateFilter at h
  split at h
  · cases h
    exact .noDate
  · rw [bind_fst] at h
    obtain ⟨res, hres, h⟩ := bind_eq_ok_iff.mp h
    cases res with
    | found range label strategy =>
        cases h
        exact .foundDate range label ⟨_, _, _, _, _, _, _, hres⟩
    | unresolved label =>
        cases h
        exact .unknownDate _ label

/-- Whatever an input is and whatever is consulted, the filter that it gives is one of these. -/
theorem makes_of_compile {input : String} {relaxed : Bool}
    (h : ((c.compile o now input previous relaxed).run t).1 = .ok f) : c.Makes previous f := by
  unfold compile at h
  cases hquery : Query.ofInput input.toList with
  | nothing =>
      rw [hquery] at h
      cases h
      exact .nothing
  | text cs =>
      rw [hquery] at h
      cases h
      exact .text cs none (.inl rfl)
  | order name =>
      rw [hquery] at h
      cases h
      exact .order name (Query.mem_sortOrders_of_ofInput hquery)
  | command command argument =>
      rw [hquery] at h
      cases command with
      | date => exact makes_dateFilter h
      | type =>
          cases h
          exact makes_typeFilter argument
      | app =>
          cases h
          exact .app argument
      | fav =>
          cases h
          exact .favorite argument
      | smart =>
          cases h
          unfold smartFilter
          split
          · exact .smart
          · exact .text argument _ (.inr (.inr rfl))

theorem forall_of_run {P : Filter → Prop}
    (hstep : ∀ previous f, (∀ p ∈ previous, P p) → c.Makes previous f → P f) {turns : List Turn}
    {fs : List Filter} (hprevious : ∀ p ∈ previous, P p)
    (h : ((c.run previous turns).run t).1 = .ok fs) : ∀ f ∈ fs, P f := by
  induction turns generalizing previous fs t with
  | nil =>
      cases h
      exact List.forall_mem_nil _
  | cons turn rest ih =>
      rw [run, bind_fst] at h
      obtain ⟨f, hf, h⟩ := bind_eq_ok_iff.mp h
      rw [bind_fst] at h
      obtain ⟨gs, hgs, h⟩ := bind_eq_ok_iff.mp h
      cases h
      have hP : P f := hstep previous f hprevious (makes_of_compile hf)
      refine List.forall_mem_cons.mpr ⟨hP, ih ?_ hgs⟩
      rintro _ ⟨⟩
      exact hP

/-- What every input keeps holds of all filters of a run that starts without a filter. -/
theorem forall_of_run_none {P : Filter → Prop}
    (hstep : ∀ previous f, (∀ p ∈ previous, P p) → c.Makes previous f → P f) {turns : List Turn}
    {fs : List Filter} (h : ((c.run none turns).run t).1 = .ok fs) : ∀ f ∈ fs, P f :=
  forall_of_run hstep (fun _ hp => absurd hp (Option.not_mem_none _)) h

/-! ## Days and orders of a run -/

/-- The days of a filter are those of a phrase, and its order is one that there is. -/
structure Grounds (c : Compiler) (f : Filter) : Prop where
  range : ∀ range ∈ f.dateRange, c.dates.Finds range
  order : ∀ name ∈ f.sortOrder, name ∈ sortOrders

theorem Makes.grounds (hprevious : ∀ p ∈ previous, c.Grounds p) (h : c.Makes previous f) :
    c.Grounds f := by
  have hbase : ∀ command, c.Grounds (baseFor command previous) :=
    fun command => baseFor_of hprevious ⟨by simp, by simp⟩
  cases h with
  | nothing | smart => exact ⟨by simp, by simp⟩
  | text cs command h =>
      exact ⟨by simp [textFilter, Filter.ofText], by simp [textFilter, Filter.ofText]⟩
  | order name h =>
      refine ⟨?_, by simpa using h⟩
      cases previous with
      | none => simp
      | some p => exact (hprevious p rfl).range
  | noDate | unknownDate text label => exact ⟨by simp, (hbase .date).order⟩
  | foundDate range label h => exact ⟨by simpa using h, (hbase .date).order⟩
  | noType | type kind language => exact { hbase .type with }
  | app name => exact { hbase .app with }
  | favorite cs =>
      unfold favoriteFilter
      split <;> exact { hbase .fav with }

end Compiler

end Clipboard
