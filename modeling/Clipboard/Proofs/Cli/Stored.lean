import Clipboard.Proofs.Cli.Commands
import Clipboard.Proofs.Cli.Render
import Clipboard.Proofs.Collection.Outcome

/-!
Stored collections and the commands that leave them alone: those that only read, and those that fail.
A command that writes does so when nothing is left that could fail but the showing of what it did, and
that a collection of texts can be shown is kept from one command line to the next.
-/

namespace Clipboard.Cli

open Collection (Change Distinct HoldsDistinct State Value)
open Fallible
open Store (canBeStored snippetsKey textOf)
open Running

/-! ## Stored collections -/

/-- The stored text of the collection in the store at a path. -/
def World.stored (w : World) (path : String) : Option String :=
  (w.stores.lookup path).bind fun s => s.entries.lookup snippetsKey

/-- Every stored text is that of snippets of texts, no content twice. -/
def IsLegible (v : String → Option String) : Prop :=
  ∀ path, ∀ text ∈ v path, ∃ ss, text = textOf ss ∧ canBeStored ss ∧ Distinct ss

theorem lookup_setStore (path : String) (store : Store) (stores : List (String × Store))
    (path' : String) :
    (setStore path store stores).lookup path' =
      if path' = path then some store else stores.lookup path' := by
  induction stores with
  | nil => by_cases h : path' = path <;> simp [setStore, h]
  | cons head rest ih =>
      obtain ⟨p, s⟩ := head
      by_cases h : path' = p
      · subst h
        by_cases hp : path' = path <;> simp [setStore, hp]
      · have hne : (path' == p) = false := beq_false_of_ne h
        by_cases hp : p = path
        · simp [setStore, ← hp, List.lookup_cons, hne, h]
        · simp [setStore, hp, List.lookup_cons, hne, ih]

/-- The collection that is put back is the stored one at the place of the session. -/
theorem stored_keep (s : Session) (c : Collection) (p : Progress) (path : String) :
    (outcome (s.keep c) p).2.world.stored path =
      if s.place = some path then c.store.entries.lookup snippetsKey else p.world.stored path := by
  unfold Session.keep World.stored
  simp only [outcome_modify]
  cases s.place with
  | none => rfl
  | some place =>
      simp only [lookup_setStore, Option.some.injEq, eq_comm (a := path)]
      split <;> rfl

theorem entries_opened (x : Surroundings) (w : World) (path : String) :
    (opened x (some path) w).store.entries.lookup snippetsKey = w.stored path := by
  unfold opened World.stored
  cases h : w.stores.lookup path with
  | none => simp [h]
  | some s => simp [h]

theorem holdsDistinct_opened {x : Surroundings} {w : World} (h : IsLegible w.stored)
    (place : Option String) : HoldsDistinct (opened x place w).store.entries := by
  cases place with
  | none => nofun
  | some path =>
      intro text htext
      exact h path text (entries_opened x w path ▸ htext)

section

variable {x : Surroundings} {g : GlobalOptions} {v : String → Option String}

theorem keeps_stored_start : Keeps World.stored (Session.start x g) := by
  refine keeps_start (fun _ _ => rfl) fun s p => funext fun path => ?_
  rw [stored_keep]
  split
  · rename_i hplace
    rw [hplace, entries_opened]
  · rfl

/-! ## Sessions -/

/-- A collection of texts in memory, and in the store at the place of the session. -/
structure IsAt (v : String → Option String) (s : Session) (c : Collection) : Prop where
  distinct : State.IsDistinct ⟨c, {}⟩
  stored : ∀ path ∈ s.place, v path = c.store.entries.lookup snippetsKey

/-- A result that a command can give where these collections are stored. -/
def GivesFrom {α : Type} (v : String → Option String) (m : Running α) (a : α) : Prop :=
  ∃ p, p.world.stored = v ∧ (outcome m p).1 = .ok a

theorem GivesFrom.gives {α : Type} {m : Running α} {a : α} (h : GivesFrom v m a) : m.Gives a := by
  obtain ⟨p, -, hp⟩ := h
  exact ⟨p, hp⟩

theorem isAt_of_start (hv : IsLegible v) {s : Session} {c : Collection}
    (h : GivesFrom v (Session.start x g) (s, c)) : IsAt v s c := by
  obtain ⟨p, rfl, hp⟩ := h
  obtain ⟨-, ss, hload⟩ := of_start (Prod.ext hp rfl)
  have hopened : State.IsDistinct ⟨opened x s.place p.world, {}⟩ :=
    ⟨Distinct.nil, holdsDistinct_opened hv s.place⟩
  have hstore : (opened x s.place p.world).load.2.store = (opened x s.place p.world).store := by
    unfold Collection.load
    split <;> rfl
  have hdistinct := hopened.run_load Collection.silent
  change State.IsDistinct ⟨(opened x s.place p.world).load.2, {}⟩ at hdistinct
  rw [hload] at hdistinct hstore
  refine ⟨hdistinct, fun path hpath => ?_⟩
  have hplace : s.place = some path := hpath
  rw [hstore, hplace, entries_opened]

theorem candidates_subset {start : String} {ss found : List Snippet}
    (h : candidates start ss = .ok found) : found ⊆ ss := by
  induction ss generalizing found with
  | nil =>
      cases h
      exact List.Subset.refl []
  | cons s ss ih =>
      obtain ⟨keep, -, h⟩ := bind_eq_ok_iff.mp h
      obtain ⟨rest, hrest, h⟩ := bind_eq_ok_iff.mp h
      cases h
      cases keep with
      | true => exact List.cons_subset_cons s (ih hrest)
      | false => exact fun _ ht => List.mem_cons_of_mem s (ih hrest ht)

theorem mem_of_findSnippet {c : Collection} {id : String} {s : Snippet}
    (h : (findSnippet c id).Gives s) : s ∈ c.snippets := by
  obtain ⟨p, hp⟩ := h
  unfold findSnippet at hp
  split at hp
  · rename_i s' hget
    cases hp
    exact List.mem_of_find?_eq_some hget
  · obtain ⟨found, q, hfound, hp⟩ := outcome_bind_eq_ok_iff.mp (Prod.ext hp rfl)
    obtain ⟨hcandidates, -⟩ := outcome_orCrash_eq_ok_iff.mp hfound
    split at hp
    · cases hp
      exact candidates_subset hcandidates List.mem_cons_self
    · cases hp
    · cases hp

end

/-! ## Ends -/

/-- Nothing fails, and the world stays as it is. -/
structure IsQuiet {α : Type} (m : Running α) : Prop where
  ends : ∀ p, exitCodeOf (outcome m p).1 = 0
  kept : ∀ p, (outcome m p).2.world = p.world

namespace IsQuiet

variable {α β : Type}

theorem pure (a : α) : IsQuiet (Pure.pure a : Running α) := ⟨fun _ => rfl, fun _ => rfl⟩

theorem exit : IsQuiet (Running.exit 0 : Running α) := ⟨fun _ => rfl, fun _ => rfl⟩

theorem print (shown : Printed) : IsQuiet (Running.print shown) := ⟨fun _ => rfl, fun _ => rfl⟩

theorem say (s : String) : IsQuiet (Running.say s) := .print (.text s)

theorem render {r : Except RenderFault α} (h : Succeeds r) : IsQuiet (Cli.render r) := by
  obtain ⟨a, rfl⟩ := h
  exact .pure a

theorem sayWarning (c : Collection) : IsQuiet (sayWarning c) := by
  unfold Cli.sayWarning
  split
  · split
    · exact .pure ()
    · exact .say _
  · exact .pure ()

theorem bind {m : Running α} {f : α → Running β} (hm : IsQuiet m) (hf : ∀ a, IsQuiet (f a)) :
    IsQuiet (m >>= f) := by
  have hbind : ∀ p, exitCodeOf (outcome (m >>= f) p).1 = 0 ∧
      (outcome (m >>= f) p).2.world = p.world := by
    intro p
    have hends := hm.ends p
    have hkept := hm.kept p
    rw [outcome_bind]
    rcases ho : outcome m p with ⟨e | a, q⟩
    · rw [ho] at hends hkept
      exact ⟨hends, hkept⟩
    · rw [ho] at hkept
      exact ⟨(hf a).ends q, ((hf a).kept q).trans hkept⟩
  exact ⟨fun p => (hbind p).1, fun p => (hbind p).2⟩

end IsQuiet

/-- What is stored is legible afterwards, and the same as before if the command fails. -/
structure Spares {α : Type} (v : String → Option String) (m : Running α) : Prop where
  legible : ∀ p, p.world.stored = v → IsLegible (outcome m p).2.world.stored
  spared : ∀ p, p.world.stored = v → exitCodeOf (outcome m p).1 ≠ 0 →
    (outcome m p).2.world.stored = v

namespace Spares

variable {α β : Type} {v : String → Option String}

theorem of_keeps (hv : IsLegible v) {m : Running α} (hm : Keeps World.stored m) : Spares v m where
  legible p hp := by
    rw [hm.kept, hp]
    exact hv
  spared p hp _ := (hm.kept p).trans hp

theorem bind (hv : IsLegible v) {m : Running α} {f : α → Running β} (hm : Keeps World.stored m)
    (hf : ∀ a, GivesFrom v m a → Spares v (f a)) : Spares v (m >>= f) := by
  have hbind : ∀ p, p.world.stored = v → IsLegible (outcome (m >>= f) p).2.world.stored ∧
      (exitCodeOf (outcome (m >>= f) p).1 ≠ 0 → (outcome (m >>= f) p).2.world.stored = v) := by
    intro p hp
    have hkept := (hm.kept p).trans hp
    rw [outcome_bind]
    rcases ho : outcome m p with ⟨e | a, q⟩
    · rw [ho] at hkept
      have hq : q.world.stored = v := hkept
      exact ⟨by rwa [hq], fun _ => hq⟩
    · rw [ho] at hkept
      have ha := hf a ⟨p, hp, by rw [ho]⟩
      exact ⟨ha.legible q hkept, ha.spared q hkept⟩
  exact ⟨fun p hp => (hbind p hp).1, fun p hp => (hbind p hp).2⟩

/-- The outcome of a change is put back, and what it gives is shown. -/
theorem settle (hv : IsLegible v) {s : Session} {c : Collection} (hs : IsAt v s c)
    {o : Collection.Outcome α} {f : α → Value} (ho : (o.as f).IsSound c.store.entries)
    {k : α × Collection → Running β} (hk : ∀ a, (f a).IsTextual → IsQuiet (k (a, o.2))) :
    Spares v (s.settle o >>= k) := by
  have hlegible : ∀ p, p.world.stored = v →
      IsLegible (outcome (s.keep o.2) p).2.world.stored := by
    rintro p rfl path text htext
    rw [stored_keep] at htext
    split at htext
    · exact ho.stored text htext
    · exact hv path text htext
  obtain ⟨r, c'⟩ := o
  cases r with
  | error e =>
      -- A fault leaves the entries, so that what is put back is what was there.
      refine ⟨hlegible, ?_⟩
      rintro p rfl -
      funext path
      refine (stored_keep s c' p path).trans ?_
      split
      · rename_i hplace
        have hentries : c'.store.entries = c.store.entries := ho.unsaved e rfl
        rw [hentries]
        exact (hs.stored path hplace).symm
      · rfl
  | ok a =>
      -- After the change nothing can fail any more.
      have hquiet := hk a (ho.textual (f a) rfl)
      have hkept : ∀ p, (outcome (s.settle (.ok a, c') >>= k) p).2.world =
          (outcome (s.keep c') p).2.world := fun p => hquiet.kept (outcome (s.keep c') p).2
      refine ⟨fun p hp => ?_, fun p _ hfails => ?_⟩
      · rw [hkept]
        exact hlegible p hp
      · exact absurd (hquiet.ends (outcome (s.keep c') p).2) hfails

end Spares

/-! ## Commands -/

section

variable {x : Surroundings} {g : GlobalOptions} {v : String → Option String}

theorem keeps_stored_consult {α : Type} (m : Remote.Consult α) :
    Keeps World.stored (consult m) := ⟨fun _ => rfl⟩

/-- The commands that are there for their answers. -/
def Invocation.OnlyReads : Invocation → Prop
  | list .. | search .. | «show» .. | classify .. | resolveDate .. => True
  | _ => False

theorem keeps_stored_run {i : Invocation} (h : i.OnlyReads) : Keeps World.stored (i.run x g) := by
  cases i with
  | list view order => exact keeps_runList keeps_stored_start view order
  | search queries view order smart =>
      exact keeps_runSearch keeps_stored_start (fun _ _ _ _ => keeps_stored_consult _) queries ..
  | «show» id => exact keeps_runShow keeps_stored_start id
  | classify text app =>
      exact keeps_runClassify keeps_loadSettings (fun _ _ _ _ _ => keeps_stored_consult _) text app
  | resolveDate phrase smart =>
      exact keeps_runResolveDate keeps_loadSettings (fun _ _ _ _ _ => keeps_stored_consult _) ..
  | _ => cases h

variable (hv : IsLegible v)
include hv

theorem spares_start {f : Session × Collection → Running Unit}
    (hf : ∀ s c, IsAt v s c → Spares v (f (s, c))) : Spares v (Session.start x g >>= f) :=
  .bind hv keeps_stored_start fun (s, c) h => hf s c (isAt_of_start hv h)

theorem spares_find {c : Collection} {id : String} {f : Snippet → Running Unit}
    (hf : ∀ s ∈ c.snippets, Spares v (f s)) : Spares v (findSnippet c id >>= f) :=
  .bind hv (Keeps.findSnippet c id) fun s hs => hf s (mem_of_findSnippet hs.gives)

theorem spares_runCapture (text app : Option String) (fromInput : Bool) :
    Spares v (runCapture x g text app fromInput) := by
  rw [runCapture_eq]
  split
  · exact .of_keeps hv ((Keeps.say _).bind fun _ _ => .exit 1)
  · refine spares_start hv fun session c hat => .bind hv (keeps_stored_consult _) fun a ha => ?_
    obtain ⟨t, rfl⟩ := gives_consult ha.gives
    have hdistinct : State.IsDistinct ⟨c, t⟩ := ⟨hat.distinct.memory, hat.distinct.stored⟩
    refine .settle hv hat (Collection.isSound_handle _ _ hdistinct _ _) fun captured htextual => ?_
    cases captured with
    | none => exact .say _
    | some s =>
        have hs : s.IsTextual := htextual s rfl
        refine (IsQuiet.render (succeeds_joined hs.tags)).bind fun _ => (IsQuiet.say _).bind fun _ => ?_
        refine (IsQuiet.render (succeeds_panelOf hs)).bind fun _ => (IsQuiet.print _).bind fun _ => ?_
        exact .sayWarning _

theorem spares_runAddNote (id text : String) : Spares v (runAddNote x g id text) := by
  refine spares_start hv fun session c hat => spares_find hv fun s hs => ?_
  have hnote : (Change.addNote s.id (.text text)).IsTextual := rfl
  have hs := hat.distinct.memory.textual s hs
  refine .settle hv hat (Change.isSound Collection.silent hat.distinct hnote) fun noted _ => ?_
  refine (IsQuiet.render (succeeds_shortId hs.id)).bind fun _ => ?_
  exact (IsQuiet.say _).bind fun _ => .sayWarning _

theorem spares_runRemoveNote (id : String) (number : Int) :
    Spares v (runRemoveNote x g id number) := by
  refine spares_start hv fun session c hat => spares_find hv fun s hs => ?_
  dsimp only
  split
  · exact .of_keeps hv ((Keeps.say _).bind fun _ _ => .exit 1)
  · have hremoval : (Change.removeNote s.id (number - 1)).IsTextual := trivial
    have hsound := Change.isSound Collection.silent hat.distinct hremoval
    refine .settle hv hat hsound fun note hnote => ?_
    refine (IsQuiet.render (succeeds_previewOf hnote)).bind fun _ => ?_
    exact (IsQuiet.say _).bind fun _ => .sayWarning _

theorem spares_runFavorite (id : String) : Spares v (runFavorite x g id) := by
  refine spares_start hv fun session c hat => spares_find hv fun s hs => ?_
  have htoggle : (Change.toggleFavorite s.id).IsTextual := trivial
  have hshown : IsQuiet (idOf s) :=
    .render (succeeds_shortId (hat.distinct.memory.textual s hs).id)
  refine .settle hv hat (Change.isSound Collection.silent hat.distinct htoggle) fun mark _ => ?_
  dsimp only
  split
  · exact hshown.bind fun _ => (IsQuiet.say _).bind fun _ => .sayWarning _
  · exact hshown.bind fun _ => (IsQuiet.say _).bind fun _ => .sayWarning _

theorem spares_runDelete (id : String) : Spares v (runDelete x g id) := by
  refine spares_start hv fun session c hat => spares_find hv fun s hs => ?_
  have hdeletion : (Change.delete s.id).IsTextual := trivial
  have hs := hat.distinct.memory.textual s hs
  refine .settle hv hat (Change.isSound Collection.silent hat.distinct hdeletion) fun deleted _ => ?_
  refine (IsQuiet.render (succeeds_shortId hs.id)).bind fun _ => ?_
  refine (IsQuiet.render (succeeds_previewOf hs.content)).bind fun _ => ?_
  exact (IsQuiet.say _).bind fun _ => .sayWarning _

theorem spares_runClear (confirmed : Bool) : Spares v (runClear x g confirmed) := by
  refine spares_start hv fun session c hat => ?_
  have hdelete : Spares v (clearCollection session c) := by
    have hdeletion : Change.deleteAll.IsTextual := trivial
    refine .settle hv hat (Change.isSound Collection.silent hat.distinct hdeletion) fun count _ => ?_
    exact (IsQuiet.say _).bind fun _ => .sayWarning _
  dsimp only
  split
  · exact .of_keeps hv ((Keeps.say _).bind fun _ _ => .exit 0)
  · split
    · refine .bind hv (Keeps.write _) fun _ _ => ?_
      split
      · exact .of_keeps hv (.exit 1)
      · exact .of_keeps hv ((Keeps.say _).bind fun _ _ => .exit 0)
      · exact hdelete
    · exact hdelete

theorem spares_runDemo : Spares v (runDemo x g) := by
  refine spares_start hv fun session c hat => ?_
  have hsound := Collection.isSound_addDemo hat.distinct ⟨x.outside, session.classifier, x.newId⟩
  refine .settle hv hat hsound fun added hadded => ?_
  dsimp only
  split
  · exact (IsQuiet.say _).bind fun _ => .exit
  · refine (IsQuiet.render (succeeds_tableOf hadded _)).bind fun _ => ?_
    exact (IsQuiet.print _).bind fun _ => .sayWarning _

theorem spares_run (i : Invocation) : Spares v (i.run x g) := by
  cases i with
  | capture text app fromInput => exact spares_runCapture hv text app fromInput
  | addNote id text => exact spares_runAddNote hv id text
  | removeNote id number => exact spares_runRemoveNote hv id number
  | favorite id => exact spares_runFavorite hv id
  | delete id => exact spares_runDelete hv id
  | clear confirmed => exact spares_runClear hv confirmed
  | demo => exact spares_runDemo hv
  | version => exact .of_keeps hv (.write _)
  | _ => exact .of_keeps hv (keeps_stored_run trivial)

end

/-! ## Command lines -/

/-- The stores that command lines leave behind where there were none at first. Anything else may be
different from one command line to the next. -/
inductive AreMade : List (String × Store) → Prop
  | none : AreMade []
  | run (x : Surroundings) (w : World) (args : List String) (h : AreMade w.stores) :
      AreMade (runCommandLine x w args).world.stores

theorem isLegible_stored {w : World} (h : AreMade w.stores) : IsLegible w.stored := by
  generalize hstores : w.stores = stores at h
  induction h generalizing w with
  | none =>
      intro path text htext
      simp [World.stored, hstores] at htext
  | run x w' args h ih =>
      have hstored : w.stored = (runCommandLine x w' args).world.stored := by
        funext path
        simp only [World.stored, hstores]
      have hv := ih rfl
      rw [hstored]
      cases hargs : x.parse args with
      | error usage =>
          rw [world_runCommandLine_of_error hargs]
          exact hv
      | ok command =>
          rw [world_runCommandLine hargs]
          exact (spares_run hv command.2).legible _ rfl

/-- A command line that fails leaves all stored collections as they were, and so does one that only
asks for something. -/
theorem stored_runCommandLine (x : Surroundings) {w : World} (hw : AreMade w.stores)
    (args : List String)
    (h : (runCommandLine x w args).exitCode ≠ 0 ∨
      ∀ g i, x.parse args = .ok (g, i) → i.OnlyReads) :
    (runCommandLine x w args).world.stored = w.stored := by
  cases hargs : x.parse args with
  | error usage => rw [world_runCommandLine_of_error hargs]
  | ok command =>
      rw [exitCode_runCommandLine hargs] at h
      rw [world_runCommandLine hargs]
      rcases h with hfails | hreads
      · exact (spares_run (isLegible_stored hw) command.2).spared _ rfl hfails
      · exact (keeps_stored_run (hreads _ _ hargs)).kept _

/-- The world after the demo. -/
def demoed : World := (runCommandLine bare {} ["demo"]).world

theorem areMade_demoed : AreMade demoed.stores := by
  have hnone : AreMade ({} : World).stores := .none
  unfold demoed
  exact .run bare {} ["demo"] hnone

/-- After the demo a blank text is refused and some snippets are looked for. -/
theorem stored_runCommandLine_demoed :
    (runCommandLine bare demoed ["capture", " \n"]).exitCode = 1 ∧
      (runCommandLine bare demoed ["capture", " \n"]).world.stored = demoed.stored ∧
      (runCommandLine bare demoed ["search", "--smart", "/date yesterday"]).world.stored =
        demoed.stored := by
  have hcode : ∀ w, (runCommandLine bare w ["capture", " \n"]).exitCode = 1 := fun _ => rfl
  have hrefused : (runCommandLine bare demoed ["capture", " \n"]).exitCode ≠ 0 := by
    rw [hcode]
    exact Nat.one_ne_zero
  have hreads : ∀ g i, bare.parse ["search", "--smart", "/date yesterday"] =
      .ok (g, i) → i.OnlyReads := by
    rintro g i ⟨⟩
    trivial
  exact ⟨hcode demoed, stored_runCommandLine bare areMade_demoed _ (.inl hrefused),
    stored_runCommandLine bare areMade_demoed _ (.inr hreads)⟩

end Clipboard.Cli
