import Mathlib.Data.List.Pairwise
import Clipboard.Proofs.Collection.Distinct

/-!
What a change leaves alone. A snippet that is there before and after keeps everything but its notes
and its mark, and keeps its place among the others. The mark changes for no snippet but the one that
the change names, and the notes for no others than that one and those that have theirs in the same
list. A deletion takes the named one away and no other.
-/

namespace Clipboard.Collection

/-! ## Identifiers -/

/-- No identifier is that of two snippets. -/
def IdsDistinct (ss : List Snippet) : Prop :=
  ss.Pairwise fun s s' => ∀ id, hasId id s → ¬hasId id s'

theorem hasId_iff {s : Snippet} (h : s.id.isText) (id : Json) : hasId id s ↔ s.id = id :=
  Json.same_iff h

/-- Texts are distinct identifiers if no text is there twice. -/
theorem idsDistinct_iff {ss : List Snippet} (h : ∀ s ∈ ss, s.id.isText) :
    IdsDistinct ss ↔ (ss.map (·.id)).Nodup := by
  rw [IdsDistinct, List.Nodup, List.pairwise_map]
  constructor
  · refine List.Pairwise.imp_of_mem fun {s s'} hs hs' hne heq => ?_
    exact hne s.id ((hasId_iff (h s hs) _).mpr rfl) ((hasId_iff (h s' hs') _).mpr heq.symm)
  · refine List.Pairwise.imp_of_mem fun {s s'} hs hs' hne id hid hid' => ?_
    exact hne (((hasId_iff (h s hs) id).mp hid).trans ((hasId_iff (h s' hs') id).mp hid').symm)

theorem map_eq_self {α : Type} {l : List α} {f : α → α} (h : ∀ a ∈ l, f a = a) : l.map f = l :=
  (List.map_congr_left h).trans (List.map_id l)

section

variable {hs : List Held} {id : Json}

theorem IdsDistinct.eq_of_hasId (h : IdsDistinct (hs.map (·.snippet))) {x y : Held} (hx : x ∈ hs)
    (hy : y ∈ hs) (hid : hasId id x.snippet) (hid' : hasId id y.snippet) : x = y := by
  by_contra hne
  have hpairs : hs.Pairwise fun x y => ∀ id, hasId id x.snippet → ¬hasId id y.snippet :=
    List.pairwise_map.mp h
  have hsymm : Std.Symm fun x y : Held => ∀ id, hasId id x.snippet → ¬hasId id y.snippet :=
    ⟨fun _ _ h id hid hid' => h id hid' hid⟩
  exact hpairs.forall hx hy hne id hid hid'

/-- A change of the first snippet with an identifier is one of all that have it. -/
theorem IdsDistinct.change_eq_map (h : IdsDistinct (hs.map (·.snippet))) (f : Snippet → Snippet) :
    change id f hs = hs.map fun x => if hasId id x.snippet then x.edit f else x := by
  induction hs with
  | nil => rfl
  | cons x hs ih =>
      obtain ⟨hx, hhs⟩ := List.pairwise_cons.mp h
      by_cases hid : hasId id x.snippet
      · have hrest : (hs.map fun y => if hasId id y.snippet then y.edit f else y) = hs :=
          map_eq_self fun y hy => if_neg (hx y.snippet (List.mem_map_of_mem hy) id hid)
        simp [change, hid, hrest]
      · simp [change, hid, ih hhs]

theorem IdsDistinct.eraseP_eq_filter (h : IdsDistinct (hs.map (·.snippet))) :
    hs.eraseP (hasId id ·.snippet) = hs.filter (!hasId id ·.snippet) := by
  induction hs with
  | nil => rfl
  | cons x hs ih =>
      obtain ⟨hx, hhs⟩ := List.pairwise_cons.mp h
      by_cases hid : hasId id x.snippet
      · have hrest : (hs.filter fun y => !hasId id y.snippet) = hs :=
          List.filter_eq_self.mpr fun y hy => by
            simpa using hx y.snippet (List.mem_map_of_mem hy) id hid
        simp [hid, hrest]
      · simp [hid, ih hhs]

end

/-- Where only what has a property is equal to the first item with it, the first equal item is that
one. -/
theorem eraseP_of_find? {α : Type} {p q : α → Bool} {l : List α} {a : α} (h : l.find? p = some a)
    (ha : q a) (hq : ∀ b ∈ l, q b → p b) : l.eraseP q = l.eraseP p := by
  induction l with
  | nil => rfl
  | cons b l ih =>
      obtain ⟨hb, hl⟩ := List.forall_mem_cons.mp hq
      by_cases hp : p b
      · have hba : b = a := by simpa [hp] using h
        subst hba
        simp [hp, ha]
      · have hnot : ¬q b := fun hqb => hp (hb hqb)
        have hrest : l.find? p = some a := by simpa [hp] using h
        simp [hp, hnot, ih hrest hl]

/-! ## Shared lists -/

/-- Whether both have their notes in one list, which others may share. -/
def shares (x y : Held) : Bool := x.list.isSome && x.list == y.list

theorem shares_symm {x y : Held} (h : shares x y) : shares y x := by
  simp only [shares, Bool.and_eq_true, beq_iff_eq] at h ⊢
  exact ⟨h.2 ▸ h.1, h.2.symm⟩

theorem shares_trans {x y z : Held} (hxy : shares x y) (hyz : shares y z) : shares x z := by
  simp only [shares, Bool.and_eq_true, beq_iff_eq] at hxy hyz ⊢
  exact ⟨hxy.1, hxy.2.trans hyz.2⟩

/-- No list of notes is that of two snippets. -/
def ListsDistinct (hs : List Held) : Prop := hs.Pairwise fun x y => ¬shares x y

/-- A change of the notes of the one snippet with an identifier is one of all with the same list. -/
theorem IdsDistinct.changeNotes_eq_map {hs : List Held} (h : IdsDistinct (hs.map (·.snippet)))
    {id : Json} {x : Held} (hx : x ∈ hs) (hid : hasId id x.snippet) (f : List Json → List Json) :
    changeNotes id x.list f hs = hs.map fun y =>
      if hasId id y.snippet || shares x y then y.edit (·.withNotes f) else y := by
  cases hlist : x.list with
  | none => simpa [changeNotes, shares, hlist] using h.change_eq_map (·.withNotes f)
  | some l =>
      refine List.map_congr_left fun y hy => ?_
      have hiff : y.list = some l ↔ hasId id y.snippet ∨ shares x y := by
        have hnamed : hasId id y.snippet → y.list = some l := fun hid' =>
          h.eq_of_hasId hx hy hid hid' ▸ hlist
        have hshares : shares x y ↔ y.list = some l := by
          rw [shares, hlist, Option.isSome_some, Bool.true_and, beq_iff_eq, eq_comm]
        rw [hshares, or_iff_right_of_imp hnamed]
      simp only [hiff, Bool.or_eq_true]

theorem IdsDistinct.any_shares {hs : List Held} (h : IdsDistinct (hs.map (·.snippet))) {id : Json}
    {x : Held} (hx : x ∈ hs) (hid : hasId id x.snippet) (y : Held) :
    (hs.any fun z => hasId id z.snippet && shares z y) = shares x y := by
  rw [Bool.eq_iff_iff, List.any_eq_true]
  constructor
  · rintro ⟨z, hz, hboth⟩
    obtain ⟨hidz, hshares⟩ := (Bool.and_eq_true _ _).mp hboth
    exact h.eq_of_hasId hz hx hidz hid ▸ hshares
  · intro hshares
    exact ⟨x, hx, (Bool.and_eq_true _ _).mpr ⟨hid, hshares⟩⟩

/-! ## What a change is about -/

namespace Change

/-- Whether the change names the snippet for its notes. -/
def isOnNotes : Change → Snippet → Bool
  | addNote id _, s | removeNote id _, s => hasId id s
  | _, _ => false

/-- Whether the change names the snippet for its mark. -/
def isOnMark : Change → Snippet → Bool
  | toggleFavorite id, s => hasId id s
  | _, _ => false

/-- Whether the notes of the snippet are in the list that the change is about. -/
def reaches (hs : List Held) (μ : Change) (y : Held) : Bool :=
  μ.isOnNotes y.snippet || hs.any fun x => μ.isOnNotes x.snippet && shares x y

/-- The notes that the change is about, as it leaves them. -/
def editNotes (hs : List Held) : Change → List Json → List Json
  | addNote _ note, notes => notes ++ [note]
  | removeNote id index, notes =>
    let place := (hs.find? (hasId id ·.snippet)).bind (notePlace? ·.snippet.notes index)
    place.elim notes notes.eraseIdx
  | _, notes => notes

/-- The snippet as the change leaves it. -/
def revise (hs : List Held) (μ : Change) (x : Held) : Held :=
  x.edit fun s => { s with
    notes := if μ.reaches hs x then μ.editNotes hs s.notes else s.notes
    isFavorite := if μ.isOnMark s then !s.isFavorite else s.isFavorite }

def removes : Change → Snippet → Bool
  | delete id, s => hasId id s
  | deleteAll, _ => true
  | _, _ => false

def inserts : Change → Bool
  | capture .. | add _ => true
  | _ => false

/-- All is kept but what the change is about. -/
structure Spares (hs : List Held) (μ : Change) (x y : Held) : Prop where
  rest : y = x.edit fun s => { s with notes := y.snippet.notes, isFavorite := y.snippet.isFavorite }
  notes : ¬μ.reaches hs x → y.snippet.notes = x.snippet.notes
  mark : ¬μ.isOnMark x.snippet → y.snippet.isFavorite = x.snippet.isFavorite

section

variable {hs : List Held} {μ : Change}

theorem spares_revise (hs : List Held) (μ : Change) (x : Held) : μ.Spares hs x (μ.revise hs x) where
  rest := rfl
  notes h := by simp [revise, Held.edit, h]
  mark h := by simp [revise, Held.edit, h]

/-- Where no list is shared a change of notes reaches the snippet that it names. -/
theorem reaches_iff (h : ListsDistinct hs) {x : Held} (hx : x ∈ hs) :
    μ.reaches hs x ↔ μ.isOnNotes x.snippet := by
  have hsymm : Std.Symm fun x y : Held => ¬shares x y :=
    ⟨fun _ _ h h' => h (shares_symm h')⟩
  rw [reaches, Bool.or_eq_true, or_iff_left_of_imp]
  intro hany
  obtain ⟨y, hy, hboth⟩ := List.any_eq_true.mp hany
  obtain ⟨hnamed, hshares⟩ := (Bool.and_eq_true _ _).mp hboth
  by_cases hxy : y = x
  · exact hxy ▸ hnamed
  · exact absurd hshares (List.Pairwise.forall h hy hx hxy)

/-- A change that names no snippet for its mark. -/
theorem revise_of_notes (hmark : ∀ s, μ.isOnMark s = false) (y : Held) : μ.revise hs y =
    if μ.reaches hs y then y.edit (·.withNotes (μ.editNotes hs)) else y := by
  by_cases hreaches : μ.reaches hs y = true
  · simp [revise, hmark, hreaches, Held.edit, Snippet.withNotes]
  · simp [revise, hmark, hreaches, Held.edit]

theorem revise_eq_self (hmark : ∀ s, μ.isOnMark s = false)
    (hnotes : ∀ x ∈ hs, ¬μ.isOnNotes x.snippet) {y : Held} (hy : y ∈ hs) : μ.revise hs y = y := by
  have hreaches : μ.reaches hs y = false := by
    simp only [reaches, Bool.or_eq_false_iff, List.any_eq_false]
    exact ⟨by simpa using hnotes y hy, fun x hx => by simp [hnotes x hx]⟩
  rw [revise_of_notes hmark, hreaches]
  rfl

end

end Change

/-! ## What a change does -/

section

variable {m : Memory} {id : Json}

theorem forall_held_of_lacks (h : m.Lacks id) : ∀ x ∈ m.held, ¬hasId id x.snippet :=
  fun x hx => h x.snippet (List.mem_map_of_mem hx)

theorem held_withNotes (h : IdsDistinct m.snippets) {μ : Change}
    (hnotes : ∀ s, μ.isOnNotes s = hasId id s) (hmark : ∀ s, μ.isOnMark s = false) {x : Held}
    (hx : m.held.find? (hasId id ·.snippet) = some x) :
    (m.withNotes id x.list (μ.editNotes m.held)).held = m.held.map (μ.revise m.held) := by
  have hmem : x ∈ m.held := List.mem_of_find?_eq_some hx
  have hid : hasId id x.snippet := by simpa using List.find?_some hx
  rw [Memory.withNotes, h.changeNotes_eq_map hmem hid]
  refine List.map_congr_left fun y _ => ?_
  have hreaches : μ.reaches m.held y = (hasId id y.snippet || shares x y) := by
    simp only [Change.reaches, hnotes, h.any_shares hmem hid]
  rw [Change.revise_of_notes hmark, hreaches]

theorem held_addNote (h : IdsDistinct m.snippets) (note : Json) :
    let μ : Change := .addNote id note
    (m.onSnippet id fun x => .save (.snippet (x.snippet.withNotes (· ++ [note])))
      (m.withNotes id x.list (· ++ [note]))).memory.held = m.held.map (μ.revise m.held) := by
  intro μ
  obtain ⟨hlacks, heffect⟩ | ⟨x, hx, heffect⟩ := m.onSnippet_cases id _
  · rw [heffect]
    exact (map_eq_self fun y hy =>
      μ.revise_eq_self (fun _ => rfl) (forall_held_of_lacks hlacks) hy).symm
  · rw [heffect]
    exact held_withNotes (μ := μ) h (fun _ => rfl) (fun _ => rfl) hx

theorem held_removeNote (h : IdsDistinct m.snippets) (index : Int) :
    let μ : Change := .removeNote id index
    (m.removeNote id index).memory.held = m.held.map (μ.revise m.held) := by
  intro μ
  obtain ⟨hlacks, heffect⟩ | ⟨x, hx, hcases⟩ := m.removeNote_cases id index
  · rw [heffect]
    exact (map_eq_self fun y hy =>
      μ.revise_eq_self (fun _ => rfl) (forall_held_of_lacks hlacks) hy).symm
  have hwith := held_withNotes (μ := μ) h (fun _ => rfl) (fun _ => rfl) hx
  have hedit : μ.editNotes m.held = fun notes =>
      (notePlace? x.snippet.notes index).elim notes notes.eraseIdx := by
    funext notes
    simp only [μ, Change.editNotes, hx, Option.bind_some]
  -- Where there is no such note, the notes are changed to what they are.
  have hnone (hplace : notePlace? x.snippet.notes index = none) :
      m.held = m.held.map (μ.revise m.held) := by
    have hsame : μ.editNotes m.held = fun notes => notes := by rw [hedit, hplace]; rfl
    refine (map_eq_self fun y _ => ?_).symm
    rw [Change.revise_of_notes (fun _ => rfl), hsame]
    exact ite_self y
  obtain ⟨i, note, hplace, -, heffect⟩ | ⟨-, hplace, heffect⟩ | ⟨-, hplace, f, -, heffect⟩ := hcases
  · rw [heffect, ← hwith, hedit, hplace]
    rfl
  · rw [heffect]
    exact hnone hplace
  · rw [heffect]
    exact hnone hplace

theorem held_toggleFavorite (h : IdsDistinct m.snippets) :
    let μ : Change := .toggleFavorite id
    let toggled (s : Snippet) : Snippet := { s with isFavorite := !s.isFavorite }
    (m.onSnippet id fun x => .save (.mark !x.snippet.isFavorite)
      { m with held := change id toggled m.held }).memory.held = m.held.map (μ.revise m.held) := by
  intro μ toggled
  have hrevise (y : Held) :
      μ.revise m.held y = if hasId id y.snippet then y.edit toggled else y := by
    by_cases hid : hasId id y.snippet
    · simp [μ, toggled, Change.revise, Change.reaches, Change.isOnNotes, Change.isOnMark, Held.edit,
        hid]
    · simp [μ, Change.revise, Change.reaches, Change.isOnNotes, Change.isOnMark, Held.edit, hid]
  obtain ⟨hlacks, heffect⟩ | ⟨x, -, heffect⟩ := m.onSnippet_cases id _
  · rw [heffect]
    refine (map_eq_self fun y hy => ?_).symm
    rw [hrevise, if_neg (forall_held_of_lacks hlacks y hy)]
  · rw [heffect, List.map_congr_left fun y _ => hrevise y]
    exact IdsDistinct.change_eq_map h toggled

theorem held_delete (id : Json) :
    (m.onSnippet id fun x => .save (.snippet x.snippet)
      { m with held := m.held.eraseP (hasId id ·.snippet) }).memory.held =
      m.held.eraseP (hasId id ·.snippet) := by
  obtain ⟨hlacks, heffect⟩ | ⟨x, -, heffect⟩ := m.onSnippet_cases id _
  · rw [heffect]
    exact (List.eraseP_of_forall_not (forall_held_of_lacks hlacks)).symm
  · rw [heffect]
    rfl

theorem exists_added_capture (w : Surroundings) (e : CaptureEvent) (now : Calendar.Moment) :
    ∃ added, (m.capture w e now).memory.held = m.held ++ added := by
  obtain ⟨r, asked, -, heffect⟩ | ⟨-, x, asked, -, heffect⟩ := m.capture_cases w e now
  · exact ⟨[], by rw [heffect]; exact (List.append_nil _).symm⟩
  · exact ⟨[.own x], by rw [heffect]; rfl⟩

theorem fresh_sublist (known : List Json) (hs : List Held) : (fresh known hs).1.Sublist hs := by
  induction hs generalizing known with
  | nil => exact List.Sublist.refl []
  | cons x hs ih =>
      rw [fresh]
      split
      · exact List.nil_sublist _
      · split
        · exact (ih known).cons x
        · exact (ih _).cons_cons x

theorem exists_added_add (hs : List Held) : ∃ added, (m.add hs).memory.held = m.held ++ added ∧
    added.Sublist hs := by
  have hnone : ∃ added, m.held = m.held ++ added ∧ added.Sublist hs :=
    ⟨[], (List.append_nil _).symm, List.nil_sublist hs⟩
  have hfresh := fresh_sublist (m.snippets.map (·.content)) hs
  unfold Memory.add
  split
  · exact hnone
  · generalize fresh (m.snippets.map (·.content)) hs = r at hfresh
    split
    · exact hnone
    · exact ⟨_, rfl, hfresh⟩
    · exact ⟨_, rfl, hfresh⟩

/-- What is not removed is revised in its place, and what is new comes after it. -/
theorem held_effect (w : Surroundings) (h : IdsDistinct m.snippets) (μ : Change) :
    ∃ added, (μ.effect w m).memory.held =
      (m.held.filter (!μ.removes ·.snippet)).map (μ.revise m.held) ++ added ∧
      (μ.inserts ∨ added = []) := by
  have hall (hμ : ∀ s, μ.removes s = false) :
      m.held.filter (!μ.removes ·.snippet) = m.held :=
    List.filter_eq_self.mpr fun x _ => by simp [hμ x.snippet]
  have hkept (hnotes : ∀ s, ¬μ.isOnNotes s) (hmark : ∀ s, μ.isOnMark s = false) :
      (m.held.filter (!μ.removes ·.snippet)).map (μ.revise m.held) =
        m.held.filter (!μ.removes ·.snippet) :=
    map_eq_self fun y hy =>
      μ.revise_eq_self hmark (fun x _ => hnotes x.snippet) (List.mem_of_mem_filter hy)
  cases μ with
  | capture e now =>
      obtain ⟨added, heffect⟩ := exists_added_capture (m := m) w e now
      refine ⟨added, ?_, .inl rfl⟩
      rw [hkept (fun _ => Bool.false_ne_true) fun _ => rfl, hall fun _ => rfl]
      exact heffect
  | add hs =>
      obtain ⟨added, heffect, -⟩ := exists_added_add (m := m) hs
      refine ⟨added, ?_, .inl rfl⟩
      rw [hkept (fun _ => Bool.false_ne_true) fun _ => rfl, hall fun _ => rfl]
      exact heffect
  | addNote id note =>
      refine ⟨[], ?_, .inr rfl⟩
      rw [hall fun _ => rfl, List.append_nil]
      exact held_addNote h note
  | removeNote id index =>
      refine ⟨[], ?_, .inr rfl⟩
      rw [hall fun _ => rfl, List.append_nil]
      exact held_removeNote h index
  | toggleFavorite id =>
      refine ⟨[], ?_, .inr rfl⟩
      rw [hall fun _ => rfl, List.append_nil]
      exact held_toggleFavorite h
  | delete id =>
      refine ⟨[], ?_, .inr rfl⟩
      rw [hkept (fun _ => Bool.false_ne_true) fun _ => rfl, List.append_nil]
      exact (held_delete id).trans (IdsDistinct.eraseP_eq_filter h)
  | deleteAll => exact ⟨[], by simp [Change.effect, Change.removes, Effect.memory], .inr rfl⟩

end

theorem held_run (w : Surroundings) (s : State) (μ : Change) :
    (μ.run w s).2.collection.held = (μ.effect w s.memory).memory.held := by
  rw [Change.run_eq, Effect.settle_eq]
  rfl

/-! ## Notes in one list -/

/-- Snippets that have their notes in one list have the same ones. -/
def NotesAgree (hs : List Held) : Prop :=
  ∀ x ∈ hs, ∀ y ∈ hs, shares x y → x.snippet.notes = y.snippet.notes

namespace NotesAgree

variable {hs : List Held}

theorem subset {l : List Held} (h : NotesAgree hs) (hl : l ⊆ hs) : NotesAgree l :=
  fun x hx y hy => h x (hl hx) y (hl hy)

theorem append_own (h : NotesAgree hs) (s : Snippet) : NotesAgree (hs ++ [.own s]) := by
  have hown (x : Held) : ¬shares x (.own s) := by
    cases hlist : x.list <;> simp [shares, Held.own, hlist]
  intro x hx y hy hshares
  rcases List.mem_append.mp hx with hx | hx
  · rcases List.mem_append.mp hy with hy | hy
    · exact h x hx y hy hshares
    · exact absurd (List.mem_singleton.mp hy ▸ hshares) (hown x)
  · exact absurd (shares_symm (List.mem_singleton.mp hx ▸ hshares)) (hown y)

/-- A change reaches all that have their notes in a list, or none of them. -/
theorem map_revise (h : NotesAgree hs) (μ : Change) : NotesAgree (hs.map (μ.revise hs)) := by
  have hreaches {x y : Held} (hx : x ∈ hs) (hshares : shares x y) (hxy : μ.reaches hs x) :
      μ.reaches hs y := by
    refine (Bool.or_eq_true _ _).mpr (.inr (List.any_eq_true.mpr ?_))
    rcases (Bool.or_eq_true _ _).mp hxy with hnamed | hany
    · exact ⟨x, hx, (Bool.and_eq_true _ _).mpr ⟨hnamed, hshares⟩⟩
    · obtain ⟨z, hz, hboth⟩ := List.any_eq_true.mp hany
      obtain ⟨hnamed, hzx⟩ := (Bool.and_eq_true _ _).mp hboth
      exact ⟨z, hz, (Bool.and_eq_true _ _).mpr ⟨hnamed, shares_trans hzx hshares⟩⟩
  intro x' hx' y' hy' hshares
  obtain ⟨x, hx, rfl⟩ := List.mem_map.mp hx'
  obtain ⟨y, hy, rfl⟩ := List.mem_map.mp hy'
  have hshares : shares x y := hshares
  have hiff : μ.reaches hs x = μ.reaches hs y :=
    Bool.eq_iff_iff.mpr ⟨hreaches hx hshares, hreaches hy (shares_symm hshares)⟩
  simp only [Change.revise, Held.edit, hiff, h x hx y hy hshares]

end NotesAgree

/-- Notes in one list stay the same for all that share it, if that is so of what is added. -/
theorem notesAgree_run (w : Surroundings) {s : State} (h : IdsDistinct s.collection.snippets)
    (μ : Change) (hagree : NotesAgree s.collection.held)
    (hadd : ∀ hs, μ = .add hs → NotesAgree (s.collection.held ++ hs)) :
    NotesAgree (μ.run w s).2.collection.held := by
  rw [held_run]
  have hchanged (hμ : μ.inserts = false) : NotesAgree (μ.effect w s.memory).memory.held := by
    obtain ⟨added, heffect, hadded⟩ := held_effect w (m := s.memory) h μ
    obtain rfl : added = [] := by simpa [hμ] using hadded
    rw [heffect, List.append_nil]
    exact (hagree.map_revise μ).subset (List.map_subset _ (List.filter_subset_self _))
  cases μ with
  | capture e now =>
      obtain ⟨r, asked, -, heffect⟩ | ⟨-, x, asked, -, heffect⟩ := s.memory.capture_cases w e now
      · rw [Change.effect, heffect]
        exact hagree
      · rw [Change.effect, heffect]
        exact hagree.append_own x
  | add hs =>
      obtain ⟨added, heffect, hadded⟩ := exists_added_add (m := s.memory) hs
      rw [Change.effect, heffect]
      exact (hadd hs rfl).subset (hadded.append_left _).subset
  | _ => exact hchanged rfl

/-- A change of a collection whose identifiers are distinct leaves the snippets it does not remove in
their order, each with all that it had but the notes or the mark that the change is about; only a
capture and an addition put snippets after them. Notes are changed in a list, and so for all that
share it, who have the same ones afterwards, too; if no list is shared, for the named snippet alone. A
deletion of the first snippet equal to the one with the identifier takes away the same one, if snippets
that are equal have the same identifier. -/
theorem run_spares (w : Surroundings) {s : State} (h : IdsDistinct s.collection.snippets)
    (μ : Change) :
    let before := s.collection.held
    let after := (μ.run w s).2.collection.held
    (∃ added, after = (before.filter (!μ.removes ·.snippet)).map (μ.revise before) ++ added ∧
      (μ.inserts ∨ added = [])) ∧
    (∀ x, μ.Spares before x (μ.revise before x)) ∧
    (ListsDistinct before → ∀ x ∈ before, (μ.reaches before x ↔ μ.isOnNotes x.snippet)) ∧
    (NotesAgree before → (∀ hs, μ = .add hs → NotesAgree (before ++ hs)) → NotesAgree after) ∧
    ∀ id x, μ = .delete id → before.find? (hasId id ·.snippet) = some x →
      ∀ equal : Snippet → Bool, equal x.snippet →
        (∀ y ∈ before, equal y.snippet → hasId id y.snippet) →
        after = before.eraseP (equal ·.snippet) := by
  intro before after
  have hafter : after = (μ.effect w s.memory).memory.held := held_run w s μ
  refine ⟨?_, μ.spares_revise before, fun hlists x hx => Change.reaches_iff hlists hx,
    notesAgree_run w h μ, ?_⟩
  · rw [hafter]
    exact held_effect (m := s.memory) w h μ
  · rintro id x rfl hx equal hequal hids
    rw [hafter, eraseP_of_find? hx hequal hids]
    exact held_delete id

/-- Of two snippets the first one is deleted. -/
theorem run_spares_greeting :
    let g := Store.greeting ⟨0, by decide⟩
    let other := { g with id := .text "2" }
    let s : State := ⟨{ held := [.own g, .own other] }, {}⟩
    IdsDistinct s.collection.snippets ∧
      ((Change.delete (.text "1")).run silent s).2.collection.snippets = [other] := by
  intro g other s
  have hids : IdsDistinct s.collection.snippets := by
    have htext : ∀ x ∈ s.collection.snippets, x.id.isText :=
      List.forall_mem_cons.mpr ⟨rfl, List.forall_mem_singleton.mpr rfl⟩
    exact (idsDistinct_iff htext).mpr (by simp [s, g, other, snippets, Held.own, Store.greeting])
  obtain ⟨⟨added, hafter, hadded⟩, -⟩ := run_spares silent hids (.delete (.text "1"))
  refine ⟨hids, ?_⟩
  have hnone : added = [] := by simpa [Change.inserts] using hadded
  rw [snippets, hafter, hnone]
  rfl

/-- Two snippets are added, and the first one gets a note. The second one has another identifier, but
its notes in the same list: it has the note too. -/
theorem run_spares_shared :
    let g := Store.greeting ⟨0, by decide⟩
    let other := { g with id := .text "2", content := .text "Moin" }
    let note := Json.text "ship it"
    let s := ((Change.add [⟨g, some 0⟩, ⟨other, some 0⟩]).run silent ⟨{}, {}⟩).2
    let after := ((Change.addNote (.text "1") note).run silent s).2
    s.collection.snippets = [g, other] ∧ IdsDistinct s.collection.snippets ∧
      after.collection.snippets = [g.withNotes (· ++ [note]), other.withNotes (· ++ [note])] ∧
      other.withNotes (· ++ [note]) ≠ other := by
  intro g other note s after
  have hids : IdsDistinct [g, other] := by
    have htext : ∀ x ∈ [g, other], x.id.isText :=
      List.forall_mem_cons.mpr ⟨rfl, List.forall_mem_singleton.mpr rfl⟩
    exact (idsDistinct_iff htext).mpr (by simp [g, other, Store.greeting])
  have hbefore : s.collection.snippets = [g, other] := by
    simp only [s, snippets, held_run]
    rfl
  have hafter : after.collection.snippets =
      [g.withNotes (· ++ [note]), other.withNotes (· ++ [note])] := by
    simp only [after, snippets, held_run]
    rfl
  refine ⟨hbefore, hbefore ▸ hids, hafter, fun h => ?_⟩
  have hnotes := congrArg (·.notes.length) h
  simp [Snippet.withNotes] at hnotes

end Clipboard.Collection
