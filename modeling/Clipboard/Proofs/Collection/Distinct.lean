import Mathlib.Data.List.Infix
import Mathlib.Data.List.Nodup
import Clipboard.Proofs.Collection.Run

/-!
No content twice: neither in memory nor in the store, whatever operations are run and whichever of
their saves fail. A capture and an addition of snippets both look for the content first; a load only
brings back what was saved.
-/

namespace Clipboard

/-! ## Texts -/

namespace Json

theorem isAtom_of_isText {v : Json} (h : v.isText) : v.isAtom := by
  cases v with
  | text _ => rfl
  | torn _ => rfl
  | _ => cases h

theorem same_iff {v w : Json} (hv : v.isText) : v.same w ↔ v = w := by
  cases v with
  | text s => cases w <;> simp [same, sameNumber, fraction?]
  | torn ps => cases w <;> simp [same, sameNumber, fraction?]
  | _ => cases hv

theorem any_same_iff {vs : List Json} (hvs : ∀ v ∈ vs, v.isText) {w : Json} :
    (vs.any fun v => v.same w) ↔ w ∈ vs := by
  rw [List.any_eq_true]
  constructor
  · rintro ⟨v, hv, hsame⟩
    rwa [← (same_iff (hvs v hv)).mp hsame]
  · intro h
    exact ⟨w, h, (same_iff (hvs w h)).mpr rfl⟩

end Json

theorem Snippet.IsTextual.restored {s : Snippet} (h : s.IsTextual) : s.restored.IsTextual where
  id := h.id
  content := h.content
  source := h.source
  app a ha := by
    obtain ⟨b, hb, rfl⟩ := Option.map_eq_some_iff.mp ha
    exact h.app b hb
  tags := h.tags
  notes := h.notes
  own := h.own

namespace Collection

open Remote (Transcript)
open Store (canBeStored snippetsKey textOf)

/-- What the snippets hold, in order. -/
def contents (ss : List Snippet) : List Json := ss.map (·.content)

/-! ## Additions -/

/-- The snippets whose content is neither known nor the content of a snippet before them. -/
def firsts (known : List Json) (ss : List Snippet) : List Snippet :=
  ((ss.inits.zip ss).filter fun (before, s) =>
    !(known ++ contents before).any (·.same s.content)).map (·.2)

theorem firsts_congr {known known' : List Json} {ss : List Snippet}
    (h : ∀ s ∈ ss, known.any (·.same s.content) = known'.any (·.same s.content)) :
    firsts known ss = firsts known' ss := by
  simp only [firsts, List.any_append]
  congr 1
  refine List.filter_congr fun p hp => ?_
  rw [h p.2 (List.of_mem_zip hp).2]

theorem firsts_cons (known : List Json) (s : Snippet) (ss : List Snippet) :
    firsts known (s :: ss) =
      if known.any (·.same s.content) then firsts (s.content :: known) ss
      else s :: firsts (s.content :: known) ss := by
  have hrest : ((((ss.inits.map (s :: ·)).zip ss).filter fun (before, t) =>
      !(known ++ contents before).any (·.same t.content)).map (·.2)) =
        firsts (s.content :: known) ss := by
    rw [List.zip_map_left, List.filter_map, List.map_map, firsts]
    congr 1
    refine List.filter_congr fun p _ => ?_
    simp [contents, Bool.and_left_comm]
  simp only [firsts, List.inits_cons, List.zip_cons_cons, List.filter_cons] at hrest ⊢
  rw [← hrest]
  cases hany : known.any (·.same s.content) with
  | true => simp [contents, hany]
  | false => simp [contents, hany]

/-- Of snippets with texts the first ones of each content are added. -/
theorem exists_fresh {known : List Json} {hs : List Held} (hknown : ∀ v ∈ known, v.isText)
    (hhs : ∀ h ∈ hs, h.snippet.content.isText) : ∃ added, fresh known hs = (added, true) ∧
      added.map (·.snippet) = firsts known (hs.map (·.snippet)) := by
  induction hs generalizing known with
  | nil => exact ⟨[], rfl, rfl⟩
  | cons h hs ih =>
      obtain ⟨hh, hhs⟩ := List.forall_mem_cons.mp hhs
      have hatom : (!h.snippet.content.isAtom) = false := by rw [Json.isAtom_of_isText hh]; rfl
      have hknown' : ∀ v ∈ h.snippet.content :: known, v.isText :=
        List.forall_mem_cons.mpr ⟨hh, hknown⟩
      simp only [fresh, hatom, List.map_cons, firsts_cons]
      by_cases hany : known.any (·.same h.snippet.content) = true
      · have hmem := (Json.any_same_iff hknown).mp hany
        have hcongr : firsts known (hs.map (·.snippet)) =
            firsts (h.snippet.content :: known) (hs.map (·.snippet)) := by
          refine firsts_congr fun t ht => ?_
          rw [Bool.eq_iff_iff, Json.any_same_iff hknown,
            Json.any_same_iff hknown', List.mem_cons]
          constructor
          · exact .inr
          · rintro (h | h)
            · rwa [h]
            · exact h
        simpa [hany, ← hcongr] using ih hknown hhs
      · obtain ⟨added, hadded, hfirsts⟩ := ih hknown' hhs
        exact ⟨h :: added, by simp [hany, hadded], by simp [hany, hfirsts]⟩

section

variable {known : List Json} {ss : List Snippet}

theorem firsts_sublist : (firsts known ss).Sublist ss := by
  induction ss generalizing known with
  | nil => exact List.Sublist.refl []
  | cons s ss ih =>
      rw [firsts_cons]
      split
      · exact ih.cons s
      · exact ih.cons_cons s

theorem not_mem_known_of_mem_firsts (hknown : ∀ v ∈ known, v.isText)
    (hss : ∀ s ∈ ss, s.content.isText) {s : Snippet} (h : s ∈ firsts known ss) :
    s.content ∉ known := by
  induction ss generalizing known with
  | nil => cases h
  | cons t ss ih =>
      obtain ⟨ht, hss⟩ := List.forall_mem_cons.mp hss
      have hrest : s ∈ firsts (t.content :: known) ss → s.content ∉ known := fun h hm =>
        ih (List.forall_mem_cons.mpr ⟨ht, hknown⟩) hss h (List.mem_cons_of_mem _ hm)
      rw [firsts_cons] at h
      split at h
      · exact hrest h
      · rename_i hany
        rcases List.mem_cons.mp h with rfl | h
        · rwa [Json.any_same_iff hknown] at hany
        · exact hrest h

theorem nodup_contents_firsts (hknown : ∀ v ∈ known, v.isText)
    (hss : ∀ s ∈ ss, s.content.isText) : (contents (firsts known ss)).Nodup := by
  induction ss generalizing known with
  | nil => exact List.nodup_nil
  | cons s ss ih =>
      obtain ⟨hs, hss⟩ := List.forall_mem_cons.mp hss
      have hknown' : ∀ v ∈ s.content :: known, v.isText := List.forall_mem_cons.mpr ⟨hs, hknown⟩
      rw [firsts_cons]
      split
      · exact ih hknown' hss
      · refine List.nodup_cons.mpr ⟨fun hmem => ?_, ih hknown' hss⟩
        obtain ⟨t, ht, heq⟩ := List.mem_map.mp hmem
        exact not_mem_known_of_mem_firsts hknown' hss ht (heq ▸ List.mem_cons_self)

theorem mem_contents_firsts (hknown : ∀ v ∈ known, v.isText) (hss : ∀ s ∈ ss, s.content.isText) :
    ∀ s ∈ ss, s.content ∈ known ++ contents (firsts known ss) := by
  induction ss generalizing known with
  | nil => simp
  | cons t ss ih =>
      obtain ⟨ht, hss⟩ := List.forall_mem_cons.mp hss
      have hrest := ih (List.forall_mem_cons.mpr ⟨ht, hknown⟩) hss
      rw [firsts_cons]
      split
      · rename_i hany
        have hmem := (Json.any_same_iff hknown).mp hany
        refine List.forall_mem_cons.mpr ⟨List.mem_append_left _ hmem, fun s hs => ?_⟩
        rcases List.mem_cons.mp (hrest s hs) with heq | h
        · exact List.mem_append_left _ (heq ▸ hmem)
        · exact h
      · refine List.forall_mem_cons.mpr ⟨by simp [contents], fun s hs => ?_⟩
        have := hrest s hs
        simp only [contents, List.map_cons, List.cons_append, List.mem_cons,
          List.mem_append] at this ⊢
        tauto

/-- Where all contents are known nothing is left. -/
theorem firsts_eq_nil (hknown : ∀ v ∈ known, v.isText) (hss : ∀ s ∈ ss, s.content.isText)
    (h : ∀ s ∈ ss, s.content ∈ known) : firsts known ss = [] := by
  rw [List.eq_nil_iff_forall_not_mem]
  intro s hs
  exact not_mem_known_of_mem_firsts hknown hss hs (h s (firsts_sublist.subset hs))

end

/-! ## Distinct contents -/

/-- Snippets of texts, no content twice. -/
structure Distinct (ss : List Snippet) : Prop where
  textual : ∀ s ∈ ss, s.IsTextual
  nodup : (contents ss).Nodup

/-- A snippet of the same content, of texts if the other one is. -/
structure Revises (s t : Snippet) : Prop where
  content : t.content = s.content
  textual : s.IsTextual → t.IsTextual

theorem Revises.refl (s : Snippet) : Revises s s := ⟨rfl, id⟩

theorem exists_of_forall₂ {α β : Type} {R : α → β → Prop} {as : List α} {bs : List β}
    (h : List.Forall₂ R as bs) {b : β} (hb : b ∈ bs) : ∃ a ∈ as, R a b := by
  induction h with
  | nil => cases hb
  | cons hab _ ih =>
      rcases List.mem_cons.mp hb with rfl | hb
      · exact ⟨_, List.mem_cons_self, hab⟩
      · obtain ⟨a, ha, hr⟩ := ih hb
        exact ⟨a, List.mem_cons_of_mem _ ha, hr⟩

namespace Distinct

variable {ss : List Snippet}

theorem nil : Distinct [] := ⟨by simp, List.nodup_nil⟩

theorem isText (h : Distinct ss) : ∀ v ∈ contents ss, v.isText := by
  intro v hv
  obtain ⟨s, hs, rfl⟩ := List.mem_map.mp hv
  exact (h.textual s hs).content

theorem sublist {ts : List Snippet} (h : Distinct ss) (hs : ts.Sublist ss) : Distinct ts :=
  ⟨fun s hmem => h.textual s (hs.subset hmem), h.nodup.sublist (hs.map _)⟩

theorem restored (h : Distinct ss) : Distinct (ss.map (·.restored)) where
  textual s hs := by
    obtain ⟨t, ht, rfl⟩ := List.mem_map.mp hs
    exact (h.textual t ht).restored
  nodup := by
    have hcontents : contents (ss.map (·.restored)) = contents ss := by
      simp only [contents, List.map_map]
      rfl
    rw [hcontents]
    exact h.nodup

/-- Other snippets in the place of each, with the same content. -/
theorem revised {ts : List Snippet} (h : Distinct ss) (hrevised : List.Forall₂ Revises ss ts) :
    Distinct ts where
  textual t ht := by
    obtain ⟨s, hs, hst⟩ := exists_of_forall₂ hrevised ht
    exact hst.textual (h.textual s hs)
  nodup := by
    have hcontents : List.Forall₂ Eq (contents ss) (contents ts) :=
      List.forall₂_map_left_iff.mpr (List.forall₂_map_right_iff.mpr
        (hrevised.imp fun _ _ hst => hst.content.symm))
    rw [List.forall₂_eq_eq_eq] at hcontents
    exact hcontents ▸ h.nodup

theorem append {ts : List Snippet} (hs : Distinct ss) (ht : Distinct ts)
    (hnew : ∀ t ∈ ts, t.content ∉ contents ss) : Distinct (ss ++ ts) where
  textual s h := by
    rcases List.mem_append.mp h with h | h
    · exact hs.textual s h
    · exact ht.textual s h
  nodup := by
    rw [contents, List.map_append]
    refine hs.nodup.append ht.nodup fun v hv hv' => ?_
    obtain ⟨t, hmem, rfl⟩ := List.mem_map.mp hv'
    exact hnew t hmem hv

theorem append_firsts {added : List Snippet} (h : Distinct ss)
    (hadded : ∀ s ∈ added, s.IsTextual) : Distinct (ss ++ firsts (contents ss) added) := by
  have hcontent : ∀ s ∈ added, s.content.isText := fun s hs => (hadded s hs).content
  have hfirsts : Distinct (firsts (contents ss) added) :=
    ⟨fun s hs => hadded s (firsts_sublist.subset hs), nodup_contents_firsts h.isText hcontent⟩
  exact h.append hfirsts fun t ht => not_mem_known_of_mem_firsts h.isText hcontent ht

end Distinct

/-! ## Changes -/

theorem exists_text_of_variantOf {e : CaptureEvent} {r : Classification} {v : Variant}
    (h : variantOf e r = .ok v) : ∀ f ∈ v.field?, ∃ t, f.2 = .text t := by
  have hown : ∀ {name t : String}, ∀ f ∈ some (name, Json.text t), ∃ t, f.2 = .text t := by
    rintro name t f ⟨⟩
    exact ⟨t, rfl⟩
  unfold variantOf at h
  cases hk : r.kind with
  | link =>
      rw [hk] at h
      simp only at h
      split at h
      · cases h
        exact hown
      · cases h
  | text =>
      rw [hk] at h
      cases h
      simp [Variant.field?]
  | _ =>
      rw [hk] at h
      cases h
      exact hown

/-- A captured text is the content of its snippet, which has texts in all places and can be
stored. -/
theorem snippetFor_spec {e : CaptureEvent} {r : Classification} {id : String}
    {now : Calendar.Moment} {s : Snippet} (h : snippetFor e r id now = .ok s) :
    s.IsTextual ∧ s.toRecord.isWhole ∧ s.content = .text e.text := by
  unfold snippetFor at h
  cases hv : variantOf e r with
  | error f =>
      rw [hv] at h
      cases h
  | ok v =>
      rw [hv] at h
      simp only [bind, Except.bind] at h
      split at h
      · cases h
        have htext : ∀ {v : Json}, (∃ t, v = .text t) → v.isText ∧ v.isWhole := by
          rintro _ ⟨t, rfl⟩
          exact ⟨rfl, rfl⟩
        have happ : ∀ a ∈ e.app.map fun name => SourceApp.mk (.text name) e.icon,
            a.name.isText ∧ a.name.isWhole := fun a ha => by
          obtain ⟨name, -, rfl⟩ := Option.map_eq_some_iff.mp ha
          exact htext ⟨name, rfl⟩
        have htags : ∀ v ∈ r.tags.map Json.text, v.isText ∧ v.isWhole := fun v hv => by
          obtain ⟨t, -, rfl⟩ := List.mem_map.mp hv
          exact htext ⟨t, rfl⟩
        have hown : ∀ f ∈ v.field?, f.2.isText ∧ f.2.isWhole := fun f hf =>
          htext (exists_text_of_variantOf hv f hf)
        exact ⟨⟨rfl, rfl, rfl, fun a ha => (happ a ha).1, fun v hv => (htags v hv).1, by simp,
            fun f hf => (hown f hf).1⟩,
          Snippet.isWhole_toRecord rfl rfl rfl (fun a ha => (happ a ha).2)
            (fun v hv => (htags v hv).2) (by simp) (fun f hf => (hown f hf).2), rfl⟩
      · cases h

/-- Texts in all places that the operation fills. -/
def Change.IsTextual : Change → Prop
  | add hs => ∀ h ∈ hs, h.snippet.IsTextual
  | addNote _ note => note.isText
  | _ => True

theorem distinct_onSnippet {m : Memory} {id : Json} {f : Held → Effect}
    (h : Distinct m.snippets) (hf : ∀ x ∈ m.held, Distinct (f x).memory.snippets) :
    Distinct (m.onSnippet id f).memory.snippets := by
  obtain ⟨-, heffect⟩ | ⟨x, hfind, heffect⟩ := m.onSnippet_cases id f
  · rw [heffect]
    exact h
  · rw [heffect]
    exact hf x (List.mem_of_find?_eq_some hfind)

/-- Texts that memory holds are told by their content. -/
theorem Memory.holds_iff {m : Memory} (h : ∀ x ∈ m.snippets, x.IsTextual) (text : String) :
    m.holds (.text text) ↔ .text text ∈ contents m.snippets := by
  have hcontents : ∀ v ∈ contents m.snippets, v.isText := by
    intro v hv
    obtain ⟨x, hx, rfl⟩ := List.mem_map.mp hv
    exact (h x hx).content
  rw [← Json.any_same_iff hcontents, contents, List.any_map]
  rfl

theorem distinct_capture (w : Surroundings) {m : Memory} (h : Distinct m.snippets)
    (e : CaptureEvent) (now : Calendar.Moment) :
    Distinct (m.capture w e now).memory.snippets := by
  obtain ⟨r, asked, -, heffect⟩ | ⟨hskip, x, asked, ⟨r, hx⟩, heffect⟩ := m.capture_cases w e now
  · rw [heffect]
    exact h
  · obtain ⟨htextual, -, hcontent⟩ := snippetFor_spec hx
    have hnew : .text e.text ∉ contents m.snippets := fun hmem =>
      hskip (.inr ((m.holds_iff h.textual e.text).mpr hmem))
    have hone : Distinct [x] := ⟨by simpa using htextual, List.nodup_singleton _⟩
    have hsnippets : (m.capture w e now).memory.snippets = m.snippets ++ [x] := by
      simp [heffect, Effect.memory, Memory.snippets, Held.own]
    rw [hsnippets]
    exact h.append hone (by simpa [hcontent] using hnew)

/-- An addition of texts appends the first ones of each new content, and saves if there are any. -/
theorem exists_add {m : Memory} (h : Distinct m.snippets) {hs : List Held}
    (hhs : ∀ x ∈ hs, x.snippet.IsTextual) : ∃ added : List Held,
      added.map (·.snippet) = firsts (contents m.snippets) (hs.map (·.snippet)) ∧
      m.add hs = if added.isEmpty then .done (.ok (.snippets [])) m
        else .save (.snippets (added.map (·.snippet))) { m with held := m.held ++ added } := by
  have hatoms : (m.snippets.any fun s => !s.content.isAtom) = false := by
    simp only [List.any_eq_false, Bool.not_eq_true', Bool.not_eq_false]
    exact fun s hs => Json.isAtom_of_isText (h.textual s hs).content
  obtain ⟨added, hfresh, hadded⟩ := exists_fresh h.isText fun x hx => (hhs x hx).content
  have hfresh : fresh (m.snippets.map (·.content)) hs = (added, true) := hfresh
  refine ⟨added, hadded, ?_⟩
  simp only [Memory.add, hatoms, hfresh]
  cases added <;> rfl

theorem distinct_add {m : Memory} (h : Distinct m.snippets) {hs : List Held}
    (hhs : ∀ x ∈ hs, x.snippet.IsTextual) : Distinct (m.add hs).memory.snippets := by
  obtain ⟨added, hadded, heffect⟩ := exists_add h hhs
  rw [heffect]
  split
  · exact h
  · have hsnippets : ({ m with held := m.held ++ added } : Memory).snippets =
        m.snippets ++ firsts (contents m.snippets) (hs.map (·.snippet)) := by
      rw [← hadded]
      exact List.map_append
    simp only [Effect.memory, hsnippets]
    exact h.append_firsts (List.forall_mem_map.mpr hhs)

theorem distinct_withNotes {m : Memory} (h : Distinct m.snippets) (id : Json) (list : Option Nat)
    {f : List Json → List Json}
    (hf : ∀ s : Snippet, s.IsTextual → ∀ v ∈ f s.notes, v.isText) :
    Distinct (m.withNotes id list f).snippets := by
  have hrevises : ∀ s : Snippet, Revises s (s.withNotes f) := fun s =>
    ⟨rfl, fun hs => { hs with notes := hf s hs }⟩
  exact h.revised (forall₂_changeNotes Revises.refl hrevises id list m.held)

/-- No change puts a content into memory twice. -/
theorem Change.distinct_effect (w : Surroundings) {m : Memory} (h : Distinct m.snippets) {μ : Change}
    (hμ : μ.IsTextual) : Distinct (μ.effect w m).memory.snippets := by
  cases μ with
  | capture e now => exact distinct_capture w h e now
  | add hs => exact distinct_add h hμ
  | addNote id note =>
      refine distinct_onSnippet h fun x _ => distinct_withNotes h id x.list fun s hs v hv => ?_
      rcases List.mem_append.mp hv with hv | hv
      · exact hs.notes v hv
      · rwa [List.mem_singleton.mp hv]
  | removeNote id index =>
      obtain ⟨-, heffect⟩ | ⟨x, -, hcases⟩ := m.removeNote_cases id index
      · rw [effect, heffect]
        exact h
      · obtain ⟨i, note, -, -, heffect⟩ | ⟨-, -, heffect⟩ | ⟨-, -, f, -, heffect⟩ := hcases <;>
          rw [effect, heffect]
        · exact distinct_withNotes h id x.list fun s hs v hv =>
            hs.notes v (List.mem_of_mem_eraseIdx hv)
        · exact h
        · exact h
  | toggleFavorite id =>
      refine distinct_onSnippet h fun x _ => h.revised ?_
      have hrevises : ∀ s : Snippet, Revises s { s with isFavorite := !s.isFavorite } := fun s =>
        ⟨rfl, fun hs => { hs with }⟩
      exact forall₂_change Revises.refl hrevises id m.held
  | delete id =>
      exact distinct_onSnippet h fun _ _ => h.sublist (List.eraseP_sublist.map _)
  | deleteAll => exact Distinct.nil

/-! ## Runs -/

def Operation.IsTextual : Operation → Prop
  | load => True
  | change μ => μ.IsTextual

/-- Entries of a store in which a stored collection has distinct contents. -/
def HoldsDistinct (entries : List (String × String)) : Prop :=
  ∀ text ∈ entries.lookup snippetsKey, ∃ ss, text = textOf ss ∧ canBeStored ss ∧ Distinct ss

theorem HoldsDistinct.after {entries : List (String × String)} (h : HoldsDistinct entries)
    {as : List Attempt} (has : ∀ a ∈ as, Distinct a.snippets) :
    HoldsDistinct (entriesAfter entries as) := by
  intro text htext
  unfold entriesAfter at htext
  cases hlast : lastSaved as with
  | none =>
      rw [hlast] at htext
      exact h text htext
  | some a =>
      obtain ⟨hmem, hsaved⟩ := List.mem_filter.mp (List.mem_of_getLast? hlast)
      rw [hlast, Option.elim_some, Store.lookup_setEntry] at htext
      cases htext
      exact ⟨a.snippets, rfl, (Bool.and_eq_true _ _ ▸ hsaved).2, has a hmem⟩

/-- A state in which no content is in memory twice, nor in the store. -/
structure State.IsDistinct (s : State) : Prop where
  memory : Distinct s.collection.snippets
  stored : HoldsDistinct s.collection.store.entries

/-- What a store with distinct contents holds is loaded as such. -/
theorem HoldsDistinct.load {store : Store} (h : HoldsDistinct store.entries)
    (hread : store.failures.read = none) : ∃ ss, store.load = .ok ss ∧ Distinct ss := by
  cases hlookup : store.entries.lookup snippetsKey with
  | none =>
      refine ⟨[], ?_, Distinct.nil⟩
      simp [Store.load, Store.get, hread, hlookup]
  | some text =>
      obtain ⟨ss, rfl, hstorable, hss⟩ := h text hlookup
      refine ⟨ss.map (·.restored), ?_, hss.restored⟩
      simpa [Store.load, Store.get, hread, hlookup] using
        Store.snippetsIn_textOf hss.textual hstorable

namespace State.IsDistinct

variable {s : State}

theorem under (h : s.IsDistinct) (f : Failures) : (s.under f).IsDistinct := ⟨h.memory, h.stored⟩

theorem run_load (h : s.IsDistinct) (w : Surroundings) : (Operation.load.run w s).2.IsDistinct := by
  cases hread : s.collection.store.failures.read with
  | some message =>
      have hload : s.collection.store.load = .error (.storage (.read snippetsKey message)) := by
        simp [Store.load, Store.get, hread]
      simp only [Operation.run, Collection.load, hload]
      exact ⟨Distinct.nil, h.stored⟩
  | none =>
      obtain ⟨ss, hload, hss⟩ := h.stored.load hread
      have hmemory : Distinct ((ss.map Held.own).map (·.snippet)) := by
        rwa [Held.map_snippet_own]
      simp only [Operation.run, Collection.load, hload]
      exact ⟨hmemory, h.stored⟩

theorem run_change (h : s.IsDistinct) (w : Surroundings) {μ : Change} (hμ : μ.IsTextual) :
    (μ.run w s).2.IsDistinct := by
  have heffect := Change.distinct_effect w (m := s.memory) h.memory hμ
  rw [Change.run_eq, Effect.settle_eq]
  refine ⟨heffect, h.stored.after fun a ha => ?_⟩
  cases he : μ.effect w s.memory with
  | done r m => simp [he, Effect.attempt?] at ha
  | save v m =>
      rw [he] at heffect ha
      simp only [Effect.attempt?, Option.toList_some, List.mem_singleton] at ha
      subst ha
      exact heffect

theorem run (h : s.IsDistinct) (w : Surroundings) (pattern : Nat → Failures) (n : Nat)
    {ops : List Operation} (hops : ∀ op ∈ ops, op.IsTextual) :
    (run w pattern n s ops).2.IsDistinct := by
  induction ops generalizing n s with
  | nil => exact h
  | cons op ops ih =>
      obtain ⟨hop, htail⟩ := List.forall_mem_cons.mp hops
      have hs := h.under (pattern n)
      cases op with
      | load => exact ih (hs.run_load w) (n + 1) htail
      | change μ => exact ih (hs.run_change w hop) (n + 1) htail

theorem run_add (h : s.IsDistinct) (w : Surroundings) {hs : List Held}
    (hhs : ∀ x ∈ hs, x.snippet.IsTextual) :
    let added := firsts (contents s.collection.snippets) (hs.map (·.snippet))
    let r := (Change.add hs).run w s
    r.2.collection.snippets = s.collection.snippets ++ added ∧
      (r.1 = .ok (.snippets added) ∨ r.1 = .error .torn) := by
  intro added r
  obtain ⟨new, hnew, heffect⟩ := exists_add (m := s.memory) h.memory hhs
  have hnew : new.map (·.snippet) = added := hnew
  have hr : r = (s.memory.add hs).settle s := Change.run_eq w s _
  rw [hr, heffect, Effect.settle_eq, ← hnew]
  cases new with
  | nil => exact ⟨(List.append_nil _).symm, .inl rfl⟩
  | cons x rest =>
      refine ⟨List.map_append, ?_⟩
      simp only [Effect.result, List.isEmpty_cons, Bool.false_eq_true, if_false]
      split
      · exact .inr rfl
      · exact .inl rfl

/-- Where all contents are in memory nothing is added, and nothing is saved. -/
theorem run_add_known (h : s.IsDistinct) (w : Surroundings) {hs : List Held}
    (hhs : ∀ x ∈ hs, x.snippet.IsTextual)
    (hknown : ∀ x ∈ hs, x.snippet.content ∈ contents s.collection.snippets) :
    (Change.add hs).run w s = (.ok (.snippets []), s) := by
  have hnone : firsts (contents s.memory.snippets) (hs.map (·.snippet)) = [] :=
    firsts_eq_nil h.memory.isText (List.forall_mem_map.mpr fun x hx => (hhs x hx).content)
      (List.forall_mem_map.mpr hknown)
  obtain ⟨new, hnew, heffect⟩ := exists_add (m := s.memory) h.memory hhs
  obtain rfl : new = [] := List.map_eq_nil_iff.mp (hnew.trans hnone)
  rw [Change.run_eq, Change.effect, heffect]
  rfl

end State.IsDistinct

/-- A run on an empty store never has a content twice, neither in memory nor in what can be loaded
from the store. An addition then appends the first snippet of each content that is not in memory, in
order, and the same addition once more adds nothing. -/
theorem run_distinct (w : Surroundings) (pattern : Nat → Failures) (store : Store)
    (hstore : store.entries.lookup snippetsKey = none) (asked : Transcript)
    (ops : List Operation) (hops : ∀ op ∈ ops, op.IsTextual) :
    let s := (run w pattern 0 ⟨{ store }, asked⟩ ops).2
    (contents s.collection.snippets).Nodup ∧
      (∃ stored, (s.under {}).collection.store.load = .ok stored ∧ (contents stored).Nodup) ∧
      ∀ hs : List Held, (∀ x ∈ hs, x.snippet.IsTextual) → ∀ f g : Failures,
        let added := firsts (contents s.collection.snippets) (hs.map (·.snippet))
        let r := (Change.add hs).run w (s.under f)
        r.2.collection.snippets = s.collection.snippets ++ added ∧
          (r.1 = .ok (.snippets added) ∨ r.1 = .error .torn) ∧
          (Change.add hs).run w (r.2.under g) = (.ok (.snippets []), r.2.under g) := by
  intro s
  have hstart : State.IsDistinct ⟨{ store }, asked⟩ :=
    ⟨Distinct.nil, fun text htext => by
      have hnone : store.entries.lookup snippetsKey = some text := htext
      rw [hstore] at hnone
      cases hnone⟩
  have hs : s.IsDistinct := hstart.run w pattern 0 hops
  obtain ⟨stored, hload, hstored⟩ := (hs.under {}).stored.load rfl
  refine ⟨hs.memory.nodup, ⟨stored, hload, hstored.nodup⟩, fun new hnew f g => ?_⟩
  intro added r
  obtain ⟨hmemory, hresult⟩ := (hs.under f).run_add w hnew
  refine ⟨hmemory, hresult, ?_⟩
  have hadd : (Change.add new).IsTextual := hnew
  have hr : (r.2.under g).IsDistinct := ((hs.under f).run_change w hadd).under g
  refine hr.run_add_known w hnew fun x hx => ?_
  have hcontents : contents (r.2.under g).collection.snippets =
      contents s.collection.snippets ++ contents added := by
    have : (r.2.under g).collection.snippets = s.collection.snippets ++ added := hmemory
    rw [this, contents, List.map_append]
    rfl
  rw [hcontents]
  exact mem_contents_firsts hs.memory.isText
    (List.forall_mem_map.mpr fun x hx => (hnew x hx).content) x.snippet (List.mem_map_of_mem hx)

/-- The same snippet twice, added while the store is full and again after a load. -/
theorem run_distinct_greeting :
    let g : Held := .own (Store.greeting ⟨0, by decide⟩)
    let ops : List Operation := [.change (.add [g, g]), .load, .change (.add [g, g])]
    (contents (run silent fullAtFirst 0 ⟨{}, {}⟩ ops).2.collection.snippets).Nodup := by
  intro g ops
  have hg : ∀ x ∈ [g, g], x.snippet.IsTextual := by
    simpa [g, Held.own] using Store.isTextual_greeting ⟨0, by decide⟩
  have hops : ∀ op ∈ ops, op.IsTextual := by
    simpa [ops, Operation.IsTextual, Change.IsTextual] using hg
  exact (run_distinct silent fullAtFirst {} rfl {} ops hops).1

end Collection

end Clipboard
