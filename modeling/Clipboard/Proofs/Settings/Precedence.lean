import Clipboard.Proofs.Settings.Loading

/-!
Where each setting comes from: the environment, before the file of the project, before the file for
all projects, before its default. Nothing else has a say in it.
-/

namespace Clipboard.Settings

open Remote (Environment)

/-- No object has a key twice, the sections are objects, and none of their values is one. -/
structure IsSectioned (fields : Fields) : Prop where
  keyed : (Value.object fields).IsKeyed
  sections (p : Section) (v : Value) : lookup? p.name fields = some v → ∃ g, v = .object g
  flat (p : Section) (key : Scalar) (v : Value) :
    (key, v) ∈ fieldsUnder fields p.name → ∀ g, v ≠ .object g

section

variable {home : String} {env : Environment} {shared project : Option Layer} {s : Settings}
variable {fields : Fields} {name : String}

theorem sectionIn_joined (hshared : IsSectioned (fieldsOf shared))
    (hproject : IsSectioned (fieldsOf project)) (p : Section) :
    ∃ g, sectionIn (joined shared project) p = .ok g ∧ ∀ key, lookup? key g =
      (lookup? key (fieldsUnder (fieldsOf project) p.name)).or
        (lookup? key (fieldsUnder (fieldsOf shared) p.name)) := by
  rw [joined, overlayFields_nil hshared.keyed, sectionIn, section?,
    lookup_overlayFields hproject.keyed.isDistinct]
  cases hover : lookup? p.name (fieldsOf project) with
  | none =>
      rw [fieldsUnder_of_none hover]
      cases hunder : lookup? p.name (fieldsOf shared) with
      | none => exact ⟨[], rfl, fun key => by rw [fieldsUnder_of_none hunder]; rfl⟩
      | some v =>
          obtain ⟨g, rfl⟩ := hshared.sections p v hunder
          exact ⟨g, rfl, fun key => by rw [fieldsUnder_of_object hunder]; rfl⟩
  | some v =>
      obtain ⟨g, rfl⟩ := hproject.sections p v hover
      have hg := fieldsUnder_of_object hover
      refine ⟨overlayFields (fieldsUnder (fieldsOf shared) p.name) g, rfl, fun key => ?_⟩
      obtain ⟨_, hmem, -⟩ := mem_of_lookup hover
      rw [lookup_overlayFields (hproject.keyed.of_mem hmem).isDistinct, hg]
      cases hkey : lookup? key g with
      | none => rfl
      | some w =>
          obtain ⟨k, hmem, -⟩ := mem_of_lookup hkey
          rw [Option.map_some, overlay_of_no_object (hproject.flat p k w (hg ▸ hmem))]

theorem Setting.settledIn_joined (hshared : IsSectioned (fieldsOf shared))
    (hproject : IsSectioned (fieldsOf project)) (x : Setting) :
    x.settledIn home env (joined shared project) =
      x.settled home env ((x.given? project).or (x.given? shared)) := by
  obtain ⟨g, hg, hkeys⟩ := sectionIn_joined hshared hproject x.place
  rw [settledIn, hg]
  exact congrArg (x.settled home env) (hkeys x.key)

theorem Setting.settled_congr {env' : Environment} (x : Setting) (given : Option Value)
    (h : ∀ name ∈ x.environmentName?, env'.lookup name = env.lookup name) :
    x.settled home env' given = x.settled home env given := by
  have hvalue : x.inEnvironment? env' = x.inEnvironment? env :=
    Option.bind_congr fun name hname => by rw [h name hname]
  rw [settled, settled, hvalue]

theorem Setting.settled_of_loaded (hshared : IsSectioned (fieldsOf shared))
    (hproject : IsSectioned (fieldsOf project)) (h : loaded home env shared project = .ok s)
    (x : Setting) :
    x.settled home env ((x.given? project).or (x.given? shared)) = .ok (x.get s) := by
  obtain ⟨-, -, -, hsettled, -⟩ := loaded_eq_ok_iff.mp h
  rw [← settledIn_joined hshared hproject, hsettled]

/-- Each setting is what stands under its own key in the file of the project, else in the file for all
projects, converted, else its default, and its variable of the environment replaces it. Other files and
another environment that agree on these make the same of it. -/
theorem loaded_precedence (hshared : IsSectioned (fieldsOf shared))
    (hproject : IsSectioned (fieldsOf project)) (h : loaded home env shared project = .ok s)
    (x : Setting) :
    x.settled home env ((x.given? project).or (x.given? shared)) = .ok (x.get s) ∧
    ∀ env' shared' project' s', IsSectioned (fieldsOf shared') → IsSectioned (fieldsOf project') →
      loaded home env' shared' project' = .ok s' →
      (x.given? project').or (x.given? shared') = (x.given? project).or (x.given? shared) →
      (∀ name ∈ x.environmentName?, env'.lookup name = env.lookup name) →
      x.get s' = x.get s := by
  have hvalue := x.settled_of_loaded hshared hproject h
  refine ⟨hvalue, fun env' shared' project' s' hshared' hproject' h' hgiven henv => ?_⟩
  have hvalue' := x.settled_of_loaded hshared' hproject' h'
  rw [hgiven, x.settled_congr _ henv] at hvalue'
  exact Except.ok.inj (hvalue'.symm.trans hvalue)

end

/-- Fields of one section, with texts alone. -/
theorem isSectioned_texts (p : Section) (texts : List (String × String))
    (h : (texts.map (·.1)).Nodup) :
    IsSectioned [(p.name, .object (texts.map fun (key, t) => (.text key, .scalar t)))] where
  keyed := by
    refine Value.isKeyed_object_iff.mpr ⟨List.nodup_singleton _, ?_⟩
    rintro f hf
    obtain rfl := List.mem_singleton.mp hf
    refine Value.isKeyed_object_iff.mpr ⟨?_, ?_⟩
    · have hkeys := h.map (fun _ _ => Identity.text.inj)
      simpa [IsDistinct, Scalar.identity, Function.comp_def] using hkeys
    · rintro f hf
      obtain ⟨t, -, rfl⟩ := List.mem_map.mp hf
      exact Value.isKeyed_scalar _
  sections q v hv := by
    obtain ⟨_, hmem, -⟩ := mem_of_lookup hv
    obtain ⟨-, rfl⟩ := Prod.mk.inj (List.mem_singleton.mp hmem)
    exact ⟨_, rfl⟩
  flat q key v hmem := by
    by_cases hq : q.name = p.name
    · rw [fieldsUnder_of_object (by rw [lookup?, if_pos (by rw [hq])])] at hmem
      obtain ⟨t, -, ht⟩ := List.mem_map.mp hmem
      obtain ⟨-, rfl⟩ := Prod.mk.inj ht
      rintro fields ⟨⟩
    · rw [fieldsUnder_of_none (by rw [lookup?, if_neg (identity_text_ne (Ne.symm hq))]; rfl)] at hmem
      cases hmem

/-- A model in the file for all projects, an answer in that of the project, a path in a variable. -/
theorem loaded_precedence_model :
    let shared : Layer := ⟨"/home/user/.snipstack/config.yaml",
      .object [("llm", .object [("model", .scalar "ollama/llama3"), ("enabled", .scalar "yes")])]⟩
    let project : Layer := ⟨"snipstack.yaml", .object [("llm", .object [("enabled", .scalar "no")])]⟩
    ∃ s, loaded "/home/user" [("SNIPSTACK_DB", "/tmp/db")] (some shared) (some project) = .ok s ∧
      s.llm.model = "ollama/llama3" ∧ s.llm.enabled = false ∧ s.storage.path = "/tmp/db" := by
  intro shared project
  have hshared : IsSectioned (fieldsOf (some shared)) :=
    isSectioned_texts .llm [("model", "ollama/llama3"), ("enabled", "yes")] (by decide)
  have hproject : IsSectioned (fieldsOf (some project)) :=
    isSectioned_texts .llm [("enabled", "no")] (by decide)
  obtain ⟨s, hs⟩ : ∃ s, loaded "/home/user" [("SNIPSTACK_DB", "/tmp/db")] (some shared)
      (some project) = .ok s := ⟨_, rfl⟩
  have hsettled (x : Setting) := (loaded_precedence hshared hproject hs x).1
  refine ⟨s, hs, ?_, ?_, ?_⟩
  · exact (Except.ok.inj (hsettled .model)).symm
  · exact (Except.ok.inj (hsettled .enabled)).symm
  · exact (Except.ok.inj (hsettled .path)).symm

end Clipboard.Settings
