import Clipboard.Proofs.Pattern.Language
import Clipboard.Shape.Link

/-!
Texts that are one web address, as texts with an address in them. A whole address may go on behind its opening
with a bracket or a quote; an address within a text may not.
-/

namespace Clipboard.Link

open Pattern
open Text (isSpace isBlank trim prefix_of_no_space)

/-! ## Openings -/

def openings : List String := ["http://", "https://", "ftp://", "www."]

/-- The text is one of the openings in some mixture of cases. -/
def IsOpening (op : List Char) : Prop := ∃ w ∈ openings, op.map letterOf = w.toList

theorem letterOf_eq_iff {l : Char} (hl : IsPlain l) (hmark : ¬l.isLower) (c : Char) :
    letterOf c = l ↔ c = l := by
  constructor
  · rw [← sameLetter_iff hl]
    simp only [sameLetter, hl.2, Bool.or_eq_true, Bool.and_eq_true, beq_iff_eq]
    rintro (((h | ⟨rfl, -⟩) | ⟨rfl, -⟩) | ⟨rfl, -⟩)
    · have hascii : c.toNat < 128 := Text.toNat_lt_of_toLower (h ▸ hl.1)
      have hall : ∀ n < 128, (Char.ofNat n).toLower.isLower ∨ (Char.ofNat n).toLower = .ofNat n := by
        decide
      have hc := hall c.toNat hascii
      rw [Char.ofNat_toNat, h] at hc
      exact (hc.resolve_left hmark).symm
    · exact absurd rfl hmark
    · exact absurd rfl hmark
    · exact absurd rfl hmark
  · rintro rfl
    rw [letterOf_of_ascii hl.1, hl.2]

theorem map_letterOf_iff {mark taken : List Char} (hmark : ∀ l ∈ mark, IsPlain l ∧ ¬l.isLower) :
    taken.map letterOf = mark ↔ taken = mark := by
  induction mark generalizing taken with
  | nil => exact List.map_eq_nil_iff
  | cons l mark ih =>
      obtain ⟨⟨hl, hno⟩, hmark⟩ := List.forall_mem_cons.mp hmark
      simp only [List.map_eq_cons_iff, letterOf_eq_iff hl hno, ih hmark]
      simp

theorem spans_opening : Spans opening IsOpening := by
  have hhttp := spans_append (spans_anyCase (s := "http") (by decide))
    (spans_optional (spans_anyCase (s := "s") (by decide)))
  have hnamed := spans_append (spans_alt hhttp (spans_anyCase (s := "ftp") (by decide)))
    (spans_exactly "://")
  have hopening := spans_alt hnamed (spans_anyCase (s := "www.") (by decide))
  refine hopening.congr fun taken => ?_
  have split (name : String) (h : taken.map letterOf = (name ++ "://").toList) :
      ∃ u v, taken = u ++ v ∧ u.map letterOf = name.toList ∧ v = "://".toList := by
    rw [String.toList_append] at h
    obtain ⟨u, v, htaken, hu, hv⟩ := List.map_eq_append_iff.mp h
    exact ⟨u, v, htaken, hu, (map_letterOf_iff (by decide)).mp hv⟩
  constructor
  · rintro (⟨_, _, ⟨u, w, hu, hw | rfl, rfl⟩ | hu, rfl, rfl⟩ | hu)
    · exact ⟨"https://", by decide, by rw [List.map_append, List.map_append, hu, hw]; decide⟩
    · exact ⟨"http://", by decide, by rw [List.map_append, List.map_append, hu]; decide⟩
    · exact ⟨"ftp://", by decide, by rw [List.map_append, hu]; decide⟩
    · exact ⟨"www.", by decide, hu⟩
  · rintro ⟨w, hw, h⟩
    simp only [openings, List.mem_cons, List.not_mem_nil, or_false] at hw
    rcases hw with rfl | rfl | rfl | rfl
    · obtain ⟨u, v, rfl, hu, hv⟩ := split "http" h
      exact .inl ⟨u, v, .inl ⟨u, [], hu, .inr rfl, (List.append_nil u).symm⟩, hv, rfl⟩
    · obtain ⟨u, v, rfl, hu, hv⟩ := split "https" h
      obtain ⟨u, s, rfl, hu, hs⟩ := List.map_eq_append_iff.mp (hu.trans
        (show "https".toList = "http".toList ++ "s".toList by decide))
      exact .inl ⟨u ++ s, v, .inl ⟨u, s, hu, .inl hs, rfl⟩, hv, rfl⟩
    · obtain ⟨u, v, rfl, hu, hv⟩ := split "ftp" h
      exact .inl ⟨u, v, .inr hu, hv, rfl⟩
    · exact .inr h

namespace IsOpening

variable {op op' : List Char}

theorem exists_cons (h : IsOpening op) : ∃ c cs, op = c :: cs := by
  obtain ⟨w, hw, hmap⟩ := h
  have hall : ∀ w ∈ openings, w.toList ≠ [] := by decide
  refine List.exists_cons_of_ne_nil ?_
  rintro rfl
  exact hall w hw hmap.symm

theorem not_isSpace (h : IsOpening op) {c : Char} (hc : c ∈ op) : ¬isSpace c := by
  intro hspace
  obtain ⟨w, hw, hmap⟩ := h
  have hblank : ∀ n ∈ Text.blankNumbers, letterOf (.ofNat n) = .ofNat n := by decide
  have hself : letterOf c = c := by simpa using hblank c.toNat (Text.toNat_mem_blankNumbers hspace)
  have hall : ∀ w ∈ openings, ∀ l ∈ w.toList, ¬isSpace l := by decide
  refine hall w hw c ?_ hspace
  rw [← hmap, ← hself]
  exact List.mem_map_of_mem hc

theorem eq_of_begins (h : IsOpening op) (h' : IsOpening op') (hle : op <+: op') : op = op' := by
  obtain ⟨w, hw, hmap⟩ := h
  obtain ⟨w', hw', hmap'⟩ := h'
  have hall : ∀ w ∈ openings, ∀ w' ∈ openings, w.toList <+: w'.toList → w.toList = w'.toList := by decide
  have hbegins := hle.map letterOf
  rw [hmap, hmap'] at hbegins
  refine hle.eq_of_length ?_
  rw [← List.length_map (f := letterOf), hmap, hall w hw w' hw' hbegins, ← hmap', List.length_map]

/-- A text has no two openings. -/
theorem unique (h : IsOpening op) (h' : IsOpening op') {cs : List Char} (hop : op <+: cs)
    (hop' : op' <+: cs) : op = op' := by
  rcases List.prefix_or_prefix_of_prefix hop hop' with hle | hle
  · exact h.eq_of_begins h' hle
  · exact (h'.eq_of_begins h hle).symm

end IsOpening

/-! ## Addresses -/

/-- A character that can follow the opening of an address within a text. -/
def isInner (c : Char) : Bool := !isSpace c && noneOf "<>\"'" c

theorem isInner_iff {c : Char} : isInner c ↔ ¬isSpace c ∧ c ∉ "<>\"'".toList := by
  simp [isInner, noneOf]

/-- The text is an address as they stand within texts. -/
def IsPart (text : List Char) : Prop :=
  ∃ op c cs, IsOpening op ∧ text = op ++ c :: cs ∧ ∀ d ∈ c :: cs, isInner d

theorem spans_part : Spans part IsPart := by
  refine (spans_append spans_opening (spans_someOf isInner)).congr fun taken => ?_
  constructor
  · rintro ⟨op, _, hop, ⟨c, cs, rfl, hc, hcs⟩, rfl⟩
    exact ⟨op, c, cs, hop, rfl, List.forall_mem_cons.mpr ⟨hc, hcs⟩⟩
  · rintro ⟨op, c, cs, hop, rfl, hinner⟩
    obtain ⟨hc, hcs⟩ := List.forall_mem_cons.mp hinner
    exact ⟨op, c :: cs, hop, ⟨c, cs, rfl, hc, hcs⟩, rfl⟩

theorem IsPart.not_isSpace {text : List Char} (h : IsPart text) {c : Char} (hc : c ∈ text) :
    ¬isSpace c := by
  obtain ⟨op, d, ds, hop, rfl, hinner⟩ := h
  rcases List.mem_append.mp hc with hmem | hmem
  · exact hop.not_isSpace hmem
  · exact (isInner_iff.mp (hinner c hmem)).1

theorem begins_part : Begins (¬isSpace ·) part := by
  intro k l hl
  obtain ⟨taken, htaken, hrest⟩ := spans_part.exists_of_passes hl
  obtain ⟨op, c, cs, hop, rfl, -⟩ := htaken
  obtain ⟨d, ds, rfl⟩ := hop.exists_cons
  exact ⟨d, ds ++ c :: cs ++ l.rest, by simpa using hrest, hop.not_isSpace List.mem_cons_self⟩

theorem exists_of_isLink {cs : List Char} (h : isLink cs) :
    ∃ op c ds, IsOpening op ∧ trim cs = op ++ c :: ds ∧ ¬isSpace c ∧ c ∉ "/$.?#".toList := by
  obtain ⟨l, m, ⟨n, ⟨o, hopening, c, ds, hrest, hc, rfl⟩, -⟩, -⟩ := starts_iff.mp h
  obtain ⟨op, hop, htext⟩ := spans_opening.exists_of_passes hopening
  rw [hrest] at htext
  exact ⟨op, c, ds, hop, htext, by simpa [noneOf] using hc⟩

/-! ## Searches -/

theorem isPart_of_first? {cs u : List Char} (h : first? cs = some u) : IsPart u := by
  obtain ⟨⟨k, l⟩, hsearch, rfl⟩ := Option.map_eq_some_iff.mp h
  obtain ⟨-, hmatch⟩ := searchFrom_spec hsearch
  obtain ⟨taken, htaken, hrest⟩ := spans_part.exists_of_passes (passes_of_match? hmatch)
  change IsPart (k.textTo l)
  rwa [textTo_of_rest hrest]

/-- An address at the beginning is the one that is found, perhaps a longer or shorter part of it. -/
theorem exists_first?_of_isPart (more : List Char) {front taken : List Char} (hfront : isBlank front)
    (htaken : IsPart taken) : ∃ u, first? (front ++ (taken ++ more)) = some u ∧ u <+: taken ++ more := by
  have hskip : part.search? (front ++ (taken ++ more)) = part.searchFrom (front.getLast?.or none) (taken ++ more) :=
    searchFrom_append fun u c w hu => match?_eq_none begins_part
      (not_not_intro (List.all_eq_true.mp hfront c (hu ▸ by simp))) _ _ _
  obtain ⟨l, hl, -⟩ := (spans_part ⟨front.getLast?.or none, taken ++ more, []⟩ more).mpr ⟨taken, htaken, rfl⟩
  obtain ⟨m, hm⟩ := Option.isSome_iff_exists.mp (isSome_match?_iff.mpr ⟨l, hl⟩)
  refine ⟨Cursor.textTo ⟨front.getLast?.or none, taken ++ more, []⟩ m, ?_, List.take_prefix _ _⟩
  rw [first?, firstText?, hskip, searchFrom_of_match? hm]
  rfl

/-- A text that is an address contains one, of which it is the beginning, exactly if what stands behind the
opening is no bracket and no quote. -/
theorem first?_of_isLink {cs : List Char} (h : isLink cs) : ∃ op c ds,
    IsOpening op ∧ trim cs = op ++ c :: ds ∧
      ((containsLink cs ∧ ∃ u, first? cs = some u ∧ u ≠ [] ∧ u <+: trim cs) ↔ c ∉ "<>\"'".toList) := by
  obtain ⟨op, c, ds, hop, htrim, hspace, -⟩ := exists_of_isLink h
  refine ⟨op, c, ds, hop, htrim, ?_, fun hc => ?_⟩
  · rintro ⟨-, u, hu, -, hbegins⟩
    obtain ⟨op', c', ds', hop', rfl, hinner⟩ := isPart_of_first? hu
    rw [htrim] at hbegins
    obtain rfl := hop.unique hop' (List.prefix_append _ _) ((List.prefix_append _ _).trans hbegins)
    rw [List.prefix_append_right_inj, List.cons_prefix_cons] at hbegins
    obtain ⟨rfl, -⟩ := hbegins
    exact (isInner_iff.mp (hinner c' List.mem_cons_self)).2
  · obtain ⟨front, back, hcs, hfront, hback⟩ := Text.exists_eq_append_trim cs
    have hpart : IsPart (op ++ [c]) :=
      ⟨op, c, [], hop, rfl, List.forall_mem_singleton.mpr (isInner_iff.mpr ⟨hspace, hc⟩)⟩
    have htext : cs = front ++ (op ++ [c] ++ (ds ++ back)) := by rw [hcs, htrim]; simp
    obtain ⟨u, hu, hbegins⟩ := exists_first?_of_isPart (ds ++ back) hfront hpart
    rw [← htext] at hu
    have hfound := isPart_of_first? hu
    refine ⟨?_, u, hu, ?_, ?_⟩
    · obtain ⟨r, hr, -⟩ := Option.map_eq_some_iff.mp hu
      exact Option.isSome_iff_exists.mpr ⟨r, hr⟩
    · obtain ⟨op', c', ds', -, rfl, -⟩ := hfound
      simp
    · refine prefix_of_no_space (trim cs) (fun d hd => hfound.not_isSpace hd) hback ?_
      rw [htrim]
      simpa using hbegins

/-- A bracket ends an address within the text; right behind the opening it lets none begin. -/
theorem first?_of_isLink_brackets :
    let ending := " FTP://x.org/a<b ".toList
    let opened := "http://<x>".toList
    (isLink ending ∧ containsLink ending ∧
      ∃ u, first? ending = some u ∧ u ≠ [] ∧ u <+: trim ending) ∧
      isLink opened ∧ ¬(containsLink opened ∧
        ∃ u, first? opened = some u ∧ u ≠ [] ∧ u <+: trim opened) := by
  intro ending opened
  have hending : isLink ending := by decide +kernel
  have hopened : isLink opened := by decide +kernel
  obtain ⟨op, c, ds, hop, htrim, hiff⟩ := first?_of_isLink hending
  obtain ⟨op', c', ds', hop', htrim', hiff'⟩ := first?_of_isLink hopened
  have hftp : trim ending = "FTP://".toList ++ 'x' :: ".org/a<b".toList := by decide
  have hhttp : trim opened = "http://".toList ++ '<' :: "x>".toList := by decide
  have hftpOpens : IsOpening "FTP://".toList := ⟨"ftp://", by decide, by decide⟩
  have hhttpOpens : IsOpening "http://".toList := ⟨"http://", by decide, by decide⟩
  obtain rfl := hop.unique hftpOpens
    (htrim ▸ List.prefix_append _ _) (hftp ▸ List.prefix_append _ _)
  obtain rfl := hop'.unique hhttpOpens
    (htrim' ▸ List.prefix_append _ _) (hhttp ▸ List.prefix_append _ _)
  obtain ⟨rfl, -⟩ := List.cons.inj (List.append_cancel_left (htrim.symm.trans hftp))
  obtain ⟨rfl, -⟩ := List.cons.inj (List.append_cancel_left (htrim'.symm.trans hhttp))
  exact ⟨⟨hending, hiff.mpr (by decide)⟩, hopened, fun h => hiff'.mp h (by decide)⟩

end Clipboard.Link
