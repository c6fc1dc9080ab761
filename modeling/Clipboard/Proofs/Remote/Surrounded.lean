import Clipboard.Proofs.Json.Locality
import Clipboard.Proofs.Remote.Reply
import Clipboard.Proofs.Text.Lower

/-!
An object with prose or fences around it. What stands in front of it does not matter as long as no brace is
opened there; behind it no brace may be closed, since the text is cut at the last one.
-/

namespace Clipboard.Remote

open Json (isGap skipGaps)

/-! ## The cut -/

section

variable {front mid tail : List Char}

theorem objectText?_of_braces (hfront : '\x7b' ∉ front) (htail : '\x7d' ∉ tail) :
    objectText? (front ++ '\x7b' :: (mid ++ '\x7d' :: tail)) = some ('\x7b' :: (mid ++ ['\x7d'])) := by
  have hopen : ∀ c ∈ front, (c != '\x7b') = true := by
    intro c hc
    rw [bne_iff_ne]
    rintro rfl
    exact hfront hc
  have hclose : ∀ c ∈ tail.reverse, (c != '\x7d') = true := by
    intro c hc
    rw [bne_iff_ne]
    rintro rfl
    exact htail (List.mem_reverse.mp hc)
  rw [objectText?, List.dropWhile_append_of_pos hopen, List.dropWhile_cons_of_neg (by decide)]
  rw [show ('\x7b' :: (mid ++ '\x7d' :: tail)).reverse =
    tail.reverse ++ '\x7d' :: (mid.reverse ++ ['\x7b']) by simp]
  rw [List.dropWhile_append_of_pos hclose, List.dropWhile_cons_of_neg (by decide)]
  simp

/-- What is trimmed stands outside the braces. -/
theorem trim_of_braces (front mid tail : List Char) :
    ∃ front' tail', front' <:+ front ∧ tail' <+: tail ∧
      Text.trim (front ++ '\x7b' :: (mid ++ '\x7d' :: tail)) =
        front' ++ '\x7b' :: (mid ++ '\x7d' :: tail') := by
  have hopen : (front ++ '\x7b' :: (mid ++ '\x7d' :: tail)).dropWhile Text.isSpace =
      front.dropWhile Text.isSpace ++ '\x7b' :: mid ++ '\x7d' :: tail := by
    rw [List.dropWhile_append, List.dropWhile_cons_of_neg (by decide)]
    split
    · rename_i hempty
      rw [List.isEmpty_iff.mp hempty, List.nil_append, List.cons_append]
    · simp
  have hclose : ¬Text.isBlank ('\x7d' :: tail) := by
    rw [Text.isBlank, List.all_cons, Bool.and_eq_true]
    exact fun h => absurd h.1 (by decide)
  obtain ⟨blank, htail, hblank⟩ := Text.dropWhileEnd_append_blank ('\x7d' :: tail)
  rw [Text.trim, hopen, Text.dropWhileEnd_append hclose]
  generalize Text.dropWhileEnd Text.isSpace ('\x7d' :: tail) = kept at htail ⊢
  cases kept with
  | nil =>
      rw [List.nil_append] at htail
      rw [htail] at hclose
      exact absurd hblank hclose
  | cons c tail' =>
      obtain ⟨rfl, rfl⟩ := List.cons.inj htail
      exact ⟨_, tail', List.dropWhile_suffix Text.isSpace, List.prefix_append _ _, by simp⟩

theorem objectText?_trim (mid : List Char) (hfront : '\x7b' ∉ front) (htail : '\x7d' ∉ tail) :
    objectText? (Text.trim (front ++ '\x7b' :: (mid ++ '\x7d' :: tail))) =
      some ('\x7b' :: (mid ++ ['\x7d'])) := by
  obtain ⟨front', tail', hsuffix, hbegins, htrim⟩ := trim_of_braces front mid tail
  rw [htrim]
  exact objectText?_of_braces (fun hc => hfront (hsuffix.subset hc)) fun hc => htail (hbegins.subset hc)

theorem isEmpty_of_objectText? {cs block : List Char} (h : objectText? cs = some block) :
    cs.isEmpty = false := by
  cases cs with
  | nil => cases h
  | cons c cs => rfl

end

/-! ## Objects among other text -/

section

variable {s : String} {block : List Char}

theorem objectIn_of_objectText? (h : objectText? (Text.trim s.toList) = some block)
    {fields : List (String × Json)} (hparse : Json.parse block = .ok (.object fields)) :
    objectIn s = .ok fields := by
  simp [objectIn, isEmpty_of_objectText? h, h, hparse]

theorem objectIn_of_extraData (h : objectText? (Text.trim s.toList) = some block) {left : Nat}
    (hparse : Json.parse block = .error (.extraData, left)) :
    objectIn s = .error (.malformed (Json.failureMessage block (.extraData, left))) := by
  simp [objectIn, isEmpty_of_objectText? h, h, hparse]

end

theorem exists_last_brace {back : List Char} (h : '\x7d' ∈ back) :
    ∃ more tail, back = more ++ '\x7d' :: tail ∧ '\x7d' ∉ tail := by
  obtain ⟨tail, more, hback, htail⟩ := List.eq_append_cons_of_mem (List.mem_reverse.mpr h)
  refine ⟨more.reverse, tail.reverse, ?_, fun hc => htail (List.mem_reverse.mp hc)⟩
  rw [← List.reverse_reverse back, hback]
  simp

/-- An object is found among other text if no brace is opened in front of it and none is closed behind it. If
one is closed behind it, the text up to the last one is not read as an object: there is more in it than the
object. -/
theorem objectIn_surrounded (back : List Char) {front text : List Char} {fields : List (String × Json)}
    (hfront : '\x7b' ∉ front) (htext : Json.parse text = .ok (.object fields)) :
    ('\x7d' ∉ back → objectIn (.ofList (front ++ text ++ back)) = .ok fields) ∧
      ('\x7d' ∈ back → ∃ block left, objectIn (.ofList (front ++ text ++ back)) =
        .error (.malformed (Json.failureMessage block (.extraData, left)))) := by
  obtain ⟨gaps, body, gaps', rfl, hgaps, hgaps', hread⟩ := Json.parse_object htext
  have hopen : '\x7b' ∉ front ++ gaps := by
    rw [List.mem_append]
    exact not_or.mpr ⟨hfront, fun hc => absurd (hgaps _ hc) (by decide)⟩
  have hparse (more : List Char) := Json.parse_of_readValue (by decide) (by decide) (hread more)
  constructor
  · intro hback
    have hclose : '\x7d' ∉ gaps' ++ back := by
      rw [List.mem_append]
      exact not_or.mpr ⟨fun hc => absurd (hgaps' _ hc) (by decide), hback⟩
    refine objectIn_of_objectText? ?_ (hparse [])
    simpa using objectText?_trim body hopen hclose
  · intro hback
    obtain ⟨more, tail, rfl, htail⟩ := exists_last_brace hback
    have hmore : (gaps' ++ more ++ ['\x7d']).all isGap = false := by
      simp [show isGap '\x7d' = false from rfl]
    have hextra := hparse (gaps' ++ more ++ ['\x7d'])
    rw [hmore] at hextra
    refine ⟨_, _, objectIn_of_extraData ?_ hextra⟩
    simpa using objectText?_trim (body ++ '\x7d' :: (gaps' ++ more)) hopen htail

/-- A reply with an object among other text is taken for the object exactly if no brace is closed behind
it. -/
theorem completeObject_surrounded {o : Outside} {q : Request} {t : Transcript}
    {front text back : List Char} {fields : List (String × Json)} (hfront : '\x7b' ∉ front)
    (htext : Json.parse text = .ok (.object fields))
    (hreply : o.reply t.requests q = .content (some (.ofList (front ++ text ++ back)))) :
    (((completeObject o q).run t).1 = .ok fields ↔ '\x7d' ∉ back) ∧
      ('\x7d' ∈ back → ∃ block left, ((completeObject o q).run t).1 =
        .error (.malformed (Json.failureMessage block (.extraData, left)))) := by
  have hrun : ((completeObject o q).run t).1 = objectIn (.ofList (front ++ text ++ back)) := by
    rw [completeObject_fst, hreply]
    rfl
  obtain ⟨hfound, hcut⟩ := objectIn_surrounded back hfront htext
  rw [hrun]
  refine ⟨⟨fun hok hback => ?_, hfound⟩, hcut⟩
  obtain ⟨block, left, herror⟩ := hcut hback
  cases hok.symm.trans herror

theorem completeObject_surrounded_fence :
    let fields : List (String × Json) := [("a", .object [("b", .text "\x7d\x7b")])]
    let reply (back : String) := "Here you are:\n```json\n" ++
      "\x7b\"a\": \x7b\"b\": \"\x7d\x7b\"\x7d\x7d" ++ back
    let q : Request := ⟨"m", "", 256, 0.0, 1, none⟩
    ((completeObject (.replying (reply "\n```")) q).run {}).1 = .ok fields ∧
      ∃ block left, ((completeObject (.replying (reply "\n``` :\x7d")) q).run {}).1 =
        .error (.malformed (Json.failureMessage block (.extraData, left))) := by
  intro fields reply q
  have hparse : Json.parse "\x7b\"a\": \x7b\"b\": \"\x7d\x7b\"\x7d\x7d".toList = .ok (.object fields) := by
    rfl
  have hfront : '\x7b' ∉ "Here you are:\n```json\n".toList := by decide
  have hreply (back : String) : (Outside.replying (reply back)).reply [] q =
      .content (some (.ofList ("Here you are:\n```json\n".toList ++
        "\x7b\"a\": \x7b\"b\": \"\x7d\x7b\"\x7d\x7d".toList ++ back.toList))) := by
    simp only [Outside.replying, reply, String.ofList_append, String.ofList_toList]
  exact ⟨(completeObject_surrounded hfront hparse (hreply "\n```")).1.mpr (by decide),
    (completeObject_surrounded hfront hparse (hreply "\n``` :\x7d")).2 (by decide)⟩

end Clipboard.Remote
