import Hdlcd.Framing.Delivery

/-! The byte strings between two flags that the parser takes for a frame: correctly
stuffed, of admissible length and with the check sequence of their content. -/

namespace Hdlcd.Framing
open FrameGenerator FrameParser FCS16 Reactive

def Stuffed (body : List UInt8) : Prop :=
  ∀ pre post, body = pre ++ 0x7D :: post → post.head? = some 0x5D ∨ post.head? = some 0x5E

/-- The content of a stuffed string: the byte behind an escape character has bit 5
inverted. -/
def unstuff : List UInt8 → List UInt8
  | [] => []
  | [b] => [b]
  | b :: c :: rest => if b = 0x7D then (c ^^^ 0x20) :: unstuff rest else b :: unstuff (c :: rest)

theorem stuffed_nil : Stuffed [] := by
  intro pre post h
  exact absurd h (by simp)

theorem stuffed_cons {b : UInt8} {rest : List UInt8} :
    Stuffed (b :: rest) ↔
      (b = 0x7D → rest.head? = some 0x5D ∨ rest.head? = some 0x5E) ∧ Stuffed rest := by
  constructor
  · intro h
    refine ⟨?_, fun pre post hrest => h (b :: pre) post (by rw [hrest, List.cons_append])⟩
    rintro rfl
    exact h [] rest rfl
  · rintro ⟨hb, hrest⟩ pre post h
    cases pre with
    | nil =>
      obtain ⟨rfl, rfl⟩ := List.cons_eq_cons.mp h
      exact hb rfl
    | cons p pre => exact hrest pre post (List.cons_eq_cons.mp h).2

theorem stuffed_pair {c : UInt8} {rest : List UInt8} :
    Stuffed (0x7D :: c :: rest) ↔ (c = 0x5D ∨ c = 0x5E) ∧ Stuffed rest := by
  rw [stuffed_cons, stuffed_cons]
  simp only [List.head?_cons, Option.some.injEq, true_imp_iff]
  constructor
  · rintro ⟨hc, _, hrest⟩
    exact ⟨hc, hrest⟩
  · rintro ⟨hc, hrest⟩
    refine ⟨hc, fun hesc => ?_, hrest⟩
    rcases hc with rfl | rfl <;> exact absurd hesc (by decide)

theorem stuffed_cons_of_ne {b : UInt8} {rest : List UInt8} (h : b ≠ 0x7D) :
    Stuffed (b :: rest) ↔ Stuffed rest := by
  rw [stuffed_cons, and_iff_right fun hb => absurd hb h]

theorem Stuffed.flatMap_unstuff {body : List UInt8} (h : Stuffed body)
    (hflag : (0x7E : UInt8) ∉ body) : (unstuff body).flatMap escapeByte = body := by
  fun_induction unstuff body with
  | case1 => rfl
  | case2 b =>
    have hesc : b ≠ 0x7D := by
      rintro rfl
      exact absurd ((stuffed_cons.mp h).1 rfl) (by decide)
    have hb : b ≠ 0x7E := by
      rintro rfl
      exact hflag (List.mem_singleton_self _)
    simp only [List.flatMap_cons, List.flatMap_nil, escapeByte, if_neg hesc, if_neg hb,
      List.append_nil]
  | case3 c rest ih =>
    obtain ⟨hc, hrest⟩ := stuffed_pair.mp h
    have hih := ih hrest fun hmem => hflag (List.mem_cons_of_mem _ (List.mem_cons_of_mem _ hmem))
    rw [List.flatMap_cons, hih]
    rcases hc with rfl | rfl <;> rfl
  | case4 b c rest hesc ih =>
    have hb : b ≠ 0x7E := by
      rintro rfl
      exact hflag List.mem_cons_self
    have hih := ih ((stuffed_cons_of_ne hesc).mp h) fun hmem => hflag (List.mem_cons_of_mem _ hmem)
    rw [List.flatMap_cons, hih, escapeByte, if_neg hesc, if_neg hb, List.singleton_append]

theorem stuffed_of_unescape {body : List UInt8} (h : (unescape (body ++ [0x7E])).2 = false) :
    Stuffed body := by
  fun_induction unstuff body with
  | case1 => exact stuffed_nil
  | case2 b =>
    have hesc : b ≠ 0x7D := by
      rintro rfl
      exact absurd h (by decide)
    exact (stuffed_cons_of_ne hesc).mpr stuffed_nil
  | case3 c rest ih =>
    simp only [List.cons_append, unescape, if_true] at h
    split_ifs at h with h5E h5D
    · exact stuffed_pair.mpr ⟨.inr h5E, ih h⟩
    · exact stuffed_pair.mpr ⟨.inl h5D, ih h⟩
  | case4 b c rest hesc ih =>
    rw [List.cons_append, unescape_cons hesc] at h
    exact (stuffed_cons_of_ne hesc).mpr (ih h)

structure WellFramed (body : List UInt8) : Prop where
  stuffed : Stuffed body
  length_ge : 4 ≤ (unstuff body).length
  length_le : (unstuff body).length ≤ 1022
  checked : ∃ rest, unstuff body =
    rest ++ [lowByte (pppfcs16 pppInitFcs16 rest ^^^ 0xffff),
      highByte (pppfcs16 pppInitFcs16 rest ^^^ 0xffff)]

theorem checked_iff {content : List UInt8} (h : 2 ≤ content.length) :
    pppfcs16 pppInitFcs16 content = pppGoodFcs16 ↔
      ∃ rest, content = rest ++ [lowByte (pppfcs16 pppInitFcs16 rest ^^^ 0xffff),
        highByte (pppfcs16 pppInitFcs16 rest ^^^ 0xffff)] := by
  constructor
  · intro hgood
    obtain ⟨x, y, hxy⟩ : ∃ x y, content.drop (content.length - 2) = [x, y] := by
      apply List.length_eq_two.mp
      rw [List.length_drop]
      omega
    have hcontent : content = content.take (content.length - 2) ++ [x, y] := by
      rw [← hxy, List.take_append_drop]
    rw [hcontent, pppfcs16_append] at hgood
    obtain ⟨hx, hy⟩ := (pppfcs16_eq_good_iff _ _ _).mp hgood
    exact ⟨_, by rw [← hx, ← hy]; exact hcontent⟩
  · rintro ⟨rest, rfl⟩
    rw [pppfcs16_append, pppfcs16_complement]

theorem WellFramed.residue {body : List UInt8} (h : WellFramed body) :
    pppfcs16 pppInitFcs16 (unstuff body) = pppGoodFcs16 :=
  (checked_iff (le_trans (by decide) h.length_ge)).mpr h.checked

theorem WellFramed.fits {body : List UInt8} (h : WellFramed body) :
    (unstuff body).length + 2 ≤ maxLength := Nat.add_le_add_right h.length_le 2

theorem unescapeBuffer_of_valid {buffer : List UInt8} {c : Interpretation}
    (hc : c ∈ (removeEscapeCharacters buffer).2.1) (hvalid : c.messageInvalid = false) :
    (unescapeBuffer buffer).2 = false ∧ 6 ≤ (unescapeBuffer buffer).1.length ∧
      (unescapeBuffer buffer).1.length ≤ maxLength ∧
      pppfcs16 pppInitFcs16 (((unescapeBuffer buffer).1.drop 1).dropLast) = pppGoodFcs16 := by
  unfold removeEscapeCharacters at hc
  dsimp only at hc
  split_ifs at hc with htwo hsize
  · exact absurd hc List.not_mem_nil
  · exact absurd hc List.not_mem_nil
  · rw [List.mem_singleton.mp hc] at hvalid
    simp only [Bool.or_eq_false_iff, bne_eq_false_iff_eq] at hvalid
    exact ⟨hvalid.1, by omega, by omega, hvalid.2⟩

theorem unescapeBuffer_stuffed {body : List UInt8} (hflag : (0x7E : UInt8) ∉ body)
    (h : (unescapeBuffer (0x7E :: (body ++ [0x7E]))).2 = false) :
    Stuffed body ∧ (unescapeBuffer (0x7E :: (body ++ [0x7E]))).1 = 0x7E :: (unstuff body ++ [0x7E]) := by
  unfold unescapeBuffer at h ⊢
  split_ifs at h ⊢ with hlast
  · rw [unescape_cons (by decide)] at h ⊢
    have hstuffed := stuffed_of_unescape h
    have hunescape := unescape_escaped (unstuff body) [0x7E]
    rw [hstuffed.flatMap_unstuff hflag] at hunescape
    rw [hunescape]
    exact ⟨hstuffed, rfl⟩

theorem wellFramed_of_closeFrame {body : List UInt8} {c : Interpretation}
    (hflag : (0x7E : UInt8) ∉ body) (hc : c ∈ (closeFrame body).1)
    (hvalid : c.messageInvalid = false) : WellFramed body := by
  obtain ⟨hlegal, hge, hle, hfcs⟩ := unescapeBuffer_of_valid hc hvalid
  obtain ⟨hstuffed, hbuffer⟩ := unescapeBuffer_stuffed hflag hlegal
  have hsize : (0x7E :: (unstuff body ++ [0x7E])).length = (unstuff body).length + 2 := by simp
  have hcontent : ((0x7E :: (unstuff body ++ [0x7E])).drop 1).dropLast = unstuff body := by simp
  rw [hbuffer, hsize] at hge hle
  rw [hbuffer, hcontent] at hfcs
  exact {
    stuffed := hstuffed
    length_ge := by omega
    length_le := Nat.le_of_add_le_add_right hle
    checked := (checked_iff (by omega)).mp hfcs }

theorem feed_wellFramed {body : List UInt8} (hflag : (0x7E : UInt8) ∉ body) (h : WellFramed body) :
    feed (body ++ [0x7E]) (.collecting .empty) =
      (.hunting, [validCall (0x7E :: (unstuff body ++ [0x7E]))]) := by
  have hfeed := feed_content h.length_ge h.residue
  rwa [if_pos h.fits, h.stuffed.flatMap_unstuff hflag] at hfeed

/-- The calls that chunks lead to behind an opening flag. -/
def callsAfterFlag (cut : List (List UInt8)) : List Interpretation :=
  (FrameParser.addReceivedChunks { buffer := [0x7E], startTokenSeen := true } cut).2

/-- The content of a body between two flags. -/
def delivered (body : List UInt8) : List UInt8 := 0x7E :: (unstuff body ++ [0x7E])

/-- From an empty frame on, a body without flags leads to a valid call exactly when it is
well framed; the call is then the only one, and its buffer stuffs back to the body. -/
theorem accepts_exactly_wellFramed {body : List UInt8} (hflag : (0x7E : UInt8) ∉ body)
    {cut : List (List UInt8)} (hcut : cut.flatten = body ++ [0x7E]) :
    ((∃ c ∈ callsAfterFlag cut, c.messageInvalid = false) ↔ WellFramed body) ∧
      (WellFramed body → callsAfterFlag cut = [⟨delivered body, deserializeFrame (delivered body), false⟩] ∧
        escapeFrame (delivered body) = 0x7E :: (body ++ [0x7E])) := by
  have hcalls : callsAfterFlag cut = (feed (body ++ [0x7E]) (.collecting .empty)).2 := by
    rw [← hcut]
    exact congrArg Prod.snd (addReceivedChunks_phase (.collecting .empty) cut)
  have honly (h : WellFramed body) :
      callsAfterFlag cut = [⟨delivered body, deserializeFrame (delivered body), false⟩] := by
    rw [hcalls, feed_wellFramed hflag h]
    rfl
  refine ⟨⟨?_, fun h => ?_⟩, fun h => ⟨honly h, ?_⟩⟩
  · rintro ⟨c, hc, hvalid⟩
    rw [hcalls, feed_to_flag _ hflag] at hc
    split_ifs at hc
    · exact wellFramed_of_closeFrame hflag hc hvalid
    · exact absurd hc List.not_mem_nil
  · rw [honly h]
    exact ⟨_, List.mem_singleton_self _, rfl⟩
  · rw [delivered, escapeFrame_delimited, h.stuffed.flatMap_unstuff hflag]

theorem accepts_exactly_wellFramed_test :
    ((∃ c ∈ callsAfterFlag [[0x30], [0xE3, 0x70, 0x6C, 0x7E]], c.messageInvalid = false) ↔
        WellFramed [0x30, 0xE3, 0x70, 0x6C]) ∧
      (WellFramed [0x30, 0xE3, 0x70, 0x6C] → callsAfterFlag [[0x30], [0xE3, 0x70, 0x6C, 0x7E]] =
          [⟨delivered [0x30, 0xE3, 0x70, 0x6C], deserializeFrame (delivered [0x30, 0xE3, 0x70, 0x6C]), false⟩] ∧
        escapeFrame (delivered [0x30, 0xE3, 0x70, 0x6C]) = 0x7E :: ([0x30, 0xE3, 0x70, 0x6C] ++ [0x7E])) :=
  accepts_exactly_wellFramed (by decide) rfl

end Hdlcd.Framing
