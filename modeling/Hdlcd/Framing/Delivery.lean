import Hdlcd.Framing.Deframer
import Hdlcd.Framing.ControlField

/-! What the deframer makes of a transmitted frame, from any phase. -/

namespace Hdlcd.Framing
open FrameGenerator FrameParser FCS16 Reactive

theorem unescape_cons {b : UInt8} (h : b ≠ 0x7D) (bytes : List UInt8) :
    unescape (b :: bytes) = (b :: (unescape bytes).1, (unescape bytes).2) := by
  cases bytes with
  | nil => simp only [unescape, if_neg h]
  | cons c rest => simp only [unescape, if_neg h]

theorem unescape_escapeByte (b : UInt8) (bytes : List UInt8) :
    unescape (escapeByte b ++ bytes) = (b :: (unescape bytes).1, (unescape bytes).2) := by
  unfold escapeByte
  split_ifs with h1 h2
  · subst h1
    simp [unescape]
  · subst h2
    simp [unescape]
  · exact unescape_cons h1 bytes

theorem unescape_escaped (body bytes : List UInt8) :
    unescape (body.flatMap escapeByte ++ bytes) =
      (body ++ (unescape bytes).1, (unescape bytes).2) := by
  induction body with
  | nil => rfl
  | cons b bs ih =>
    rw [List.flatMap_cons, List.append_assoc, unescape_escapeByte, ih]
    rfl

theorem escapeByte_last (b : UInt8) : ∃ xs y, escapeByte b = xs ++ [y] ∧ y ≠ 0x7D := by
  unfold escapeByte
  split_ifs with h1 h2
  · exact ⟨[0x7D], 0x5D, rfl, by decide⟩
  · exact ⟨[0x7D], 0x5E, rfl, by decide⟩
  · exact ⟨[], b, rfl, h1⟩

theorem escaped_last {body : List UInt8} (h : body ≠ []) :
    ∃ xs y, body.flatMap escapeByte = xs ++ [y] ∧ y ≠ 0x7D := by
  obtain ⟨init, b, rfl⟩ := (List.eq_nil_or_concat' body).resolve_left h
  obtain ⟨xs, y, hb, hy⟩ := escapeByte_last b
  refine ⟨init.flatMap escapeByte ++ xs, y, ?_, hy⟩
  rw [List.flatMap_append, List.flatMap_singleton, hb, List.append_assoc]

theorem unescapeBuffer_escaped {body : List UInt8} (h : body ≠ []) :
    unescapeBuffer (0x7E :: (body.flatMap escapeByte ++ [0x7E])) =
      (0x7E :: (body ++ [0x7E]), false) := by
  obtain ⟨xs, y, hlast, hy⟩ := escaped_last h
  -- the byte before the closing flag decides, and it is no escape character
  have hbehind : (0x7E :: (body.flatMap escapeByte ++ [0x7E])).getD
      ((0x7E :: (body.flatMap escapeByte ++ [0x7E])).length - 2) 0 = y := by
    rw [hlast]
    simp
  rw [unescapeBuffer, hbehind, if_neg hy, unescape_cons (by decide), unescape_escaped]
  simp [unescape]

def validCall (buffer : List UInt8) : Interpretation := ⟨buffer, deserializeFrame buffer, false⟩

theorem closeFrame_escaped {body : List UInt8} (h4 : 4 ≤ body.length)
    (hfcs : pppfcs16 pppInitFcs16 body = pppGoodFcs16) :
    closeFrame (body.flatMap escapeByte) =
      if body.length + 2 ≤ maxLength then ([validCall (0x7E :: (body ++ [0x7E]))], true)
      else ([], false) := by
  have hne : body ≠ [] := by
    rintro rfl
    exact absurd h4 (by decide)
  have hesc := (length_le_escaped body).1
  have hlen : (0x7E :: (body.flatMap escapeByte ++ [0x7E])).length ≠ 2 := by
    simp only [List.length_cons, List.length_append, List.length_nil]
    omega
  have hcontent : ((0x7E :: (body ++ [0x7E])).drop 1).dropLast = body := by simp
  have hsize : (0x7E :: (body ++ [0x7E])).length = body.length + 2 := by simp
  unfold closeFrame removeEscapeCharacters
  rw [if_neg hlen, unescapeBuffer_escaped hne]
  simp only [hcontent, hfcs, hsize, bne_self_eq_false, Bool.or_false, Bool.not_false]
  by_cases hfit : body.length + 2 ≤ maxLength
  · have hno : ¬ (body.length + 2 < 6 ∨ body.length + 2 > maxLength) := by omega
    rw [if_pos hfit, if_neg hno]
    rfl
  · have hyes : body.length + 2 < 6 ∨ body.length + 2 > maxLength := by omega
    rw [if_neg hfit, if_pos hyes]

theorem closeFrame_valid {body : List UInt8} (h : (closeFrame body).2 = true) :
    ∃ c ∈ (closeFrame body).1, c.messageInvalid = false := by
  revert h
  unfold closeFrame removeEscapeCharacters
  dsimp only
  split_ifs
  · intro h
    exact absurd h (by decide)
  · intro h
    exact absurd h (by decide)
  · intro h
    exact ⟨_, List.mem_singleton_self _, by simpa using h⟩

def Phase.Idle : Phase → Prop
  | .hunting => True
  | .collecting o => o.body = []

theorem idle_hunting : Phase.hunting.Idle := trivial

theorem idle_empty : (Phase.collecting .empty).Idle := rfl

theorem feedByte_flag_idle {ph : Phase} (h : ph.Idle) :
    feedByte 0x7E ph = (.collecting .empty, []) := by
  cases ph with
  | hunting => rfl
  | collecting o =>
    have ho : o = .empty := OpenFrame.ext_body h
    subst ho
    rfl

theorem feed_flags_idle {ph : Phase} (h : ph.Idle) (n : Nat) :
    (feed (List.replicate n 0x7E) ph).1.Idle ∧ (feed (List.replicate n 0x7E) ph).2 = [] := by
  induction n generalizing ph with
  | zero => exact ⟨h, rfl⟩
  | succ n ih =>
    rw [List.replicate_succ, feed_cons, Action.andThen_apply, feedByte_flag_idle h, List.nil_append]
    exact ih idle_empty

theorem feed_content {body : List UInt8} (h4 : 4 ≤ body.length)
    (hfcs : pppfcs16 pppInitFcs16 body = pppGoodFcs16) :
    feed (body.flatMap escapeByte ++ [0x7E]) (.collecting .empty) =
      if body.length + 2 ≤ maxLength then (.hunting, [validCall (0x7E :: (body ++ [0x7E]))])
      else (.collecting .empty, []) := by
  have hesc := (length_le_escaped body).2
  rw [feed_to_flag _ (flag_notMem_escaped body)]
  simp only [OpenFrame.empty, List.length_nil, Nat.zero_add, List.nil_append,
    closeFrame_escaped h4 hfcs]
  by_cases hfit : body.length + 2 ≤ maxLength
  · have hbuf : (body.flatMap escapeByte).length + 2 ≤ 2 * maxLength := by omega
    simp only [if_pos hfit, if_pos hbuf]
    rfl
  · simp only [if_neg hfit]
    split_ifs <;> rfl

theorem feed_content_hunting (body : List UInt8) :
    feed (body.flatMap escapeByte ++ [0x7E]) .hunting = (.collecting .empty, []) := by
  rw [feed_append, Action.andThen_apply, feed_hunting (flag_notMem_escaped body), feed_singleton,
    feedByte_flag_hunting, List.nil_append]

theorem escapeFrame_serialized {f : HdlcFrame} {buffer : List UInt8}
    (h : serializeFrame f = some buffer) :
    ∃ body, buffer = 0x7E :: (body ++ [0x7E]) ∧ 4 ≤ body.length ∧
      pppfcs16 pppInitFcs16 body = pppGoodFcs16 ∧
      escapeFrame buffer = [0x7E] ++ (body.flatMap escapeByte ++ [0x7E]) := by
  obtain ⟨body, rfl, h4, hfcs⟩ := serializeFrame_shape h
  exact ⟨body, rfl, h4, hfcs, escapeFrame_delimited body⟩

theorem feed_escapeFrame_idle {f : HdlcFrame} {buffer : List UInt8}
    (h : serializeFrame f = some buffer) {ph : Phase} (hidle : ph.Idle) :
    feed (escapeFrame buffer) ph =
      if buffer.length ≤ maxLength then (.hunting, [validCall buffer])
      else (.collecting .empty, []) := by
  obtain ⟨body, rfl, h4, hfcs, hesc⟩ := escapeFrame_serialized h
  have hsize : (0x7E :: (body ++ [0x7E])).length = body.length + 2 := by simp
  rw [hesc, feed_append, Action.andThen_apply, feed_singleton, feedByte_flag_idle hidle,
    List.nil_append, feed_content h4 hfcs, hsize]

end Hdlcd.Framing
