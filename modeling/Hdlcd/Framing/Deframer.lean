import Hdlcd.Library.Reactive
import Hdlcd.Hdlc.FrameParser

/-! What the parser is for, one byte at a time: hunting for a flag, or collecting the
bytes after one. The chunk-wise parser of the source makes exactly these steps. -/

namespace Hdlcd.Framing
open FrameParser Reactive

structure OpenFrame where
  body : List UInt8
  noFlag : (0x7E : UInt8) ∉ body
  bounded : body.length < 2 * maxLength

namespace OpenFrame

def empty : OpenFrame := ⟨[], List.not_mem_nil, by decide⟩

def extend (o : OpenFrame) (bytes : List UInt8) (hflag : (0x7E : UInt8) ∉ bytes)
    (hlen : o.body.length + bytes.length < 2 * maxLength) : OpenFrame where
  body := o.body ++ bytes
  noFlag := by
    rw [List.mem_append, not_or]
    exact ⟨o.noFlag, hflag⟩
  bounded := by rwa [List.length_append]

theorem ext_body {o o' : OpenFrame} (h : o.body = o'.body) : o = o' := by
  cases o
  cases o'
  cases h
  rfl

end OpenFrame

inductive Phase
  | hunting
  | collecting (frame : OpenFrame)

def Phase.parser : Phase → FrameParser
  | .hunting => FrameParser.reset
  | .collecting o => { buffer := 0x7E :: o.body, startTokenSeen := true }

theorem parser_hunting : Phase.hunting.parser = FrameParser.reset := rfl

theorem parser_collecting (o : OpenFrame) :
    (Phase.collecting o).parser = { buffer := 0x7E :: o.body, startTokenSeen := true } := rfl

/-- What the closing flag makes of the collected bytes: the call, and whether the frame
was valid. -/
def closeFrame (body : List UInt8) : List Interpretation × Bool :=
  (removeEscapeCharacters (0x7E :: (body ++ [0x7E]))).2

/-- After a valid frame the next one needs a start flag of its own; otherwise the closing
flag is taken for a start flag. -/
def afterClose : Bool → Phase
  | true => .hunting
  | false => .collecting .empty

theorem parser_afterClose (valid : Bool) :
    (afterClose valid).parser = { buffer := [0x7E], startTokenSeen := !valid } := by
  cases valid <;> rfl

def feedByte (b : UInt8) : Action Phase Interpretation
  | .hunting => (if b = 0x7E then .collecting .empty else .hunting, [])
  | .collecting o =>
    if hb : b = 0x7E then
      if o.body.length + 2 ≤ 2 * maxLength then
        (afterClose (closeFrame o.body).2, (closeFrame o.body).1)
      else (.collecting .empty, [])
    else if hlen : o.body.length + 1 < 2 * maxLength then
      (.collecting (o.extend [b] (by simpa using Ne.symm hb) hlen), [])
    else (.hunting, [])

def feed (bytes : List UInt8) : Action Phase Interpretation := run feedByte bytes

theorem feed_append (as bs : List UInt8) : feed (as ++ bs) = (feed as).andThen (feed bs) :=
  run_append feedByte as bs

theorem feed_cons (b : UInt8) (bs : List UInt8) : feed (b :: bs) = (feedByte b).andThen (feed bs) :=
  rfl

theorem feed_singleton (b : UInt8) : feed [b] = feedByte b := run_singleton feedByte b

theorem feed_hunting {bytes : List UInt8} (h : (0x7E : UInt8) ∉ bytes) :
    feed bytes .hunting = (.hunting, []) := by
  induction bytes with
  | nil => rfl
  | cons b bs ih =>
    rw [List.mem_cons, not_or] at h
    rw [feed_cons, Action.andThen_apply]
    simp only [feedByte, if_neg (Ne.symm h.1), ih h.2, List.nil_append]

theorem feed_collecting (o : OpenFrame) {bytes : List UInt8} (hflag : (0x7E : UInt8) ∉ bytes)
    (hlen : o.body.length + bytes.length < 2 * maxLength) :
    feed bytes (.collecting o) = (.collecting (o.extend bytes hflag hlen), []) := by
  induction bytes generalizing o with
  | nil =>
    rw [show o.extend [] hflag hlen = o from OpenFrame.ext_body (List.append_nil _)]
    rfl
  | cons b bs ih =>
    rw [List.mem_cons, not_or] at hflag
    rw [List.length_cons] at hlen
    have hb : ¬ b = 0x7E := Ne.symm hflag.1
    have hone : o.body.length + 1 < 2 * maxLength := by omega
    rw [feed_cons, Action.andThen_apply]
    simp only [feedByte, dif_neg hb, dif_pos hone, List.nil_append]
    rw [ih _ hflag.2 (by simp only [OpenFrame.extend, List.length_append, List.length_singleton]; omega)]
    exact congrArg (fun o' => (Phase.collecting o', [])) (OpenFrame.ext_body (by simp [OpenFrame.extend]))

theorem feed_overflow (o : OpenFrame) {bytes : List UInt8} (hflag : (0x7E : UInt8) ∉ bytes)
    (hlen : 2 * maxLength ≤ o.body.length + bytes.length) :
    feed bytes (.collecting o) = (.hunting, []) := by
  induction bytes generalizing o with
  | nil =>
    have hb := o.bounded
    rw [List.length_nil] at hlen
    omega
  | cons b bs ih =>
    rw [List.mem_cons, not_or] at hflag
    rw [List.length_cons] at hlen
    have hb : ¬ b = 0x7E := Ne.symm hflag.1
    rw [feed_cons, Action.andThen_apply]
    by_cases hone : o.body.length + 1 < 2 * maxLength
    · simp only [feedByte, dif_neg hb, dif_pos hone, List.nil_append]
      exact ih _ hflag.2
        (by simp only [OpenFrame.extend, List.length_append, List.length_singleton]; omega)
    · simp only [feedByte, dif_neg hb, dif_neg hone, feed_hunting hflag.2, List.nil_append]

theorem feedByte_flag_hunting : feedByte 0x7E .hunting = (.collecting .empty, []) := rfl

theorem feedByte_flag_fits {o : OpenFrame} (h : o.body.length + 2 ≤ 2 * maxLength) :
    feedByte 0x7E (.collecting o) =
      (afterClose (closeFrame o.body).2, (closeFrame o.body).1) := by
  simp only [feedByte, dif_pos, if_pos h]

theorem feedByte_flag_full {o : OpenFrame} (h : ¬ o.body.length + 2 ≤ 2 * maxLength) :
    feedByte 0x7E (.collecting o) = (.collecting .empty, []) := by
  simp only [feedByte, dif_pos, if_neg h]

theorem split_at_flag {bytes : List UInt8} {i : Nat} (h : bytes.idxOf? 0x7E = some i) :
    ∃ pre post, bytes = pre ++ 0x7E :: post ∧ pre.length = i ∧ (0x7E : UInt8) ∉ pre := by
  obtain ⟨hlt, hget, hbefore⟩ := List.idxOf?_eq_some_iff.mp h
  refine ⟨bytes.take i, bytes.drop (i + 1), ?_, by rw [List.length_take]; omega, ?_⟩
  · rw [← hget, ← List.drop_eq_getElem_cons hlt, List.take_append_drop]
  · intro hmem
    obtain ⟨j, hj, hjget⟩ := List.getElem_of_mem hmem
    rw [List.length_take] at hj
    rw [List.getElem_take] at hjget
    exact hbefore j (by omega) hjget

theorem take_to_flag (pre post : List UInt8) :
    (pre ++ 0x7E :: post).take (pre.length + 1) = pre ++ [0x7E] := by
  rw [List.append_cons]
  exact List.take_left' (by simp)

theorem unescapeBuffer_head (bytes : List UInt8) :
    (unescapeBuffer (0x7E :: bytes)).1.take 1 = [0x7E] := by
  unfold unescapeBuffer
  split_ifs
  · rfl
  · cases bytes <;> simp [unescape]

theorem removeEscapeCharacters_head (bytes : List UInt8) :
    (removeEscapeCharacters (0x7E :: bytes)).1.take 1 = [0x7E] := by
  unfold removeEscapeCharacters
  dsimp only
  split_ifs
  · rfl
  · exact unescapeBuffer_head bytes
  · exact unescapeBuffer_head bytes

theorem feed_to_flag (o : OpenFrame) {pre : List UInt8} (hflag : (0x7E : UInt8) ∉ pre) :
    feed (pre ++ [0x7E]) (.collecting o) =
      if o.body.length + pre.length + 2 ≤ 2 * maxLength then
        (afterClose (closeFrame (o.body ++ pre)).2, (closeFrame (o.body ++ pre)).1)
      else (.collecting .empty, []) := by
  rw [feed_append, Action.andThen_apply, feed_singleton]
  by_cases hlen : o.body.length + pre.length < 2 * maxLength
  · rw [feed_collecting o hflag hlen, List.nil_append]
    by_cases hfit : o.body.length + pre.length + 2 ≤ 2 * maxLength
    · rw [if_pos hfit]
      exact feedByte_flag_fits (o := o.extend pre hflag hlen)
        (by simpa only [OpenFrame.extend, List.length_append] using hfit)
    · rw [if_neg hfit]
      exact feedByte_flag_full (o := o.extend pre hflag hlen)
        (by simpa only [OpenFrame.extend, List.length_append] using hfit)
  · rw [feed_overflow o hflag (by omega), if_neg (by omega), feedByte_flag_hunting, List.nil_append]

theorem addChunk_phase (ph : Phase) (bytes : List UInt8) :
    let chunk := ph.parser.addChunk bytes
    let fed := feed (bytes.take chunk.2.2) ph
    chunk.1 = fed.1.parser ∧ chunk.2.1 = fed.2 := by
  cases hidx : bytes.idxOf? 0x7E with
  | none =>
    have hflag : (0x7E : UInt8) ∉ bytes := List.idxOf?_eq_none_iff.mp hidx
    cases ph with
    | hunting =>
      simp only [addChunk, parser_hunting, reset, hidx, if_true, List.take_length, feed_hunting hflag,
        and_self]
    | collecting o =>
      by_cases hlen : o.body.length + bytes.length < 2 * maxLength
      · have hfit : ¬ (o.body.length + 1 + bytes.length > 2 * maxLength) := by omega
        simp [addChunk, parser_collecting, hidx, hfit, feed_collecting o hflag hlen, OpenFrame.extend]
      · have hover : o.body.length + 1 + bytes.length > 2 * maxLength := by omega
        simp [addChunk, parser_hunting, parser_collecting, reset, hidx, hover,
          feed_overflow o hflag (by omega)]
  | some i =>
    obtain ⟨pre, post, rfl, rfl, hflag⟩ := split_at_flag hidx
    have htake := take_to_flag pre post
    cases ph with
    | hunting =>
      have hfed : feed (pre ++ [0x7E]) .hunting = (.collecting .empty, []) := by
        rw [feed_append, Action.andThen_apply, feed_hunting hflag, feed_singleton,
          feedByte_flag_hunting, List.nil_append]
      simp only [addChunk, parser_hunting, parser_collecting, reset, hidx, if_true, htake, hfed,
        OpenFrame.empty, and_self]
    | collecting o =>
      have hbuffer : (0x7E :: o.body) ++ (pre ++ [0x7E]) = 0x7E :: (o.body ++ pre ++ [0x7E]) := by simp
      by_cases hfit : o.body.length + pre.length + 2 ≤ 2 * maxLength
      · have hsrc : o.body.length + 1 + (pre.length + 1) ≤ 2 * maxLength := by omega
        simp only [addChunk, parser_collecting, hidx, Bool.true_eq_false, if_false, List.length_cons, hsrc,
          if_true, htake, hbuffer, removeEscapeCharacters_head, feed_to_flag o hflag, if_pos hfit,
          parser_afterClose, closeFrame, and_self]
      · have hsrc : ¬ o.body.length + 1 + (pre.length + 1) ≤ 2 * maxLength := by omega
        simp [addChunk, parser_collecting, hidx, hsrc, htake, feed_to_flag o hflag, hfit, OpenFrame.empty]

theorem addReceivedRawBytes_phase (ph : Phase) (bytes : List UInt8) :
    ph.parser.addReceivedRawBytes bytes = ((feed bytes ph).1.parser, (feed bytes ph).2) := by
  induction hn : bytes.length using Nat.strong_induction_on generalizing ph bytes with
  | _ n ih =>
    rw [addReceivedRawBytes]
    by_cases hnil : bytes = []
    · rw [dif_pos hnil, hnil]
      rfl
    · have hc := addChunk_consumed ph.parser hnil
      obtain ⟨hparser, hcalls⟩ := addChunk_phase ph bytes
      have hrest := ih _ (by rw [List.length_drop]; omega)
        (feed (bytes.take (ph.parser.addChunk bytes).2.2) ph).1
        (bytes.drop (ph.parser.addChunk bytes).2.2) rfl
      have hsplit : feed bytes ph = ((feed (bytes.take (ph.parser.addChunk bytes).2.2)).andThen
          (feed (bytes.drop (ph.parser.addChunk bytes).2.2))) ph := by
        rw [← feed_append, List.take_append_drop]
      rw [dif_neg hnil, hsplit]
      simp only [hparser, hrest, hcalls, Action.andThen_apply]

theorem addReceivedChunks_phase (ph : Phase) (chunks : List (List UInt8)) :
    ph.parser.addReceivedChunks chunks =
      ((feed chunks.flatten ph).1.parser, (feed chunks.flatten ph).2) := by
  induction chunks generalizing ph with
  | nil => rfl
  | cons chunk chunks ih =>
    simp only [addReceivedChunks, addReceivedRawBytes_phase, ih, List.flatten_cons, feed_append,
      Action.andThen_apply]

/-- The states of a parser that has read any bytes in any chunks since its reset. -/
def Reachable (p : FrameParser) : Prop :=
  ∃ chunks, p = (FrameParser.reset.addReceivedChunks chunks).1

theorem Reachable.exists_phase {p : FrameParser} (h : Reachable p) : ∃ ph : Phase, p = ph.parser := by
  obtain ⟨chunks, rfl⟩ := h
  exact ⟨_, congrArg Prod.fst (addReceivedChunks_phase .hunting chunks)⟩

end Hdlcd.Framing
