import Hdlcd.Hdlc.FCS16
import Hdlcd.Hdlc.HdlcFrame

/-! The send side of FrameGenerator.cpp: control field, check sequence and byte
stuffing. `serializeFrame` answers `none` where the source runs into
`assert(false)`. -/

namespace Hdlcd.FrameGenerator
open FCS16

/-- The control field without the poll bit, and whether the payload is appended. -/
def controlField (f : HdlcFrame) : Option (UInt8 × Bool) :=
  match f.hdlcFrameType with
  | .i => some (((f.sSeq &&& 0x07) <<< 1) ||| ((f.rSeq &&& 0x07) <<< 5), true)
  | .sRR => some ((0x01 : UInt8) ||| ((f.rSeq &&& 0x07) <<< 5), false)
  | .sRNR => some ((0x05 : UInt8) ||| ((f.rSeq &&& 0x07) <<< 5), false)
  | .sREJ => some ((0x09 : UInt8) ||| ((f.rSeq &&& 0x07) <<< 5), false)
  | .sSREJ => some ((0x0d : UInt8) ||| ((f.rSeq &&& 0x07) <<< 5), false)
  | .uUI => some (0x03, true)
  | .uSABM => some (0x2F, false)
  | .uDISC => some (0x43, false)
  | .uUA => some (0x63, false)
  | .uCMDR => some (0x83, false)
  | .uTEST => some (0xE3, false)
  -- unknown structure, not implemented yet
  | .uSIM | .uSARM | .uUP | .uSNRM | .uXID => none
  | .unset => none

def applyFCS (hdlcFrame : List UInt8) : List UInt8 :=
  let trialfcs := pppfcs16 pppInitFcs16 (hdlcFrame.drop 1) ^^^ 0xffff
  hdlcFrame ++ [lowByte trialfcs, highByte trialfcs]

def serializeFrame (f : HdlcFrame) : Option (List UInt8) :=
  match controlField f with
  | none => none
  | some (controlField, appendPayload) =>
    let controlField := if f.pf then controlField ||| 0x10 else controlField
    some (applyFCS (0x7E :: f.address :: controlField ::
      if appendPayload then f.payload else []) ++ [0x7E])

def escapeByte (b : UInt8) : List UInt8 :=
  if b = 0x7D then [0x7D, 0x5D] else if b = 0x7E then [0x7D, 0x5E] else [b]

def escapeFrame (hdlcFrame : List UInt8) : List UInt8 :=
  0x7E :: ((hdlcFrame.drop 1).dropLast.flatMap escapeByte ++ [0x7E])

def content (address controlField : UInt8) (payload : List UInt8) : List UInt8 :=
  let trialfcs := pppfcs16 pppInitFcs16 (address :: controlField :: payload) ^^^ 0xffff
  address :: controlField :: (payload ++ [lowByte trialfcs, highByte trialfcs])

theorem content_length (address controlField : UInt8) (payload : List UInt8) :
    (content address controlField payload).length = payload.length + 4 := by
  simp [content]

theorem pppfcs16_content (address controlField : UInt8) (payload : List UInt8) :
    pppfcs16 pppInitFcs16 (content address controlField payload) = pppGoodFcs16 := by
  have h := pppfcs16_append pppInitFcs16 (address :: controlField :: payload)
    [lowByte (pppfcs16 pppInitFcs16 (address :: controlField :: payload) ^^^ 0xffff),
      highByte (pppfcs16 pppInitFcs16 (address :: controlField :: payload) ^^^ 0xffff)]
  rw [pppfcs16_complement] at h
  simpa only [content, List.cons_append] using h

def controlByte (f : HdlcFrame) (c : UInt8) : UInt8 := if f.pf then c ||| 0x10 else c

def sentPayload (f : HdlcFrame) (appendPayload : Bool) : List UInt8 :=
  if appendPayload then f.payload else []

theorem serializeFrame_eq {f : HdlcFrame} {c : UInt8} {appendPayload : Bool}
    (h : controlField f = some (c, appendPayload)) :
    serializeFrame f =
      some (0x7E :: (content f.address (controlByte f c) (sentPayload f appendPayload) ++ [0x7E])) := by
  simp only [serializeFrame, h, applyFCS, content, controlByte, sentPayload, List.drop_succ_cons,
    List.drop_zero, List.cons_append, List.append_assoc]

/-- Every serialized frame is a content of at least four bytes with a good
residue between two flags. -/
theorem serializeFrame_shape {f : HdlcFrame} {buffer : List UInt8}
    (h : serializeFrame f = some buffer) :
    ∃ body, buffer = 0x7E :: (body ++ [0x7E]) ∧ 4 ≤ body.length ∧
      pppfcs16 pppInitFcs16 body = pppGoodFcs16 := by
  cases hc : controlField f with
  | none => simp [serializeFrame, hc] at h
  | some cp =>
    obtain ⟨c, appendPayload⟩ := cp
    rw [serializeFrame_eq hc, Option.some.injEq] at h
    refine ⟨_, h.symm, ?_, pppfcs16_content _ _ _⟩
    rw [content_length]
    omega

theorem escapeByte_ne_flag {b c : UInt8} (h : c ∈ escapeByte b) : c ≠ 0x7E := by
  unfold escapeByte at h
  split_ifs at h with h1 h2 <;> simp only [List.mem_cons, List.not_mem_nil, or_false] at h
  · rcases h with rfl | rfl <;> decide
  · rcases h with rfl | rfl <;> decide
  · exact h ▸ h2

theorem flag_notMem_escaped (bs : List UInt8) : (0x7E : UInt8) ∉ bs.flatMap escapeByte := by
  intro h
  obtain ⟨b, _, hb⟩ := List.mem_flatMap.mp h
  exact escapeByte_ne_flag hb rfl

theorem escapeByte_length (b : UInt8) :
    1 ≤ (escapeByte b).length ∧ (escapeByte b).length ≤ 2 := by
  unfold escapeByte
  split_ifs <;> simp

theorem length_le_escaped (bs : List UInt8) :
    bs.length ≤ (bs.flatMap escapeByte).length ∧
      (bs.flatMap escapeByte).length ≤ 2 * bs.length := by
  induction bs with
  | nil => simp
  | cons b bs ih =>
    have hb := escapeByte_length b
    simp only [List.flatMap_cons, List.length_append, List.length_cons]
    omega

theorem escapeFrame_delimited (body : List UInt8) :
    escapeFrame (0x7E :: (body ++ [0x7E])) = 0x7E :: (body.flatMap escapeByte ++ [0x7E]) := by
  simp [escapeFrame]

end Hdlcd.FrameGenerator
