import Hdlcd.Hdlc.FrameParser

/-! The control fields of the generator and the parser hold independent tables. What
the parser reads from a serialized frame is the frame with its sequence numbers
reduced to three bits. -/

namespace Hdlcd.HdlcFrame

def onWire (f : HdlcFrame) : HdlcFrame :=
  { f with
    -- the code 0x83 that the generator has for CMDR is SNRM to the parser
    hdlcFrameType := if f.hdlcFrameType = .uCMDR then .uSNRM else f.hdlcFrameType
    sSeq := if f.isIFrame then f.sSeq &&& 0x07 else 0
    rSeq := if f.isIFrame || f.isSFrame then f.rSeq &&& 0x07 else 0
    payload := if f.isIFrame || f.hdlcFrameType == .uUI then f.payload else [] }

def carriesUserData (f : HdlcFrame) : Bool := f.isIFrame || f.hdlcFrameType == .uUI

end Hdlcd.HdlcFrame

namespace Hdlcd.Framing
open FrameGenerator FrameParser FCS16

theorem and_seven_toNat (s : UInt8) : (s &&& 0x07).toNat = s.toNat % 8 := by
  rw [UInt8.toNat_and]
  exact Nat.and_two_pow_sub_one_eq_mod s.toNat 3

theorem and_seven_lt (s : UInt8) : s &&& 0x07 < 8 := by
  apply UInt8.lt_iff_toNat_lt.mpr
  rw [and_seven_toNat]
  exact Nat.mod_lt _ (by decide)

theorem and_seven_eq_self {s : UInt8} (h : s < 8) : s &&& 0x07 = s := by
  apply UInt8.toNat_inj.mp
  rw [and_seven_toNat]
  exact Nat.mod_eq_of_lt (UInt8.lt_iff_toNat_lt.mp h)

theorem exists_fin_and_seven (s : UInt8) : ∃ i : Fin 8, s &&& 0x07 = UInt8.ofNat i.val :=
  ⟨⟨(s &&& 0x07).toNat, UInt8.lt_iff_toNat_lt.mp (and_seven_lt s)⟩, (UInt8.ofNat_toNat).symm⟩

def frameTypes : List FrameType :=
  [.unset, .i, .sRR, .sRNR, .sREJ, .sSREJ, .uUI, .uSIM, .uSARM, .uUP, .uSABM, .uDISC, .uUA,
    .uSNRM, .uCMDR, .uTEST, .uXID]

theorem mem_frameTypes (t : FrameType) : t ∈ frameTypes := by
  cases t <;> decide

def controlPart (f : HdlcFrame) : HdlcFrame := { f with address := 0, payload := [] }

theorem control_tables :
    ∀ t ∈ frameTypes, ∀ (i j : Fin 8) (pf : Bool),
      (controlField ⟨0, t, pf, UInt8.ofNat j.val, UInt8.ofNat i.val, []⟩).all (fun r =>
        decide (deserializeControl (if pf then r.1 ||| 0x10 else r.1) =
            (controlPart (HdlcFrame.onWire
              ⟨0, t, pf, UInt8.ofNat j.val, UInt8.ofNat i.val, []⟩), r.2 || t == .uTEST) ∧
          r.2 = (t == .i || t == .uUI))) = true := by
  decide +kernel

theorem controlField_and_seven (f : HdlcFrame) :
    controlField f =
      controlField ⟨0, f.hdlcFrameType, f.pf, f.rSeq &&& 0x07, f.sSeq &&& 0x07, []⟩ := by
  simp only [controlField, and_seven_eq_self (and_seven_lt _)]

theorem controlPart_onWire_and_seven (f : HdlcFrame) :
    controlPart (HdlcFrame.onWire
      ⟨0, f.hdlcFrameType, f.pf, f.rSeq &&& 0x07, f.sSeq &&& 0x07, []⟩) = controlPart f.onWire := by
  simp only [HdlcFrame.onWire, controlPart, and_seven_eq_self (and_seven_lt _)]
  rfl

theorem deserializeControl_controlField {f : HdlcFrame} {c : UInt8} {appendPayload : Bool}
    (h : controlField f = some (c, appendPayload)) :
    deserializeControl (controlByte f c) =
        (controlPart f.onWire, appendPayload || f.hdlcFrameType == .uTEST) ∧
      appendPayload = (f.isIFrame || f.hdlcFrameType == .uUI) := by
  obtain ⟨i, hi⟩ := exists_fin_and_seven f.sSeq
  obtain ⟨j, hj⟩ := exists_fin_and_seven f.rSeq
  have ht := control_tables f.hdlcFrameType (mem_frameTypes _) i j f.pf
  rw [controlField_and_seven, hi, hj] at h
  rw [h, Option.all_some, decide_eq_true_eq, ← hi, ← hj] at ht
  obtain ⟨hread, happend⟩ := ht
  rw [controlPart_onWire_and_seven] at hread
  exact ⟨hread, happend⟩

theorem serializeFrame_content {f : HdlcFrame} {buffer : List UInt8}
    (h : serializeFrame f = some buffer) :
    ∃ c appendPayload, controlField f = some (c, appendPayload) ∧
      buffer = 0x7E :: (content f.address (controlByte f c) (sentPayload f appendPayload) ++ [0x7E]) := by
  cases hc : controlField f with
  | none => simp [serializeFrame, hc] at h
  | some r =>
    rw [serializeFrame_eq hc, Option.some.injEq] at h
    exact ⟨r.1, r.2, rfl, h.symm⟩

theorem deserializeFrame_content (address ctrl : UInt8) (payload : List UInt8) :
    deserializeFrame (0x7E :: (content address ctrl payload ++ [0x7E])) =
      { (deserializeControl ctrl).1 with
        address := address
        payload := if (deserializeControl ctrl).2 then payload else [] } := by
  have htake (p : List UInt8) (x y z : UInt8) :
      (p ++ [x, y] ++ [z]).take ((p ++ [x, y] ++ [z]).length - 3) = p := by simp
  simp only [deserializeFrame, content, List.cons_append, htake]

theorem deserializeFrame_serializeFrame {f : HdlcFrame} {buffer : List UInt8}
    (h : serializeFrame f = some buffer) : deserializeFrame buffer = f.onWire := by
  obtain ⟨c, appendPayload, hc, rfl⟩ := serializeFrame_content h
  obtain ⟨hread, happend⟩ := deserializeControl_controlField hc
  have hpayload : (if (appendPayload || f.hdlcFrameType == .uTEST) = true then
      sentPayload f appendPayload else []) = f.onWire.payload := by
    cases appendPayload <;> simp [sentPayload, HdlcFrame.onWire, ← happend]
  simp only [deserializeFrame_content, hread, hpayload]
  rfl

theorem onWire_hdlcFrameType {α : Type*} (p : FrameType → α) (hp : p .uCMDR = p .uSNRM)
    (f : HdlcFrame) : p f.onWire.hdlcFrameType = p f.hdlcFrameType := by
  unfold HdlcFrame.onWire
  dsimp only
  split_ifs with hcmdr
  · rw [hcmdr, hp]
  · rfl

theorem onWire_rSeq {f : HdlcFrame} (h : (f.isIFrame || f.isSFrame) = true) :
    f.onWire.rSeq = f.rSeq &&& 0x07 := if_pos h

theorem and_shiftRight_five_lt (c : UInt8) : (c &&& 0xE0) >>> 5 < 8 := by
  apply UInt8.lt_iff_toNat_lt.mpr
  rw [UInt8.toNat_shiftRight, Nat.shiftRight_eq_div_pow]
  have hc : (c &&& 0xE0).toNat < 256 := UInt8.toNat_lt _
  exact Nat.div_lt_of_lt_mul hc

theorem deserializeFrame_rSeq_lt (buffer : List UInt8) : (deserializeFrame buffer).rSeq < 8 := by
  have hzero : (0 : UInt8) < 8 := by decide
  match buffer with
  | [] | [_] | [_, _] => exact hzero
  | _ :: _ :: c :: _ =>
    simp only [deserializeFrame, deserializeControl]
    split_ifs
    · exact and_shiftRight_five_lt c
    · exact and_shiftRight_five_lt c
    · exact hzero

theorem serializeFrame_length {f : HdlcFrame} {buffer : List UInt8}
    (h : serializeFrame f = some buffer) : buffer.length = f.onWire.payload.length + 6 := by
  obtain ⟨c, appendPayload, hc, rfl⟩ := serializeFrame_content h
  have happend := (deserializeControl_controlField hc).2
  rw [List.length_cons, List.length_append, content_length, List.length_singleton]
  simp only [sentPayload, HdlcFrame.onWire, ← happend]

end Hdlcd.Framing
