import Hdlcd.Framing.Grammar

/-! The generator and the parser as inverses of each other: which unnumbered frames are
read back as they were, and which received buffers are serialized again byte for byte. -/

namespace Hdlcd.Framing
open FrameGenerator FrameParser FCS16

/-- The unnumbered frames that can be serialized, with a payload only where the parser
reads one. -/
structure Unnumbered (f : HdlcFrame) : Prop where
  frameType : f.hdlcFrameType ∈ [FrameType.uUI, .uSABM, .uDISC, .uUA, .uCMDR, .uTEST]
  payload : appendsPayload f.hdlcFrameType = false → f.payload = []

/-- A U-frame is serialized, and read back with its type, address, PF and payload. -/
def ReadBack (f : HdlcFrame) : Prop :=
  ∃ buffer, serializeFrame f = some buffer ∧
    (deserializeFrame buffer).hdlcFrameType = f.hdlcFrameType ∧
    (deserializeFrame buffer).address = f.address ∧ (deserializeFrame buffer).pf = f.pf ∧
    (deserializeFrame buffer).payload = f.payload

theorem Unnumbered.serializes {f : HdlcFrame} (h : Unnumbered f) :
    ∃ buffer, serializeFrame f = some buffer := by
  have hsome : (controlField f).isSome = true := by
    have ht := h.frameType
    simp only [List.mem_cons, List.not_mem_nil, or_false] at ht
    rcases ht with ht | ht | ht | ht | ht | ht <;> simp only [controlField, ht, Option.isSome_some]
  obtain ⟨⟨c, appendPayload⟩, hc⟩ := Option.isSome_iff_exists.mp hsome
  exact ⟨_, serializeFrame_eq hc⟩

theorem readBack_iff_onWire {f : HdlcFrame} (h : Unnumbered f) :
    ReadBack f ↔ f.onWire.hdlcFrameType = f.hdlcFrameType ∧ f.onWire.payload = f.payload := by
  constructor
  · rintro ⟨buffer, hbuffer, ht, _, _, hp⟩
    rw [deserializeFrame_serializeFrame hbuffer] at ht hp
    exact ⟨ht, hp⟩
  · rintro ⟨ht, hp⟩
    obtain ⟨buffer, hbuffer⟩ := h.serializes
    refine ⟨buffer, hbuffer, ?_⟩
    rw [deserializeFrame_serializeFrame hbuffer]
    exact ⟨ht, rfl, rfl, hp⟩

theorem onWire_hdlcFrameType_eq_iff (f : HdlcFrame) :
    f.onWire.hdlcFrameType = f.hdlcFrameType ↔ f.hdlcFrameType ≠ .uCMDR := by
  unfold HdlcFrame.onWire
  dsimp only
  split_ifs with h
  · rw [h]
    decide
  · exact iff_of_true rfl h

theorem Unnumbered.onWire_payload_eq_iff {f : HdlcFrame} (h : Unnumbered f) :
    f.onWire.payload = f.payload ↔ (f.hdlcFrameType ≠ .uUI → f.payload = []) := by
  have hi : f.isIFrame = false := by
    have ht := h.frameType
    simp only [List.mem_cons, List.not_mem_nil, or_false] at ht
    rcases ht with ht | ht | ht | ht | ht | ht <;> simp only [HdlcFrame.isIFrame, ht] <;> rfl
  by_cases hui : f.hdlcFrameType = .uUI
  · simp [HdlcFrame.onWire, hui]
  · have hnone : f.onWire.payload = [] := by simp [HdlcFrame.onWire, hi, hui]
    rw [hnone]
    exact ⟨fun hp _ => hp.symm, fun hp => (hp hui).symm⟩

/-- The code of CMDR is another one in the two tables, and the generator leaves out the
payload of TEST, which the parser reads. -/
theorem readBack_iff {f : HdlcFrame} (h : Unnumbered f) :
    ReadBack f ↔ f.hdlcFrameType ≠ .uCMDR ∧ (f.hdlcFrameType = .uTEST → f.payload = []) := by
  rw [readBack_iff_onWire h, onWire_hdlcFrameType_eq_iff, h.onWire_payload_eq_iff]
  refine and_congr_right fun hcmdr => ⟨fun hp htest => hp (by rw [htest]; decide), ?_⟩
  intro htest hui
  have ht := h.frameType
  simp only [List.mem_cons, List.not_mem_nil, or_false] at ht
  rcases ht with ht | ht | ht | ht | ht | ht
  · exact absurd ht hui
  · exact h.payload (by rw [ht]; rfl)
  · exact h.payload (by rw [ht]; rfl)
  · exact h.payload (by rw [ht]; rfl)
  · exact absurd ht hcmdr
  · exact htest ht

def cmdrFrame : HdlcFrame := { address := 0x30, hdlcFrameType := .uCMDR, pf := true, payload := [0x01] }

theorem readBack_iff_cmdrFrame :
    ReadBack cmdrFrame ↔
      cmdrFrame.hdlcFrameType ≠ .uCMDR ∧ (cmdrFrame.hdlcFrameType = .uTEST → cmdrFrame.payload = []) :=
  readBack_iff ⟨by decide, by decide⟩

/-- A CMDR frame arrives as SNRM without its payload. -/
theorem cmdrFrame_not_readBack : ¬ ∀ f : HdlcFrame, Unnumbered f → ReadBack f := by
  intro h
  obtain ⟨buffer, hbuffer, htype, _⟩ := h cmdrFrame ⟨by decide, by decide⟩
  rw [deserializeFrame_serializeFrame hbuffer] at htype
  exact absurd htype (by decide)

/-- What passes the checks of the parser. -/
structure PassesChecks (buffer : List UInt8) : Prop where
  opened : buffer.head? = some 0x7E
  closed : buffer.getLast? = some 0x7E
  length_ge : 6 ≤ buffer.length
  length_le : buffer.length ≤ maxLength
  residue : pppfcs16 pppInitFcs16 ((buffer.drop 1).dropLast) = pppGoodFcs16

/-- The types whose frames the generator writes as the parser reads them: with any
payload, or with none. -/
def Reencodable (buffer : List UInt8) : Prop :=
  (deserializeFrame buffer).hdlcFrameType ∈ [FrameType.i, .uUI] ∨
    (deserializeFrame buffer).hdlcFrameType ∈
        [FrameType.sRR, .sRNR, .sREJ, .sSREJ, .uSABM, .uDISC, .uUA, .uTEST] ∧
      buffer.length = 6

/-- A buffer that passes holds the content of its first two bytes and a payload: there is
only one pair of check bytes. -/
theorem PassesChecks.exists_content {buffer : List UInt8} (h : PassesChecks buffer) :
    ∃ address ctrl payload, buffer = 0x7E :: (content address ctrl payload ++ [0x7E]) := by
  obtain ⟨tail, rfl⟩ := List.head?_eq_some_iff.mp h.opened
  have htail : tail ≠ [] := by
    rintro rfl
    exact absurd h.length_ge (by decide)
  have hclosed := h.closed
  rw [List.getLast?_cons_of_ne_nil htail] at hclosed
  obtain ⟨body, rfl⟩ := List.getLast?_eq_some_iff.mp hclosed
  have hlen := h.length_ge
  have hresidue := h.residue
  rw [List.length_cons, List.length_append, List.length_singleton] at hlen
  rw [List.drop_succ_cons, List.drop_zero, List.dropLast_concat] at hresidue
  obtain ⟨rest, rfl⟩ := (checked_iff (by omega)).mp hresidue
  match rest, hlen with
  | address :: ctrl :: payload, _ => exact ⟨address, ctrl, payload, by simp [content]⟩

theorem control_rewritten : ∀ i : Fin 256,
    let read := deserializeControl (UInt8.ofNat i.val)
    read.1.hdlcFrameType ∈
        [FrameType.i, .uUI, .sRR, .sRNR, .sREJ, .sSREJ, .uSABM, .uDISC, .uUA, .uTEST] →
      (controlField read.1).map (fun r => (controlByte read.1 r.1, r.2)) =
          some (UInt8.ofNat i.val, read.1.carriesUserData) ∧
        (read.1.carriesUserData = true → read.2 = true) := by
  decide +kernel

theorem Reencodable.frameType_mem {buffer : List UInt8} (h : Reencodable buffer) :
    (deserializeFrame buffer).hdlcFrameType ∈
      [FrameType.i, .uUI, .sRR, .sRNR, .sREJ, .sSREJ, .uSABM, .uDISC, .uUA, .uTEST] := by
  rcases h with h | ⟨h, _⟩
  · exact List.mem_append_left [FrameType.sRR, .sRNR, .sREJ, .sSREJ, .uSABM, .uDISC, .uUA, .uTEST] h
  · exact List.mem_append_right [FrameType.i, .uUI] h

theorem carriesUserData_of_frameType {f : HdlcFrame} (h : f.hdlcFrameType ∈ [FrameType.i, .uUI]) :
    f.carriesUserData = true := by
  simp only [List.mem_cons, List.not_mem_nil, or_false] at h
  rcases h with h | h <;> simp only [HdlcFrame.carriesUserData, HdlcFrame.isIFrame, h] <;> rfl

/-- What was received is serialized as the bytes that were received. -/
theorem serializeFrame_deserializeFrame {buffer : List UInt8} (h : PassesChecks buffer)
    (hr : Reencodable buffer) : serializeFrame (deserializeFrame buffer) = some buffer := by
  have hmem := hr.frameType_mem
  obtain ⟨address, ctrl, payload, rfl⟩ := h.exists_content
  have hread := deserializeFrame_content address ctrl payload
  have htable := control_rewritten ⟨ctrl.toNat, ctrl.toNat_lt⟩
  rw [UInt8.ofNat_toNat] at htable
  rw [hread] at hmem
  obtain ⟨hfield, hcarries⟩ := htable hmem
  obtain ⟨⟨c, appendPayload⟩, hc, hpair⟩ := Option.map_eq_some_iff.mp hfield
  obtain ⟨hctrl, happend⟩ : controlByte (deserializeControl ctrl).1 c = ctrl ∧
      appendPayload = (deserializeControl ctrl).1.carriesUserData := Prod.mk.inj hpair
  have hpayload : (if appendPayload then
      (if (deserializeControl ctrl).2 then payload else []) else []) = payload := by
    cases hcase : (deserializeControl ctrl).1.carriesUserData with
    | true => rw [happend, hcase, if_pos rfl, if_pos (hcarries hcase)]
    | false =>
      rcases hr with hr | ⟨_, hsix⟩
      · rw [hread] at hr
        have hcarry : (deserializeControl ctrl).1.carriesUserData = true :=
          carriesUserData_of_frameType hr
        rw [hcase] at hcarry
        exact absurd hcarry Bool.false_ne_true
      · have hnil : payload = [] := by
          rw [List.length_cons, List.length_append, content_length, List.length_singleton] at hsix
          exact List.length_eq_zero_iff.mp (by omega)
        rw [hnil, ite_self, ite_self]
  have hsent : serializeFrame (deserializeFrame (0x7E :: (content address ctrl payload ++ [0x7E]))) =
      some (0x7E :: (content address (controlByte (deserializeControl ctrl).1 c)
        (if appendPayload then (if (deserializeControl ctrl).2 then payload else []) else []) ++
          [0x7E])) := by
    rw [hread]
    exact serializeFrame_eq hc
  rw [hsent, hpayload, hctrl]

theorem serializeFrame_deserializeFrame_test :
    serializeFrame (deserializeFrame [0x7E, 0x30, 0xE3, 0x70, 0x6C, 0x7E]) =
      some [0x7E, 0x30, 0xE3, 0x70, 0x6C, 0x7E] :=
  serializeFrame_deserializeFrame
    ⟨rfl, rfl, by decide, by decide, by decide +kernel⟩ (.inr ⟨by decide, rfl⟩)

end Hdlcd.Framing
