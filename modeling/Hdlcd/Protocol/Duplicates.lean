import Hdlcd.Protocol.SequenceRange

/-! An I-frame that is received twice in a row, as a retransmission brings it. The second
reception leaves the windows and the queue alone, but where the frame carries a payload it
takes the repeated number for a gap of seven frames. -/

namespace Hdlcd.ProtocolState
open Reactive Action FrameGenerator FrameParser Framing

def reception (f : HdlcFrame) : Act :=
  frameReceived.andThen ((receivePayload f).andThen (checkAcks f))

theorem interpretValidFrame_reception (f : HdlcFrame) :
    interpretValidFrame f =
      (reception f).andThen (branch (·.awaitsNextHDLCFrame) opportunityForTransmission skip) := by
  rw [interpretValidFrame, reception, andThen_assoc, andThen_assoc]

def queuedSREJs (f : HdlcFrame) (s : ProtocolState) : List UInt8 :=
  if f.hasPayload && f.isIFrame && s.rSeqIncoming != f.sSeq then missingFrames f.sSeq 8 s.rSeqIncoming
  else []

section
variable {f : HdlcFrame} {s : ProtocolState}

theorem reception_fst (f : HdlcFrame) (s : ProtocolState) :
    (reception f s).1 = (checkAcks f (afterReceive f s)).1 := by
  rw [← receivePayload_frameReceived]
  rfl

theorem reception_members (f : HdlcFrame) (s : ProtocolState) :
    (reception f s).1.rSeqIncoming = (afterReceive f s).rSeqIncoming ∧
      (reception f s).1.srejs = (afterReceive f s).srejs := by
  have hsame := (checkAcks_acked f (afterReceive f s)).same
  simp only [unacknowledgedMembers, Prod.mk.injEq] at hsame
  rw [reception_fst]
  exact ⟨hsame.2.2.1, hsame.2.2.2.2.2.1⟩

theorem reception_srejs (f : HdlcFrame) (s : ProtocolState) :
    (reception f s).1.srejs =
      if f.hasPayload && f.isIFrame && s.rSeqIncoming != f.sSeq then queuedSREJs f s else s.srejs := by
  rw [(reception_members f s).2, queuedSREJs, afterReceive]
  cases hcounts : (f.hasPayload && f.isIFrame) with
  | false => rfl
  | true =>
    by_cases hseq : s.rSeqIncoming = f.sSeq
    · simp [advanceWindow, hseq]
    · simp [advanceWindow, hseq]

theorem acknowledge_sSeqOutgoing (f : HdlcFrame) (s : ProtocolState) :
    (acknowledge f s).1.sSeqOutgoing = f.rSeq := rfl

theorem reception_sSeqOutgoing (hi : f.hdlcFrameType = .i) (s : ProtocolState) :
    (reception f s).1.sSeqOutgoing = f.rSeq := by
  rw [reception_fst, checkAcks, hi]
  exact acknowledge_sSeqOutgoing f _

theorem ne_next (x : UInt8) : x ≠ (x + 1) &&& 0x07 := by
  intro h
  have hnext := congrArg UInt8.toNat h
  rw [and_seven_toNat, UInt8.toNat_add] at hnext
  simp only [UInt8.reduceToNat] at hnext
  omega

theorem acknowledge_waitQueueReliable (hi : f.hdlcFrameType = .i) (hnew : s.acknowledges f.rSeq = false) :
    (acknowledge f s).1.waitQueueReliable = s.waitQueueReliable := by
  simp [acknowledge, andThen, update, branch, hi, hnew, skip]

theorem reception_waitQueueReliable (hi : f.hdlcFrameType = .i) (hold : s.sSeqOutgoing = f.rSeq) :
    (reception f s).1.waitQueueReliable = s.waitQueueReliable := by
  have hnew : (afterReceive f s).acknowledges f.rSeq = false := by
    have hsame : (afterReceive f s).sSeqOutgoing = f.rSeq := hold
    rw [acknowledges, hsame]
    exact beq_false_of_ne (ne_next f.rSeq)
  rw [reception_fst, checkAcks, hi]
  exact acknowledge_waitQueueReliable hi hnew

/-- The numbers that the cascade does not touch. -/
def KeepsNumbers (sSeqOutgoing rSeqIncoming : UInt8) : Assertion ProtocolState Effect := fun s _ =>
  s.sSeqOutgoing = sSeqOutgoing ∧ s.rSeqIncoming = rSeqIncoming

theorem keepsNumbers_stable (sSeqOutgoing rSeqIncoming : UInt8) :
    Stable (KeepsNumbers sSeqOutgoing rSeqIncoming) where
  kept h hk := ⟨hk.sSeqOutgoing.trans h.1, hk.rSeqIncoming.trans h.2⟩
  quiet h _ := h
  iFrame h _ _ _ _ _ := h
  uiFrame h _ _ := h

theorem handle_reception (hs : Attached s) (buffer : List UInt8) :
    (handle (.frame buffer false) s).1 =
      (branch (·.awaitsNextHDLCFrame) opportunityForTransmission skip
        (reception (deserializeFrame buffer) s).1).1 := by
  have hvalid : (handle (.frame buffer false) s).1 =
      (interpretValidFrame (deserializeFrame buffer) s).1 := by
    simp [handle, interpretDeserializedFrame, branch, hs.1, withSerialPortHandler, hs.2, Action.emit]
  rw [hvalid, interpretValidFrame_reception]
  rfl

theorem received_numbers (hs : Attached s) {buffer : List UInt8}
    (hi : (deserializeFrame buffer).hdlcFrameType = .i) :
    (handle (.frame buffer false) s).1.sSeqOutgoing = (deserializeFrame buffer).rSeq ∧
      (handle (.frame buffer false) s).1.rSeqIncoming =
        (afterReceive (deserializeFrame buffer) s).rSeqIncoming := by
  have hstable := keepsNumbers_stable (deserializeFrame buffer).rSeq
    (afterReceive (deserializeFrame buffer) s).rSeqIncoming
  have hreceived : KeepsNumbers (deserializeFrame buffer).rSeq
      (afterReceive (deserializeFrame buffer) s).rSeqIncoming (reception (deserializeFrame buffer) s).1 [] :=
    ⟨reception_sSeqOutgoing hi s, (reception_members _ s).1⟩
  rw [handle_reception hs]
  have hwp : (branch (·.awaitsNextHDLCFrame) opportunityForTransmission skip).wp
      (KeepsNumbers (deserializeFrame buffer).rSeq (afterReceive (deserializeFrame buffer) s).rSeqIncoming)
      (reception (deserializeFrame buffer) s).1 [] :=
    wp_branch (fun _ => hstable.opportunityForTransmission hreceived) fun _ => wp_skip.mpr hreceived
  exact hwp

/-- The second reception leaves what the first one and its opportunity left, and queues no
SREJ. -/
structure Harmless (f : HdlcFrame) (s : ProtocolState) : Prop where
  rSeqIncoming : (reception f s).1.rSeqIncoming = s.rSeqIncoming
  srejs : (reception f s).1.srejs = s.srejs
  sSeqOutgoing : (reception f s).1.sSeqOutgoing = s.sSeqOutgoing
  waitQueueReliable : (reception f s).1.waitQueueReliable = s.waitQueueReliable
  noSREJ : queuedSREJs f s = []

theorem missingFrames_repeated : ∀ i : Fin 8,
    missingFrames (UInt8.ofNat i.val) 8 ((UInt8.ofNat i.val + 1) &&& 0x07) ≠ [] := by
  decide +kernel

theorem afterReceive_rSeqIncoming (f : HdlcFrame) (s : ProtocolState) :
    (afterReceive f s).rSeqIncoming =
      if f.hasPayload && f.isIFrame then (f.sSeq + 1) &&& 0x07 else s.rSeqIncoming := by
  unfold afterReceive
  dsimp only
  split_ifs <;> rfl

section
variable {buffer : List UInt8}

theorem duplicate_keeps (hs : Attached s) (hi : (deserializeFrame buffer).hdlcFrameType = .i) :
    let t := (handle (.frame buffer false) s).1
    (reception (deserializeFrame buffer) t).1.rSeqIncoming = t.rSeqIncoming ∧
      (reception (deserializeFrame buffer) t).1.sSeqOutgoing = t.sSeqOutgoing ∧
      (reception (deserializeFrame buffer) t).1.waitQueueReliable = t.waitQueueReliable := by
  obtain ⟨hsSeq, hrSeq⟩ := received_numbers hs hi
  refine ⟨?_, ?_, reception_waitQueueReliable hi hsSeq⟩
  · rw [(reception_members _ _).1, afterReceive_rSeqIncoming, hrSeq, afterReceive_rSeqIncoming]
    split_ifs <;> rfl
  · rw [reception_sSeqOutgoing hi, hsSeq]

theorem duplicate_queues (hs : Attached s) (hi : (deserializeFrame buffer).hdlcFrameType = .i)
    (hpayload : (deserializeFrame buffer).hasPayload = true) :
    queuedSREJs (deserializeFrame buffer) (handle (.frame buffer false) s).1 ≠ [] := by
  have hiFrame : (deserializeFrame buffer).isIFrame = true := by rw [HdlcFrame.isIFrame, hi]; rfl
  have hnext : (handle (.frame buffer false) s).1.rSeqIncoming =
      ((deserializeFrame buffer).sSeq + 1) &&& 0x07 := by
    rw [(received_numbers hs hi).2, afterReceive_rSeqIncoming, hpayload, hiFrame]
    rfl
  have hgap : (handle (.frame buffer false) s).1.rSeqIncoming ≠ (deserializeFrame buffer).sSeq := by
    rw [hnext]
    exact (ne_next _).symm
  obtain ⟨i, hsSeq⟩ := exists_fin_eight (deserializeFrame_sSeq_lt buffer)
  rw [queuedSREJs, hpayload, hiFrame, bne_iff_ne.mpr hgap, hnext, hsSeq]
  exact missingFrames_repeated i

/-- A duplicate is harmless exactly if it carries no payload. -/
theorem duplicate_harmless_iff (hs : Attached s) (hi : (deserializeFrame buffer).hdlcFrameType = .i) :
    Harmless (deserializeFrame buffer) (handle (.frame buffer false) s).1 ↔
      (deserializeFrame buffer).hasPayload = false := by
  constructor
  · intro hharmless
    by_contra hpayload
    rw [Bool.not_eq_false] at hpayload
    exact duplicate_queues hs hi hpayload hharmless.noSREJ
  · intro hpayload
    obtain ⟨hrSeq, hsSeq, hqueue⟩ := duplicate_keeps hs hi
    refine ⟨hrSeq, ?_, hsSeq, hqueue, ?_⟩
    · rw [reception_srejs, hpayload]
      rfl
    · rw [queuedSREJs, hpayload]
      rfl

end

end

/-- The probe is sent, and the peer sends its first I-frame. -/
def firstReception : List Event := [.internal .start, .internal .triggerNextHDLCFrame]

def firstIFrame (payload : Payload) : HdlcFrame :=
  { address := 0x30, hdlcFrameType := .i, payload := payload }

theorem duplicate_harmless_iff_firstIFrame :
    Harmless (deserializeFrame (serialized (firstIFrame [])))
        (handle (.frame (serialized (firstIFrame [])) false) (run handle firstReception initial).1).1 ↔
      (deserializeFrame (serialized (firstIFrame []))).hasPayload = false :=
  duplicate_harmless_iff (by unfold Attached; decide +kernel) (by decide +kernel)

/-- The first I-frame comes twice, and the second time seven frames are asked for. -/
theorem duplicate_firstIFrame :
    ¬ ∀ es buffer, Attached (run handle es initial).1 → (deserializeFrame buffer).hdlcFrameType = .i →
      Harmless (deserializeFrame buffer) (handle (.frame buffer false) (run handle es initial).1).1 := by
  intro h
  have hharmless := h firstReception (serialized (firstIFrame [0x55])) (by unfold Attached; decide +kernel)
    (by decide +kernel)
  have hqueued := hharmless.srejs
  revert hqueued
  decide +kernel

end Hdlcd.ProtocolState
