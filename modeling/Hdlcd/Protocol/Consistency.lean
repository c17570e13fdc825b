import Hdlcd.Protocol.Preparation

/-! What always holds of the members: an entity that is alive runs, an I-frame is only
outstanding while its payload is queued and the peer has not stopped the flow. -/

namespace Hdlcd.ProtocolState
open Reactive Action FrameGenerator FrameParser

def unacknowledgedMembers (s : ProtocolState) :=
  (s.started, s.awaitsNextHDLCFrame, s.rSeqIncoming, s.sendProbe, s.peerRequiresAck, s.srejs,
    s.serialPortHandler, s.frameParser, s.waitQueueUnreliable, s.aliveState)

structure Acked (f : HdlcFrame) (s t : ProtocolState) : Prop where
  same : unacknowledgedMembers t = unacknowledgedMembers s
  reliable : t.waitQueueReliable = s.waitQueueReliable ∨
    s.waitForAck = true ∧ t.waitForAck = false ∧
      ∃ front, s.waitQueueReliable = front :: t.waitQueueReliable
  waiting : t.waitForAck = true → s.waitForAck = true ∧ f.hdlcFrameType ≠ .sRNR ∧
    t.waitQueueReliable = s.waitQueueReliable ∧ t.timer = s.timer
  flow : t.peerStoppedFlow = true →
    f.hdlcFrameType = .sRNR ∧ t.peerStoppedFlowNew = true ∨
      s.peerStoppedFlow = true ∧ t.peerStoppedFlowNew = s.peerStoppedFlowNew ∧
        t.peerStoppedFlowQueried = s.peerStoppedFlowQueried ∧
        (s.waitForAck = false → t.timer = s.timer)

section
variable {f : HdlcFrame} {s : ProtocolState} {o : List Effect}

theorem popFrontReliable_wp {P : Assertion ProtocolState Effect} {t : ProtocolState}
    (hpop : ∀ front rest, t.waitQueueReliable = front :: rest →
      P { t with waitQueueReliable := rest } (o ++ [.popFrontReliable front]))
    (hempty : t.waitQueueReliable = [] → P t (o ++ [.fault .emptyQueue])) :
    popFrontReliable.wp P t o := by
  unfold wp popFrontReliable
  split
  · exact hpop _ _ ‹_›
  · exact hempty ‹_›

def AckedFrom (f : HdlcFrame) (s : ProtocolState) : Assertion ProtocolState Effect :=
  fun t _ => Acked f s t

theorem acknowledge_acked (hf : f.hdlcFrameType ≠ .sRNR) :
    (acknowledge f).wp (AckedFrom f s) s o := by
  simp only [acknowledge, wp_andThen, wp_update]
  split_ifs with hclear
  · refine wp_branch (fun hpop => ?_) fun _ => wp_skip.mpr (wp_update.mpr ?_)
    · simp [clearRnrCondition] at hpop
    · exact ⟨rfl, .inl rfl, by simp [clearRnrCondition], by simp [clearRnrCondition]⟩
  · refine wp_branch (fun hpop => ?_) fun _ => wp_skip.mpr (wp_update.mpr ?_)
    · rw [Bool.and_eq_true] at hpop
      have hwait : s.waitForAck = false → s.timer.cancel = s.timer :=
        fun hidle => absurd hpop.1 (by rw [hidle]; decide)
      rw [wp_andThen, wp_update]
      refine popFrontReliable_wp (fun front rest hq => wp_update.mpr ?_) fun hq => wp_update.mpr ?_
      · exact ⟨rfl, .inr ⟨hpop.1, rfl, front, hq⟩, by simp [stopWaiting],
          fun hflow => .inr ⟨hflow, rfl, rfl, hwait⟩⟩
      · exact ⟨rfl, .inl rfl, by simp [stopWaiting], fun hflow => .inr ⟨hflow, rfl, rfl, hwait⟩⟩
    · exact ⟨rfl, .inl rfl, fun hwait => ⟨hwait, hf, rfl, rfl⟩,
        fun hflow => .inr ⟨hflow, rfl, rfl, fun _ => rfl⟩⟩

theorem enterRnrCondition_members (s : ProtocolState) :
    unacknowledgedMembers s.enterRnrCondition = unacknowledgedMembers s ∧
      s.enterRnrCondition.waitForAck = s.waitForAck ∧
      s.enterRnrCondition.waitQueueReliable = s.waitQueueReliable ∧
      s.enterRnrCondition.timer = s.timer := by
  unfold enterRnrCondition
  split_ifs <;> exact ⟨rfl, rfl, rfl, rfl⟩

theorem receiveNotReady_acked (hf : f.hdlcFrameType = .sRNR) :
    (receiveNotReady f).wp (AckedFrom f s) s o := by
  obtain ⟨hsame, hwait₁, hqueue, htimer⟩ := enterRnrCondition_members s
  -- a new RNR condition sets its flag, an old one keeps what it has
  have hnew : s.enterRnrCondition.peerStoppedFlowNew = true ∨ s.peerStoppedFlow = true ∧
      s.enterRnrCondition.peerStoppedFlowNew = s.peerStoppedFlowNew ∧
      s.enterRnrCondition.peerStoppedFlowQueried = s.peerStoppedFlowQueried := by
    unfold enterRnrCondition
    split_ifs with hnew
    · exact .inl rfl
    · exact .inr ⟨by simpa using hnew, rfl, rfl⟩
  have hends {t : ProtocolState} (ht : t.peerStoppedFlowNew = s.enterRnrCondition.peerStoppedFlowNew ∧
      t.peerStoppedFlowQueried = s.enterRnrCondition.peerStoppedFlowQueried)
      (htimer : s.waitForAck = false → t.timer = s.timer) : t.peerStoppedFlow = true →
      f.hdlcFrameType = .sRNR ∧ t.peerStoppedFlowNew = true ∨
        s.peerStoppedFlow = true ∧ t.peerStoppedFlowNew = s.peerStoppedFlowNew ∧
          t.peerStoppedFlowQueried = s.peerStoppedFlowQueried ∧
          (s.waitForAck = false → t.timer = s.timer) := by
    intro _
    rw [ht.1, ht.2]
    rcases hnew with hnew | ⟨hold, hn, hq⟩
    · exact .inl ⟨hf, hnew⟩
    · exact .inr ⟨hold, hn, hq, htimer⟩
  simp only [receiveNotReady, wp_andThen, wp_update]
  refine wp_branch (fun hwait => ?_) fun hidle => wp_skip.mpr (wp_update.mpr ?_)
  · have hbusy (timer : DeadlineTimer TimerHandler) : s.waitForAck = false → timer = s.timer :=
      fun hidle => absurd (hwait₁.symm.trans hwait) (by rw [hidle]; decide)
    rw [wp_andThen, wp_update]
    refine wp_branch (fun _ => ?_) fun _ => wp_skip.mpr (wp_update.mpr ?_)
    · refine popFrontReliable_wp (fun front rest hq => wp_update.mpr ?_) fun hq => wp_update.mpr ?_
      · exact ⟨hsame, .inr ⟨hwait₁.symm.trans hwait, rfl, front, hqueue.symm.trans hq⟩,
          by simp [stopWaiting], hends ⟨rfl, rfl⟩ (hbusy _)⟩
      · exact ⟨hsame, .inl hqueue, by simp [stopWaiting], hends ⟨rfl, rfl⟩ (hbusy _)⟩
    · exact ⟨hsame, .inl hqueue, by simp [stopWaiting], hends ⟨rfl, rfl⟩ (hbusy _)⟩
  · refine ⟨hsame, .inl hqueue, fun hwait => ?_, hends ⟨rfl, rfl⟩ fun _ => htimer⟩
    exact absurd hwait (by rw [show s.enterRnrCondition.waitForAck = false from hidle]; decide)

theorem reject_acked (hf : f.hdlcFrameType ≠ .sRNR) : (reject f).wp (AckedFrom f s) s o := by
  simp only [reject, wp_andThen, wp_update]
  split_ifs <;> constructor <;>
    simp_all [clearRnrCondition, stopWaiting, unacknowledgedMembers]

theorem selectiveReject_acked (hf : f.hdlcFrameType ≠ .sRNR) :
    (selectiveReject f).wp (AckedFrom f s) s o := by
  simp only [selectiveReject, wp_andThen, wp_update]
  split_ifs <;> constructor <;>
    simp_all [clearRnrCondition, stopWaiting, unacknowledgedMembers]

theorem checkAcks_acked (f : HdlcFrame) (s : ProtocolState) : Acked f s (checkAcks f s).1 := by
  show (checkAcks f).wp (AckedFrom f s) s []
  unfold checkAcks
  split
  case h_1 ht | h_2 ht => exact acknowledge_acked (by simp [ht])
  case h_3 ht => exact receiveNotReady_acked ht
  case h_4 ht => exact reject_acked (by simp [ht])
  case h_5 ht => exact selectiveReject_acked (by simp [ht])
  case h_6 hrnr _ _ =>
    exact wp_skip.mpr ⟨rfl, .inl rfl, fun hwait => ⟨hwait, hrnr, rfl, rfl⟩,
      fun hflow => .inr ⟨hflow, rfl, rfl, fun _ => rfl⟩⟩

end

/-- A started entity that has its serial port handler. -/
def Attached (s : ProtocolState) : Prop := s.started = true ∧ s.serialPortHandler = true

structure Consistent (s : ProtocolState) : Prop where
  running : s.aliveState.isAlive = true → s.started = true ∧ s.serialPortHandler = true
  waiting : s.waitForAck = true →
    s.started = true ∧ s.waitQueueReliable ≠ [] ∧ s.peerStoppedFlow = false
  flow : s.peerStoppedFlow = true → s.started = true
  modulus : s.rSeqIncoming < 8

def StaysConsistent : Assertion ProtocolState Effect := fun s _ => Consistent s

def consistentMembers (s : ProtocolState) :=
  (s.aliveState.isAlive, s.started, s.serialPortHandler, s.waitForAck, s.waitQueueReliable,
    s.peerStoppedFlow, s.rSeqIncoming)

namespace Consistent

variable {s t : ProtocolState} {o : List Effect}

theorem congr (h : Consistent s) (hsame : consistentMembers t = consistentMembers s) :
    Consistent t := by
  simp only [consistentMembers, Prod.mk.injEq] at hsame
  obtain ⟨halive, hstarted, hhandler, hwait, hqueue, hflow, hseq⟩ := hsame
  constructor
  · rw [halive, hstarted, hhandler]
    exact h.running
  · rw [hwait, hstarted, hqueue, hflow]
    exact h.waiting
  · rw [hflow, hstarted]
    exact h.flow
  · rw [hseq]
    exact h.modulus

theorem unacknowledged (h : Consistent s) (ht : Unacknowledged s t) : Consistent t := by
  obtain ⟨_, ⟨_, rfl⟩ | ⟨_, _, rfl⟩⟩ := ht
  · exact h.congr rfl
  · exact h

theorem outcome (h : Consistent s) : Outcome StaysConsistent s o where
  silent _ := h
  fault _ _ _ := h.congr rfl
  probe _ _ _ _ _ := h.congr rfl
  srej _ _ _ _ _ _ := h.congr rfl
  iFrame front rest hs _ hq _ hflow xs _ := by
    have hrun := h.running hs.alive
    refine ⟨h.running, fun _ => ⟨hrun.1, ?_, hflow⟩, h.flow, h.modulus⟩
    exact hq ▸ List.cons_ne_nil front rest
  poll _ _ _ _ _ _ _ := h.congr rfl
  rr _ _ _ _ _ _ := h.congr rfl
  uiFrame _ _ _ ht _ _ _ := (h.unacknowledged ht).congr rfl
  query _ ht _ _ := h.unacknowledged ht
  idle _ ht _ _ _ := h.unacknowledged ht

theorem opportunity (h : Consistent s) : Consistent (opportunityForTransmission s).1 :=
  (h.outcome (o := [])).opportunityForTransmission fun halive => (h.running halive).2

theorem reset (s : ProtocolState) (started serialPortHandler : Bool) :
    Consistent { s.reset with started := started, serialPortHandler := serialPortHandler } where
  running halive := absurd halive Bool.false_ne_true
  waiting hwait := absurd hwait Bool.false_ne_true
  flow hflow := absurd hflow Bool.false_ne_true
  modulus := show (0 : UInt8) < 8 by decide

theorem enqueue (h : Consistent s) (payload : Payload) (reliable : Bool) :
    Consistent (s.enqueue payload reliable) := by
  cases reliable with
  | false => exact h.congr rfl
  | true =>
    refine ⟨h.running, fun hwait => ?_, h.flow, h.modulus⟩
    obtain ⟨hstarted, _, hflow⟩ := h.waiting hwait
    exact ⟨hstarted, by simp [ProtocolState.enqueue], hflow⟩

theorem afterReceive (h : Consistent s) (hstarted : s.started = true)
    (hhandler : s.serialPortHandler = true) (f : HdlcFrame) : Consistent (afterReceive f s) where
  running _ := ⟨hstarted, hhandler⟩
  waiting := h.waiting
  flow := h.flow
  modulus := by
    unfold ProtocolState.afterReceive
    split_ifs
    · exact Framing.and_seven_lt _
    · exact h.modulus

theorem acked {f : HdlcFrame} (h : Consistent s) (hstarted : s.started = true)
    (ht : Acked f s t) : Consistent t := by
  have hsame := ht.same
  simp only [unacknowledgedMembers, Prod.mk.injEq] at hsame
  obtain ⟨hstarted', _, hseq, _, _, _, hhandler, _, _, halive⟩ := hsame
  have hrun : t.started = true := hstarted'.trans hstarted
  refine ⟨?_, fun hwait => ?_, fun _ => hrun, hseq ▸ h.modulus⟩
  · rw [halive, hhandler, hstarted']
    exact h.running
  · obtain ⟨hwait', hrnr, hqueue, _⟩ := ht.waiting hwait
    obtain ⟨_, hne, hflow⟩ := h.waiting hwait'
    refine ⟨hrun, hqueue ▸ hne, Bool.eq_false_of_not_eq_true fun hstop => ?_⟩
    rcases ht.flow hstop with ⟨hrnr', _⟩ | ⟨hstop', _⟩
    · exact hrnr hrnr'
    · rw [hflow] at hstop'
      exact absurd hstop' Bool.false_ne_true

theorem prepareLocal (h : Consistent s) {e : LocalEvent} {p : Preparation} (hp : Prepared s e p) :
    Consistent p.state := by
  cases hp with
  | start => exact (reset s true s.serialPortHandler).congr rfl
  | stop => exact (reset s false s.serialPortHandler).congr rfl
  | shutdown => exact (reset s false false).congr rfl
  | sendPayload payload reliable => exact h.enqueue payload reliable
  | trigger | expire | rnrPoll | rnrOver | probeExpire => exact h.congr rfl
  | retransmission =>
    exact ⟨h.running, fun hwait => absurd hwait Bool.false_ne_true, h.flow, h.modulus⟩
  | stateTimer a halive => exact ⟨fun ha => h.running (halive ha), h.waiting, h.flow, h.modulus⟩
  | probe =>
    refine ⟨fun halive => ?_, h.waiting, h.flow, h.modulus⟩
    rw [prepareProbeTimer_isAlive] at halive
    exact h.running halive
  | ignored => exact h

theorem prepare (h : Consistent s) (e : Event) : Consistent (prepare e s).state := by
  cases e with
  | internal e => exact h.prepareLocal (prepared e s)
  | frame buffer messageInvalid =>
    unfold ProtocolState.prepare prepareFrame
    dsimp only
    split_ifs with hstarted hhandler
    · exact h
    · exact h
    · exact h
    · simp only [Bool.not_eq_true', Bool.not_eq_false] at hstarted hhandler
      exact (h.afterReceive hstarted hhandler _).acked hstarted (checkAcks_acked _ _)

theorem handle (h : Consistent s) (e : Event) : Consistent (handle e s).1 := by
  rw [handle_eq, Preparation.finish]
  split_ifs
  · exact (h.prepare e).opportunity
  · exact h.prepare e

theorem initial : Consistent initial where
  running := by decide
  waiting := by decide
  flow := by decide
  modulus := by decide

theorem run (es : List Event) : Consistent (run ProtocolState.handle es ProtocolState.initial).1 :=
  run_invariant ProtocolState.handle (C := fun _ _ => True) (fun _ e _ h => h.handle e) initial
    (along_of_forall _ (fun _ _ _ => trivial) _)

end Consistent

end Hdlcd.ProtocolState
