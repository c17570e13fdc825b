import Hdlcd.Protocol.Opportunity

/-! Every handler is its own part followed by steps that a stable assertion survives: the
prologue of a local event, the receive side and the acknowledgement tests of a frame. -/

namespace Hdlcd.ProtocolState
open Reactive Action FrameGenerator FrameParser

variable {P : Assertion ProtocolState Effect} {s : ProtocolState} {o : List Effect}

theorem Steady.and (hP : Steady P) {C : ProtocolState → Prop}
    (hC : ∀ {s s'}, C s → Kept s s' → C s') : Steady fun s o => P s o ∧ C s where
  kept h hs := ⟨hP.kept h.1 hs, hC h.2 hs⟩
  quiet h hx := ⟨hP.quiet h.1 hx, h.2⟩

theorem Stable.aliveCallbacks (hP : Stable P) (h : P s o) (callbacks : List AliveCallback) :
    (aliveCallbacks callbacks).wp P s o := by
  have hS := hP.toSteady
  apply wp_run _ h
  intro callback _ s o h
  cases callback with
  | sendProbe =>
    have h' : P { s with sendProbe := true } o := hS.kept h (by constructor <;> rfl)
    rw [aliveCallback, wp_andThen, wp_update]
    exact wp_branch (fun _ => hP.opportunityForTransmission h') (fun _ => wp_skip.mpr h')
  | changeBaudrate =>
    apply wp_branch
    · intro _
      apply hS.emit h
      intro x hx
      simp only [List.mem_cons, List.not_mem_nil, or_false] at hx
      rcases hx with rfl | rfl <;> trivial
    · intro _
      exact wp_skip.mpr h

theorem Stable.callAliveState (hP : Stable P) (h : P s o)
    (method : AliveState → AliveState × List AliveCallback) :
    (callAliveState method).wp P s o := by
  have h' : P { s with aliveState := (method s.aliveState).1 } o :=
    hP.kept h (by constructor <;> rfl)
  exact hP.aliveCallbacks h' _

def prologue : LocalEvent → ProtocolState → ProtocolState
  | .start, s => { s.reset with started := true }
  | .stop, s => if s.started then s.reset else s
  | .shutdown, s => if s.started then { s.reset with serialPortHandler := false } else s
  | .sendPayload payload reliable, s => s.enqueue payload reliable
  | .timerHandler .retransmission, s =>
    if .retransmission ∈ s.timer.queued then { s with waitForAck := false } else s
  | _, s => s

def Resets (e : LocalEvent) : Prop := e = .start ∨ e = .stop ∨ e = .shutdown

instance (e : LocalEvent) : Decidable (Resets e) := inferInstanceAs (Decidable (_ ∨ _ ∨ _))

theorem prologue_cases {Q : ProtocolState → Prop} {e : LocalEvent} {s : ProtocolState}
    (reset : Resets e → ∀ started serialPortHandler, (started = true → e = .start) →
      (serialPortHandler = true → s.serialPortHandler = true) →
      Q { s.reset with started := started, serialPortHandler := serialPortHandler })
    (enqueue : ∀ payload reliable, e = .sendPayload payload reliable → Q (s.enqueue payload reliable))
    (timeout : e = .timerHandler .retransmission → Q { s with waitForAck := false })
    (same : e ≠ .start → (∀ payload reliable, e ≠ .sendPayload payload reliable) → Q s) :
    Q (prologue e s) := by
  cases e with
  | start => exact reset (.inl rfl) true s.serialPortHandler (fun _ => rfl) id
  | stop =>
    unfold prologue
    dsimp only
    split_ifs
    · exact reset (.inr (.inl rfl)) false s.serialPortHandler (by simp) id
    · exact same (by simp) (by simp)
  | shutdown =>
    unfold prologue
    dsimp only
    split_ifs
    · exact reset (.inr (.inr rfl)) false false (by simp) (by simp)
    · exact same (by simp) (by simp)
  | sendPayload payload reliable => exact enqueue payload reliable rfl
  | timerHandler handler =>
    cases handler with
    | retransmission =>
      unfold prologue
      dsimp only
      split_ifs
      · exact timeout rfl
      · exact same (by simp) (by simp)
    | rnrPoll => exact same (by simp) (by simp)
  | _ => exact same (by simp) (by simp)

theorem Stable.start (hP : Stable P) (h : P { s.reset with started := true } o) :
    start.wp P s o := by
  simp only [ProtocolState.start, wp_andThen, wp_update]
  exact wp_mono (hP.callAliveState h _) fun _ _ h' => hP.opportunityForTransmission h'

theorem Stable.sendPayload (hP : Stable P) {payload : Payload} {reliable : Bool}
    (h : P (s.enqueue payload reliable) o) : (sendPayload payload reliable).wp P s o := by
  rw [ProtocolState.sendPayload, wp_andThen, wp_update]
  unfold wp
  dsimp only
  split_ifs
  · exact hP.opportunityForTransmission h
  · rwa [List.append_nil]

theorem Stable.onProbeTimer (hP : Stable P) (h : P s o) : onProbeTimer.wp P s o := by
  rw [ProtocolState.onProbeTimer, wp_andThen]
  refine wp_mono (hP.callAliveState h _) fun _ _ h' => ?_
  exact hP.toSteady.update h' (by constructor <;> rfl)

theorem Steady.onStateTimer (hP : Steady P) (h : P s o) : onStateTimer.wp P s o := by
  unfold wp ProtocolState.onStateTimer
  cases s.aliveState.onStateTimeout with
  | some a => exact (List.append_nil o).symm ▸ hP.kept h (by constructor <;> rfl)
  | none => exact hP.quiet h trivial

theorem Stable.timerHandler (hP : Stable P) {handler : TimerHandler}
    (h : P (prologue (.timerHandler handler) s) o) :
    (handleLocal (.timerHandler handler)).wp P s o := by
  have hS := hP.toSteady
  apply wp_branch
  · intro hqueued
    rw [wp_andThen, wp_update]
    cases handler with
    | retransmission =>
      rw [prologue, if_pos (of_decide_eq_true hqueued)] at h
      rw [onTimer, wp_andThen, wp_update]
      exact hP.opportunityForTransmission (hS.kept h (by constructor <;> rfl))
    | rnrPoll =>
      have h' : P { s with timer := s.timer.complete .rnrPoll } o :=
        hS.kept h (by constructor <;> rfl)
      apply wp_branch
      · intro _
        rw [wp_andThen, wp_update]
        exact hP.opportunityForTransmission (hS.kept h' (by constructor <;> rfl))
      · intro _
        exact wp_skip.mpr h'
  · intro hqueued
    cases handler with
    | retransmission =>
      rw [prologue, if_neg (of_decide_eq_false hqueued)] at h
      exact wp_skip.mpr h
    | rnrPoll => exact wp_skip.mpr h

theorem Stable.handleLocal (hP : Stable P) (e : LocalEvent) (h : P (prologue e s) o) :
    (handleLocal e).wp P s o := by
  have hS := hP.toSteady
  cases e with
  | start => exact hP.start h
  | stop =>
    apply wp_branch
    · intro hstarted
      rw [prologue, if_pos hstarted] at h
      rw [wp_andThen, wp_update]
      apply hS.withSerialPortHandler h
      intro _
      exact hS.emit h fun x hx => by rw [List.mem_singleton.mp hx]; trivial
    · intro hstarted
      rw [prologue, if_neg (Bool.not_eq_true _ ▸ hstarted)] at h
      exact wp_skip.mpr h
  | shutdown =>
    apply wp_branch
    · intro hstarted
      rw [prologue, if_pos hstarted] at h
      exact wp_update.mpr h
    · intro hstarted
      rw [prologue, if_neg (Bool.not_eq_true _ ▸ hstarted)] at h
      exact wp_skip.mpr h
  | sendPayload payload reliable => exact hP.sendPayload h
  | triggerNextHDLCFrame =>
    apply wp_branch
    · intro _
      exact wp_skip.mpr h
    · intro _
      rw [wp_andThen, wp_update]
      exact hP.opportunityForTransmission (hS.kept h (by constructor <;> rfl))
  | timerExpires => exact hS.update h (by constructor <;> rfl)
  | timerHandler handler => exact hP.timerHandler h
  | stateTimerExpires => exact hS.update h (by constructor <;> rfl)
  | stateTimerHandler =>
    apply wp_branch
    · intro _
      rw [wp_andThen, wp_update]
      exact hS.onStateTimer (hS.kept h (by constructor <;> rfl))
    · intro _
      exact wp_skip.mpr h
  | probeTimerExpires => exact hS.update h (by constructor <;> rfl)
  | probeTimerHandler =>
    apply wp_branch
    · intro _
      rw [wp_andThen, wp_update]
      exact hP.onProbeTimer (hS.kept h (by constructor <;> rfl))
    · intro _
      exact wp_skip.mpr h

theorem Steady.frameReceived (hP : Steady P) (h : P s o) : frameReceived.wp P s o := by
  refine hP.quiets (hP.kept h (by constructor <;> rfl)) ?_
  intro x hx
  rw [ProtocolState.frameReceived] at hx
  split_ifs at hx
  · rw [List.mem_singleton.mp hx]
    trivial
  · exact absurd hx List.not_mem_nil

def afterPayload (f : HdlcFrame) (s : ProtocolState) : ProtocolState :=
  if f.hasPayload && f.isIFrame then { s with rSeqIncoming := (f.sSeq + 1) &&& 0x07 } else s

theorem Steady.receivePayload (hP : Steady P) {f : HdlcFrame} (h : P (afterPayload f s) o) :
    (receivePayload f).wp P s o := by
  unfold ProtocolState.receivePayload
  unfold afterPayload at h
  cases hpayload : f.hasPayload with
  | false =>
    rw [hpayload, Bool.false_and, if_neg Bool.false_ne_true] at h
    rw [if_neg Bool.false_ne_true, wp_skip]
    exact h
  | true =>
    rw [hpayload, Bool.true_and] at h
    rw [if_pos rfl, wp_andThen, wp_emit]
    split_ifs at h ⊢
    · rw [wp_update]
      exact hP.quiet (hP.kept h (by constructor <;> rfl)) trivial
    · rw [wp_skip]
      exact hP.quiet h trivial

def carriesAck (f : HdlcFrame) : Bool :=
  f.hdlcFrameType == .i || f.hdlcFrameType == .sRR || f.hdlcFrameType == .sRNR

def nextSSeq (f : HdlcFrame) (s : ProtocolState) : UInt8 :=
  if carriesAck f then f.rSeq
  else if f.hdlcFrameType = .sREJ then (f.rSeq + 0x07) &&& 0x07 else s.sSeqOutgoing

def restartsFlow (f : HdlcFrame) : Bool :=
  f.hdlcFrameType == .sRR || f.hdlcFrameType == .sREJ || f.hdlcFrameType == .sSREJ

structure Passed (f : HdlcFrame) (s : ProtocolState) (waitForAck peerStoppedFlow : Bool) : Prop where
  waiting : waitForAck = true → s.waitForAck = true ∧ f.hdlcFrameType ≠ .sRNR ∧
    (carriesAck f = true → s.acknowledges f.rSeq = false) ∧
    (f.hdlcFrameType = .sREJ ∨ f.hdlcFrameType = .sSREJ → f.rSeq ≠ s.sSeqOutgoing)
  flow : peerStoppedFlow = true →
    f.hdlcFrameType = .sRNR ∨ s.peerStoppedFlow = true ∧ restartsFlow f = false
  missed : carriesAck f = true → s.acknowledges f.rSeq = true → s.waitForAck = true →
    s.peerStoppedFlow = true ∨ s.waitQueueReliable = []

structure AckRule (f : HdlcFrame) (P : Assertion ProtocolState Effect) (s : ProtocolState)
    (o : List Effect) : Prop where
  pop : ∀ front rest peerStoppedFlow, carriesAck f = true → s.waitForAck = true →
    s.acknowledges f.rSeq = true → s.waitQueueReliable = front :: rest →
    P { s with
        sSeqOutgoing := f.rSeq, waitForAck := false, peerStoppedFlow := peerStoppedFlow,
        waitQueueReliable := rest } (o ++ [.popFrontReliable front])
  pass : ∀ waitForAck peerStoppedFlow, Passed f s waitForAck peerStoppedFlow →
    P { s with
        sSeqOutgoing := nextSSeq f s, waitForAck := waitForAck,
        peerStoppedFlow := peerStoppedFlow } o

section
variable {f : HdlcFrame}

theorem AckRule.popFront (hP : Steady P) (h : AckRule f P s o) (hack : carriesAck f = true)
    (hwait : s.waitForAck = true) (hseq : s.acknowledges f.rSeq = true) {s' : ProtocolState}
    (hs' : Kept { s with waitForAck := false, peerStoppedFlow := s'.peerStoppedFlow } s')
    (hflow : s'.peerStoppedFlow = true →
      f.hdlcFrameType = .sRNR ∨ s.peerStoppedFlow = true ∧ restartsFlow f = false) :
    popFrontReliable.wp (fun t o => P { t with sSeqOutgoing := f.rSeq } o) s' o := by
  have hqueue : s'.waitQueueReliable = s.waitQueueReliable := hs'.waitQueueReliable
  unfold wp popFrontReliable
  cases hq : s.waitQueueReliable with
  | nil =>
    rw [hqueue, hq]
    have hpassed : Passed f s false s'.peerStoppedFlow :=
      ⟨fun h' => absurd h' Bool.false_ne_true, hflow, fun _ _ _ => .inr hq⟩
    have hpass := h.pass _ _ hpassed
    rw [nextSSeq, if_pos hack] at hpass
    refine hP.quiet (hP.kept hpass ?_) trivial
    exact ⟨hs'.started, rfl, hs'.rSeqIncoming, hs'.peerStoppedFlow, hs'.waitForAck,
      hs'.serialPortHandler, hs'.frameParser, hs'.waitQueueReliable, hs'.waitQueueUnreliable⟩
  | cons front rest =>
    rw [hqueue, hq]
    refine hP.kept (h.pop front rest s'.peerStoppedFlow hack hwait hseq hq) ?_
    exact ⟨hs'.started, rfl, hs'.rSeqIncoming, hs'.peerStoppedFlow, hs'.waitForAck,
      hs'.serialPortHandler, hs'.frameParser, rfl, hs'.waitQueueUnreliable⟩

theorem Steady.acknowledge (hP : Steady P) (h : AckRule f P s o)
    (hf : f.hdlcFrameType = .i ∨ f.hdlcFrameType = .sRR) : (acknowledge f).wp P s o := by
  have hack : carriesAck f = true := by rcases hf with hf | hf <;> simp [carriesAck, hf]
  have hrnr : f.hdlcFrameType ≠ .sRNR := by rcases hf with hf | hf <;> simp [hf]
  have hrej : ¬ (f.hdlcFrameType = .sREJ ∨ f.hdlcFrameType = .sSREJ) := by
    rcases hf with hf | hf <;> simp [hf]
  have hpass := h.pass
  simp only [nextSSeq, hack, if_true] at hpass
  simp only [ProtocolState.acknowledge, wp_andThen, wp_update]
  split_ifs with hclear
  · simp only [Bool.and_eq_true] at hclear
    have hpassed : Passed f s false false :=
      ⟨fun h' => absurd h' Bool.false_ne_true, fun h' => absurd h' Bool.false_ne_true,
        fun _ _ _ => .inl hclear.1⟩
    apply wp_branch
    · intro hwait
      simp [clearRnrCondition] at hwait
    · intro _
      rw [wp_skip, wp_update]
      exact hP.kept (hpass _ _ hpassed) (by constructor <;> rfl)
  · have hflow (hpeer : s.peerStoppedFlow = true) :
        f.hdlcFrameType = .sRNR ∨ s.peerStoppedFlow = true ∧ restartsFlow f = false := by
      refine .inr ⟨hpeer, ?_⟩
      rcases hf with hf | hf
      · simp [restartsFlow, hf]
      · exact absurd (by simp [hpeer, hf]) hclear
    apply wp_branch
    · intro hpop
      rw [Bool.and_eq_true] at hpop
      rw [wp_andThen, wp_update]
      have hs' : Kept { s with waitForAck := false, peerStoppedFlow := s.stopWaiting.peerStoppedFlow }
          s.stopWaiting := by constructor <;> rfl
      refine wp_mono (h.popFront hP hack hpop.1 hpop.2 hs' hflow) ?_
      exact fun t o' ht => wp_update.mpr ht
    · intro hkeep
      rw [wp_skip, wp_update]
      have hseq : s.waitForAck = true → s.acknowledges f.rSeq = false := by
        intro hwait
        rwa [hwait, Bool.true_and] at hkeep
      have hpassed : Passed f s s.waitForAck s.peerStoppedFlow :=
        ⟨fun hwait => ⟨hwait, hrnr, fun _ => hseq hwait, fun h' => absurd h' hrej⟩, hflow,
          fun _ hyes hwait => absurd (hseq hwait) (by rw [hyes]; decide)⟩
      exact hP.kept (hpass _ _ hpassed) (by constructor <;> rfl)

theorem kept_enterRnrCondition (s : ProtocolState) :
    Kept { s with peerStoppedFlow := true } s.enterRnrCondition := by
  unfold enterRnrCondition
  split_ifs with hflow
  · constructor <;> rfl
  · simp only [Bool.not_eq_true', Bool.not_eq_false] at hflow
    exact ⟨rfl, rfl, rfl, hflow, rfl, rfl, rfl, rfl, rfl⟩

theorem Steady.receiveNotReady (hP : Steady P) (h : AckRule f P s o)
    (hf : f.hdlcFrameType = .sRNR) : (receiveNotReady f).wp P s o := by
  have hack : carriesAck f = true := by simp [carriesAck, hf]
  have hs₁ := kept_enterRnrCondition s
  have hwait₁ : s.enterRnrCondition.waitForAck = s.waitForAck := hs₁.waitForAck
  have hseq₁ : s.enterRnrCondition.acknowledges f.rSeq = s.acknowledges f.rSeq := by
    rw [acknowledges, hs₁.sSeqOutgoing, acknowledges]
  have hpassed (hmissed : s.acknowledges f.rSeq = true → s.waitForAck = false) :
      Passed f s false true :=
    ⟨fun h' => absurd h' Bool.false_ne_true, fun _ => .inl hf,
      fun _ hyes hwait => absurd hwait (by rw [hmissed hyes]; decide)⟩
  have hpass (hmissed : s.acknowledges f.rSeq = true → s.waitForAck = false) :
      P { s with sSeqOutgoing := f.rSeq, waitForAck := false, peerStoppedFlow := true } o := by
    have hpass := h.pass _ _ (hpassed hmissed)
    rwa [nextSSeq, if_pos hack] at hpass
  simp only [ProtocolState.receiveNotReady, wp_andThen, wp_update]
  apply wp_branch
  · intro hwait
    rw [hwait₁] at hwait
    rw [wp_andThen, wp_update]
    apply wp_branch
    · intro hyes
      have hs₂ : Kept { s with waitForAck := false, peerStoppedFlow := true }
          s.enterRnrCondition.stopWaiting := { hs₁ with waitForAck := rfl }
      refine wp_mono (h.popFront hP hack hwait (hseq₁ ▸ hyes) (hs₂.peerStoppedFlow ▸ hs₂) ?_) ?_
      · exact fun _ => .inl hf
      · exact fun t o' ht => wp_update.mpr ht
    · intro hno
      have hno' : s.acknowledges f.rSeq = false := hseq₁ ▸ hno
      rw [wp_skip, wp_update]
      refine hP.kept (hpass fun hyes => absurd hyes (by rw [hno']; decide)) ?_
      exact { hs₁ with sSeqOutgoing := rfl, waitForAck := rfl }
  · intro hwait
    rw [wp_skip, wp_update]
    refine hP.kept (hpass fun _ => hwait₁.symm.trans hwait) ?_
    exact { hs₁ with sSeqOutgoing := rfl, waitForAck := hwait }

theorem Steady.reject (hP : Steady P) (h : AckRule f P s o) (hf : f.hdlcFrameType = .sREJ) :
    (reject f).wp P s o := by
  have hack : carriesAck f = false := by simp [carriesAck, hf]
  have hpass (waitForAck peerStoppedFlow : Bool) (hw : waitForAck = true → s.waitForAck = true ∧
      f.rSeq ≠ s.sSeqOutgoing) (hb : peerStoppedFlow = false) :
      P { s with
          sSeqOutgoing := (f.rSeq + 0x07) &&& 0x07, waitForAck := waitForAck,
          peerStoppedFlow := peerStoppedFlow } o := by
    have hpassed : Passed f s waitForAck peerStoppedFlow :=
      ⟨fun h' => ⟨(hw h').1, by simp [hf], by simp [hack], fun _ => (hw h').2⟩,
        fun h' => absurd h' (by rw [hb]; decide), by simp [hack]⟩
    have hpass := h.pass _ _ hpassed
    rwa [nextSSeq, if_neg (by simp [hack]), if_pos hf] at hpass
  simp only [ProtocolState.reject, wp_andThen, wp_update]
  split_ifs with hflow hseq hseq
  · exact hP.kept (hpass false false (by simp) rfl) (by constructor <;> rfl)
  · exact hP.kept (hpass false false (by simp) rfl) (by constructor <;> rfl)
  · have hflow' := Bool.eq_false_of_not_eq_true hflow
    exact hP.kept (hpass false s.peerStoppedFlow (by simp) hflow') (by constructor <;> rfl)
  · have hflow' := Bool.eq_false_of_not_eq_true hflow
    refine hP.kept (hpass s.waitForAck s.peerStoppedFlow (fun h' => ⟨h', hseq⟩) hflow') ?_
    constructor <;> rfl

theorem Steady.selectiveReject (hP : Steady P) (h : AckRule f P s o)
    (hf : f.hdlcFrameType = .sSREJ) : (selectiveReject f).wp P s o := by
  have hack : carriesAck f = false := by simp [carriesAck, hf]
  have hpass (waitForAck peerStoppedFlow : Bool) (hw : waitForAck = true → s.waitForAck = true ∧
      f.rSeq ≠ s.sSeqOutgoing) (hb : peerStoppedFlow = false) :
      P { s with waitForAck := waitForAck, peerStoppedFlow := peerStoppedFlow } o := by
    have hpassed : Passed f s waitForAck peerStoppedFlow :=
      ⟨fun h' => ⟨(hw h').1, by simp [hf], by simp [hack], fun _ => (hw h').2⟩,
        fun h' => absurd h' (by rw [hb]; decide), by simp [hack]⟩
    have hpass := h.pass _ _ hpassed
    rwa [nextSSeq, if_neg (by simp [hack]), if_neg (by simp [hf])] at hpass
  simp only [ProtocolState.selectiveReject, wp_andThen, wp_update]
  split_ifs with hflow hseq hseq
  · exact hP.kept (hpass false false (by simp) rfl) (by constructor <;> rfl)
  · exact hP.kept (hpass false false (by simp) rfl) (by constructor <;> rfl)
  · have hflow' := Bool.eq_false_of_not_eq_true hflow
    exact hP.kept (hpass false s.peerStoppedFlow (by simp) hflow') (by constructor <;> rfl)
  · have hflow' := Bool.eq_false_of_not_eq_true hflow
    have hw (hwait : s.waitForAck = true) : s.waitForAck = true ∧ f.rSeq ≠ s.sSeqOutgoing :=
      ⟨hwait, fun heq => hseq (by simp [hwait, heq])⟩
    exact hP.kept (hpass s.waitForAck s.peerStoppedFlow hw hflow') (by constructor <;> rfl)

theorem Steady.checkAcks (hP : Steady P) (h : AckRule f P s o) : (checkAcks f).wp P s o := by
  unfold ProtocolState.checkAcks
  split
  · exact hP.acknowledge h (.inl ‹_›)
  · exact hP.acknowledge h (.inr ‹_›)
  · exact hP.receiveNotReady h ‹_›
  · exact hP.reject h ‹_›
  · exact hP.selectiveReject h ‹_›
  · -- an U-frame leaves everything as it is
    rename_i hi hrr hrnr hrej hsrej
    have hack : carriesAck f = false := by
      simpa [carriesAck] using ⟨⟨hi, hrr⟩, hrnr⟩
    have hflow : restartsFlow f = false := by
      simpa [restartsFlow] using ⟨⟨hrr, hrej⟩, hsrej⟩
    have hpassed : Passed f s s.waitForAck s.peerStoppedFlow :=
      ⟨fun h' => ⟨h', hrnr, by simp [hack], fun h'' => (h''.elim hrej hsrej).elim⟩,
        fun h' => .inr ⟨h', hflow⟩, by simp [hack]⟩
    have hpass := h.pass _ _ hpassed
    rw [nextSSeq, if_neg (by simp [hack]), if_neg hrej] at hpass
    exact wp_skip.mpr hpass

end

theorem Stable.interpretDeserializedFrame (hP : Stable P) {P₀ P₁ : Assertion ProtocolState Effect}
    (h₀ : Steady P₀) (h₁ : Steady P₁) {buffer : List UInt8} {f : HdlcFrame} {messageInvalid : Bool}
    (hskip : ∀ s o, messageInvalid = true ∨ s.started = false ∨ s.serialPortHandler = false →
      P₀ s o → P s o)
    (hreceive : messageInvalid = false → ∀ s o, P₀ s o → P₁ (afterPayload f s) o)
    (hack : messageInvalid = false → ∀ s o, P₁ s o → AckRule f P s o) (h : P₀ s o) :
    (interpretDeserializedFrame buffer f messageInvalid).wp P s o := by
  have hS := hP.toSteady
  apply wp_branch
  · intro hstarted
    exact wp_skip.mpr (hskip _ _ (.inr (.inl (by simpa using hstarted))) h)
  intro _
  apply wp_branch
  · intro _
    rw [wp_andThen, wp_emit]
    have hquiet : ∀ x ∈ [Effect.deliverIfRequired .raw buffer false messageInvalid false,
        .deliverIfRequired .dissected f.dissect false messageInvalid false], Quiet s x := by
      simp [Quiet]
    have hdelivered := h₀.quiets h hquiet
    cases messageInvalid with
    | true => exact wp_skip.mpr (hskip _ _ (.inl rfl) hdelivered)
    | false =>
      simp only [Bool.false_eq_true, if_false, interpretValidFrame, wp_andThen]
      refine wp_mono (h₀.frameReceived hdelivered) fun s₁ o₁ hs₁ => ?_
      rw [wp_andThen]
      refine wp_mono (h₁.receivePayload (hreceive rfl _ _ hs₁)) fun s₂ o₂ hs₂ => ?_
      rw [wp_andThen]
      refine wp_mono (hS.checkAcks (hack rfl _ _ hs₂)) fun s₃ o₃ hs₃ => ?_
      exact wp_branch (fun _ => hP.opportunityForTransmission hs₃) fun _ => wp_skip.mpr hs₃
  · intro hhandler
    exact hS.emit (hskip _ _ (.inr (.inr hhandler)) h) fun x hx => by rw [List.mem_singleton.mp hx]; trivial

end Hdlcd.ProtocolState
