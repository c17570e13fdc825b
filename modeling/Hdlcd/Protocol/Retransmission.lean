import Hdlcd.Protocol.History

/-! Who waits on the one `m_Timer`. An outstanding I-frame keeps its retransmission armed
unless `m_bPeerStoppedFlowNew` is left over from an RNR condition that is over: then the
poll takes the timer at the next opportunity. -/

namespace Hdlcd.ProtocolState
open Reactive Action FrameGenerator FrameParser Framing

def Leftover (s : ProtocolState) : Prop :=
  s.waitForAck = true ∧ s.peerStoppedFlowNew = true ∧ s.sendProbe = false ∧ s.srejs = [] ∧
    TimerHandler.retransmission ∉ s.timer.queued

def KeepsWaiting (f : HdlcFrame) (s : ProtocolState) : Prop :=
  f.hdlcFrameType ≠ .sRNR ∧ (carriesAck f = true → s.acknowledges f.rSeq = false) ∧
    (f.hdlcFrameType = .sREJ ∨ f.hdlcFrameType = .sSREJ → f.rSeq ≠ s.sSeqOutgoing)

def InSequence (f : HdlcFrame) (s : ProtocolState) : Prop :=
  f.hasPayload = true → f.isIFrame = true → s.rSeqIncoming = f.sSeq

/-- The poll does not take the timer in this step. -/
def NotOvertaken (s : ProtocolState) : Event → Prop
  | .internal .triggerNextHDLCFrame =>
    s.started = true → s.aliveState.isAlive = true → ¬ Leftover s
  | .frame buffer false =>
    s.started = true → s.awaitsNextHDLCFrame = true → KeepsWaiting (deserializeFrame buffer) s →
      InSequence (deserializeFrame buffer) s → ¬ Leftover s
  | _ => True

structure Watched (s : ProtocolState) : Prop where
  armed : s.waitForAck = true → s.timer.Armed .retransmission
  flowing : s.waitForAck = true → s.peerStoppedFlow = false
  running : s.waitForAck = true → s.serialPortHandler = true
  modulus : s.rSeqIncoming < 8

def watchedMembers (s : ProtocolState) : Bool × DeadlineTimer TimerHandler × Bool × Bool × UInt8 :=
  (s.waitForAck, s.timer, s.peerStoppedFlow, s.serialPortHandler, s.rSeqIncoming)

/-- No opportunity was missed. -/
def Settled (s : ProtocolState) : Prop :=
  s.awaitsNextHDLCFrame = true → s.aliveState.isAlive = true → ¬ Leftover s

def StillWatched : Assertion ProtocolState Effect := fun s _ => Watched s ∧ Settled s

section
variable {s s' : ProtocolState} {o : List Effect}

theorem Settled.of_idle (h : s.waitForAck = false) : Settled s := by
  intro _ _ hleft
  exact absurd hleft.1 (by rw [h]; decide)

theorem Settled.of_busy (h : s.awaitsNextHDLCFrame = false) : Settled s := by
  intro hawaits
  exact absurd hawaits (by rw [h]; decide)

theorem Settled.of_probe (h : s.sendProbe = true) : Settled s := by
  intro _ _ hleft
  exact absurd hleft.2.2.1 (by rw [h]; decide)

namespace Watched

theorem of_idle (h : s.waitForAck = false) (hmodulus : s.rSeqIncoming < 8) : Watched s where
  armed hwait := absurd hwait (by rw [h]; decide)
  flowing hwait := absurd hwait (by rw [h]; decide)
  running hwait := absurd hwait (by rw [h]; decide)
  modulus := hmodulus

theorem congr (h : Watched s) (hsame : watchedMembers s' = watchedMembers s) : Watched s' := by
  simp only [watchedMembers, Prod.mk.injEq] at hsame
  obtain ⟨hwait, htimer, hflow, hhandler, hseq⟩ := hsame
  refine ⟨fun hw => ?_, fun hw => ?_, fun hw => ?_, ?_⟩
  · rw [htimer]
    exact h.armed (hwait ▸ hw)
  · exact hflow.trans (h.flowing (hwait ▸ hw))
  · exact hhandler.trans (h.running (hwait ▸ hw))
  · rw [hseq]
    exact h.modulus

theorem withSerialPortHandler {a : Act} (h : Watched s)
    (ha : s.serialPortHandler = true → a.wp StillWatched s o) :
    (withSerialPortHandler a).wp StillWatched s o := by
  apply wp_branch
  · exact ha
  · intro hnull
    refine wp_emit.mpr ⟨h, Settled.of_idle (Bool.eq_false_of_not_eq_true fun hwait => ?_)⟩
    exact absurd (h.running hwait) (by rw [hnull]; decide)

theorem transmitFrame (h : Watched s) {f : HdlcFrame} (hc : (controlField f).isSome) :
    (transmitFrame f).wp StillWatched s o := by
  obtain ⟨buffer, hbuffer⟩ := exists_serializeFrame hc
  unfold wp
  rw [transmitFrame_eq hbuffer]
  exact ⟨h.congr rfl, Settled.of_busy rfl⟩

theorem queryWaitQueues (h : Watched s) (hs : Settled s) : queryWaitQueues.wp StillWatched s o := by
  unfold wp ProtocolState.queryWaitQueues
  dsimp only
  split_ifs
  · exact h.withSerialPortHandler (o := o) fun _ => ⟨h, hs⟩
  · exact ⟨h, hs⟩

theorem sendUnreliable (h : Watched s) (hs : Settled s) : sendUnreliable.wp StillWatched s o := by
  unfold wp ProtocolState.sendUnreliable
  cases hq : s.waitQueueUnreliable with
  | nil => exact h.queryWaitQueues hs (o := o)
  | cons front rest =>
    apply h.withSerialPortHandler (o := o)
    intro _
    rw [wp_andThen, wp_emit, wp_andThen, wp_update]
    have h' : Watched { s with waitQueueUnreliable := rest } := h.congr rfl
    exact h'.transmitFrame rfl

theorem sendRR (h : Watched s) : sendRR.wp StillWatched s o := by
  unfold wp ProtocolState.sendRR
  dsimp only
  split_ifs with hpoll
  · -- inside the RNR condition no I-frame is outstanding, so the poll may take the timer
    rw [Bool.and_eq_true] at hpoll
    have hidle : s.waitForAck = false := by
      apply Bool.eq_false_of_not_eq_true
      intro hwait
      exact absurd hpoll.1 (by rw [h.flowing hwait]; decide)
    have h' : Watched (startRnrTimer
        { s with peerRequiresAck := false, peerStoppedFlowQueried := true }) := of_idle hidle h.modulus
    exact h'.withSerialPortHandler (o := o) fun _ => h'.transmitFrame rfl
  · have h' : Watched { s with peerRequiresAck := false } := h.congr rfl
    exact h'.withSerialPortHandler (o := o) fun _ => h'.transmitFrame rfl

theorem startRnrTimer (h : Watched s)
    (hqueued : s.waitForAck = true → TimerHandler.retransmission ∈ s.timer.queued) :
    Watched (startRnrTimer { s with peerStoppedFlowNew := false }) where
  -- cancelling the timer does not reach a queued handler
  armed hwait := .inr (hqueued hwait)
  flowing := h.flowing
  running := h.running
  modulus := h.modulus

theorem sendAck (h : Watched s) (hqueued : s.waitForAck = true → s.peerStoppedFlowNew = true →
    TimerHandler.retransmission ∈ s.timer.queued) : sendAck.wp StillWatched s o := by
  apply wp_branch
  · intro hnew
    rw [wp_andThen, wp_update]
    refine (h.startRnrTimer fun hwait => hqueued hwait hnew).sendUnreliable ?_
    exact fun _ _ hleft => absurd hleft.2.1 Bool.false_ne_true
  · intro hold
    refine wp_branch (fun _ => h.sendRR) fun _ => h.sendUnreliable ?_
    exact fun _ _ hleft => absurd hleft.2.1 (by rw [hold]; decide)

theorem sendIFrame (h : Watched s) (hflow : s.peerStoppedFlow = false) (front : Payload) :
    (sendIFrame front).wp StillWatched s o := by
  unfold wp ProtocolState.sendIFrame
  apply h.withSerialPortHandler (o := o)
  intro hhandler
  rw [wp_andThen, wp_emit, wp_andThen, wp_update]
  have h' : Watched { s with
      waitForAck := true, peerRequiresAck := false, timer := s.timer.asyncWait .retransmission } :=
    ⟨fun _ => DeadlineTimer.armed_asyncWait _ _, fun _ => hflow, fun _ => hhandler, h.modulus⟩
  exact h'.transmitFrame rfl

theorem sendReliable (h : Watched s) (hqueued : s.waitForAck = true → s.peerStoppedFlowNew = true →
    TimerHandler.retransmission ∈ s.timer.queued) : sendReliable.wp StillWatched s o := by
  unfold wp ProtocolState.sendReliable
  cases s.waitQueueReliable with
  | nil => exact h.sendAck hqueued (o := o)
  | cons front rest =>
    dsimp only
    split_ifs with hsend
    · simp only [Bool.and_eq_true, Bool.not_eq_true'] at hsend
      exact h.sendIFrame hsend.2 front (o := o)
    · exact h.sendAck hqueued (o := o)

theorem opportunity (h : Watched s) (hs : Settled s) : opportunityForTransmission.wp StillWatched s o := by
  apply wp_branch
  · exact fun _ => wp_skip.mpr ⟨h, hs⟩
  intro hawaits
  rw [Bool.not_eq_false'] at hawaits
  apply wp_branch
  · intro _
    rw [wp_andThen, wp_update]
    have h' : Watched { s with sendProbe := false } := h.congr rfl
    exact h'.withSerialPortHandler fun _ => h'.transmitFrame rfl
  · intro hprobe
    apply wp_branch
    · intro halive
      unfold wp sendOutstanding
      cases hsrejs : s.srejs with
      | nil =>
        refine h.sendReliable (o := o) fun hwait hnew => ?_
        by_contra hqueued
        exact hs hawaits halive ⟨hwait, hnew, hprobe, hsrejs, hqueued⟩
      | cons front rest =>
        have h' : Watched { s with srejs := rest } := h.congr rfl
        exact h'.withSerialPortHandler (o := o) fun _ => h'.transmitFrame rfl
    · exact fun _ => wp_skip.mpr ⟨h, hs⟩

theorem callAliveState (h : Watched s) (method : AliveState → AliveState × List AliveCallback)
    (hs : Settled { s with aliveState := (method s.aliveState).1 }) :
    (callAliveState method).wp StillWatched s o := by
  have h' : Watched { s with aliveState := (method s.aliveState).1 } := h.congr rfl
  refine wp_run (P := StillWatched) ?_ ⟨h', hs⟩
  intro callback _ t o ht
  cases callback with
  | sendProbe =>
    have ht' : Watched { t with sendProbe := true } := ht.1.congr rfl
    have hprobe : Settled { t with sendProbe := true } := Settled.of_probe rfl
    rw [aliveCallback, wp_andThen, wp_update]
    exact wp_branch (fun _ => ht'.opportunity hprobe) fun _ => wp_skip.mpr ⟨ht', hprobe⟩
  | changeBaudrate => exact wp_branch (fun _ => ht) fun _ => ht

theorem timerHandler (h : Watched s) (hs : Settled s) (handler : TimerHandler) :
    (handleLocal (.timerHandler handler)).wp StillWatched s o := by
  apply wp_branch
  · intro _
    rw [wp_andThen, wp_update]
    cases handler with
    | retransmission =>
      rw [onTimer, wp_andThen, wp_update]
      exact opportunity (of_idle rfl h.modulus) (Settled.of_idle rfl)
    | rnrPoll =>
      have h' : Watched { s with timer := s.timer.complete .rnrPoll } :=
        ⟨fun hwait => (h.armed hwait).complete (by decide), h.flowing, h.running, h.modulus⟩
      have hs' : Settled { s with timer := s.timer.complete .rnrPoll } := by
        rintro hawaits halive ⟨hwait, hnew, hprobe, hsrejs, hqueued⟩
        refine hs hawaits halive ⟨hwait, hnew, hprobe, hsrejs, fun hq => hqueued ?_⟩
        exact (List.mem_erase_of_ne (by decide)).mpr hq
      apply wp_branch
      · intro _
        rw [wp_andThen, wp_update]
        exact opportunity (h'.congr rfl) hs'
      · exact fun _ => ⟨h', hs'⟩
  · exact fun _ => ⟨h, hs⟩

theorem timerExpires (h : Watched s) (hs : Settled s) :
    StillWatched { s with timer := s.timer.expire } o := by
  refine ⟨⟨fun hwait => (h.armed hwait).expire, h.flowing, h.running, h.modulus⟩, ?_⟩
  rintro hawaits halive ⟨hwait, hnew, hprobe, hsrejs, hqueued⟩
  refine hs hawaits halive ⟨hwait, hnew, hprobe, hsrejs, fun hq => hqueued ?_⟩
  show _ ∈ (DeadlineTimer.expire s.timer).queued
  unfold DeadlineTimer.expire
  split
  · exact List.mem_append_left _ hq
  · exact hq

theorem handleLocal (h : Watched s) (hs : Settled s) {e : LocalEvent}
    (he : NotOvertaken s (.internal e)) : (handleLocal e).wp StillWatched s o := by
  have hmodulus : (0 : UInt8) < 8 := by decide
  cases e with
  | start =>
    have h' : Watched { s.reset with started := true } := of_idle rfl hmodulus
    simp only [ProtocolState.handleLocal, ProtocolState.start, wp_andThen, wp_update]
    refine wp_mono (h'.callAliveState _ (Settled.of_idle rfl)) fun t o' ht => ?_
    exact Watched.opportunity ht.1 ht.2
  | stop =>
    have h' : Watched s.reset := of_idle rfl hmodulus
    have hs' : Settled s.reset := Settled.of_idle rfl
    exact wp_branch (fun _ => h'.withSerialPortHandler (o := o) fun _ => ⟨h', hs'⟩) fun _ => ⟨h, hs⟩
  | shutdown =>
    exact wp_branch (fun _ => ⟨of_idle rfl hmodulus, Settled.of_idle rfl⟩) fun _ => ⟨h, hs⟩
  | sendPayload payload reliable =>
    have h' : StillWatched (s.enqueue payload reliable) o := by
      cases reliable <;> exact ⟨h.congr rfl, hs⟩
    simp only [ProtocolState.handleLocal, ProtocolState.sendPayload, wp_andThen, wp_update]
    unfold wp
    dsimp only
    split_ifs
    · exact h'.1.opportunity h'.2 (o := o)
    · exact h'
  | triggerNextHDLCFrame =>
    apply wp_branch
    · exact fun _ => ⟨h, hs⟩
    · intro hstarted
      rw [Bool.not_eq_false'] at hstarted
      rw [wp_andThen, wp_update]
      exact opportunity (h.congr rfl) fun _ halive hleft => he hstarted halive hleft
  | timerExpires => exact h.timerExpires hs
  | timerHandler handler => exact h.timerHandler hs handler
  | stateTimerExpires | probeTimerExpires => exact ⟨h.congr rfl, hs⟩
  | stateTimerHandler =>
    apply wp_branch
    · intro _
      rw [wp_andThen, wp_update]
      unfold wp onStateTimer
      split
      · rename_i a ha
        refine ⟨h.congr rfl, fun hawaits halive => ?_⟩
        have hbefore := AliveState.isAlive_of_onStateTimeout ha halive
        exact hs hawaits hbefore
      · exact ⟨h.congr rfl, hs⟩
    · exact fun _ => ⟨h, hs⟩
  | probeTimerHandler =>
    apply wp_branch
    · intro _
      rw [wp_andThen, wp_update, onProbeTimer, wp_andThen]
      have h' : Watched { s with
          aliveState := { s.aliveState with probeTimer := s.aliveState.probeTimer.complete () } } :=
        h.congr rfl
      refine wp_mono (h'.callAliveState _ ?_) fun t o' ht => ?_
      · intro hawaits halive
        have hbefore := (AliveState.isAlive_onProbeTimeout _).symm.trans halive
        exact hs hawaits hbefore
      · exact ⟨ht.1.congr rfl, ht.2⟩
    · exact fun _ => ⟨h, hs⟩

end Watched

def afterReceive (f : HdlcFrame) (s : ProtocolState) : ProtocolState :=
  let w := if f.hasPayload && f.isIFrame then s.advanceWindow f.sSeq else s
  { s with
    aliveState := s.aliveState.onFrameReceived.1
    srejs := w.srejs
    rSeqIncoming := w.rSeqIncoming
    peerRequiresAck := w.peerRequiresAck }

theorem interpretValidFrame_fst (f : HdlcFrame) (s : ProtocolState) :
    (interpretValidFrame f s).1 =
      ((checkAcks f).andThen (branch (·.awaitsNextHDLCFrame) opportunityForTransmission skip)
        (afterReceive f s)).1 := by
  have hreceived : (receivePayload f (frameReceived s).1).1 = afterReceive f s := by
    unfold receivePayload afterReceive
    cases f.hasPayload <;> cases f.isIFrame <;> rfl
  rw [← hreceived]
  rfl

theorem afterReceive_srejs {f : HdlcFrame} (hmodulus : s.rSeqIncoming < 8)
    (h : (afterReceive f s).srejs = []) : s.srejs = [] ∧ InSequence f s := by
  unfold afterReceive at h
  cases hdata : f.hasPayload && f.isIFrame with
  | false =>
    rw [hdata] at h
    refine ⟨h, fun hpayload hi => ?_⟩
    simp [hpayload, hi] at hdata
  | true =>
    rw [hdata] at h
    have hsrejs : (if s.rSeqIncoming ≠ f.sSeq then missingFrames f.sSeq 8 s.rSeqIncoming
        else s.srejs) = [] := h
    split_ifs at hsrejs with hgap
    · rw [missingFrames, and_seven_eq_self hmodulus, if_neg hgap] at hsrejs
      exact absurd hsrejs (List.cons_ne_nil _ _)
    · exact ⟨hsrejs, fun _ _ => not_not.mp hgap⟩

theorem srejs_afterReceive {f : HdlcFrame} (hsrejs : s.srejs = []) (hseq : InSequence f s) :
    (afterReceive f s).srejs = [] := by
  unfold afterReceive
  split_ifs with hdata
  · rw [Bool.and_eq_true] at hdata
    show (if s.rSeqIncoming ≠ f.sSeq then _ else s.srejs) = []
    rw [if_neg (not_not.mpr (hseq hdata.1 hdata.2)), hsrejs]
  · exact hsrejs

theorem Watched.afterReceive (h : Watched s) (f : HdlcFrame) : Watched (afterReceive f s) where
  armed := h.armed
  flowing := h.flowing
  running := h.running
  modulus := by
    unfold ProtocolState.afterReceive
    split_ifs
    · exact and_seven_lt _
    · exact h.modulus

section
variable {f : HdlcFrame}

theorem checkAcks_keeps {P : Assertion ProtocolState Effect} (hwait : s.waitForAck = true)
    (hflow : s.peerStoppedFlow = false) (hk : KeepsWaiting f s)
    (h : P { s with sSeqOutgoing := nextSSeq f s } o) : (checkAcks f).wp P s o := by
  obtain ⟨hrnr, hack, hrej⟩ := hk
  have hsame (hcarries : carriesAck f = false) (htype : f.hdlcFrameType ≠ .sREJ) : P s o := by
    rw [nextSSeq, if_neg (by rw [hcarries]; decide), if_neg htype] at h
    exact h
  unfold checkAcks
  split
  case h_1 ht | h_2 ht =>
    have hno := hack (by simp [carriesAck, ht])
    rw [nextSSeq, if_pos (by simp [carriesAck, ht])] at h
    simpa [wp, acknowledge, update, branch, skip, hwait, hflow, hno] using h
  case h_3 ht => exact absurd ht hrnr
  case h_4 ht =>
    have hne := hrej (.inl ht)
    rw [nextSSeq, if_neg (by simp [carriesAck, ht]), if_pos ht] at h
    simpa [wp, reject, update, hflow, hne] using h
  case h_5 ht =>
    have hne := hrej (.inr ht)
    have h' := hsame (by simp [carriesAck, ht]) (by simp [ht])
    simpa [wp, selectiveReject, update, hflow, hne] using h'
  case h_6 hi hrr _ hrej' _ =>
    have hcarries : carriesAck f = false := by simpa [carriesAck] using ⟨⟨hi, hrr⟩, hrnr⟩
    exact wp_skip.mpr (hsame hcarries hrej')

def Ended : Assertion ProtocolState Effect := fun s _ => s.waitForAck = false ∧ s.rSeqIncoming < 8

theorem popFrontReliable_ends (hwait : s.waitForAck = false) (hmodulus : s.rSeqIncoming < 8) :
    popFrontReliable.wp ((update fun t => { t with sSeqOutgoing := f.rSeq }).wp Ended) s o := by
  unfold wp ProtocolState.popFrontReliable
  split <;> exact ⟨hwait, hmodulus⟩

theorem acknowledge_ends (hmodulus : s.rSeqIncoming < 8)
    (hack : s.waitForAck = true → s.acknowledges f.rSeq = true) : (acknowledge f).wp Ended s o := by
  simp only [ProtocolState.acknowledge, wp_andThen, wp_update]
  split_ifs
  · apply wp_branch
    · intro hwait
      exact absurd hwait (by simp [clearRnrCondition])
    · exact fun _ => ⟨rfl, hmodulus⟩
  · apply wp_branch
    · intro _
      rw [wp_andThen, wp_update]
      exact popFrontReliable_ends rfl hmodulus
    · intro hkeep
      rw [wp_skip, wp_update]
      refine ⟨Bool.eq_false_of_not_eq_true fun hwait => ?_, hmodulus⟩
      rw [hwait, hack hwait] at hkeep
      exact absurd hkeep (by decide)

theorem receiveNotReady_ends (hmodulus : s.rSeqIncoming < 8) : (receiveNotReady f).wp Ended s o := by
  have hmodulus' : s.enterRnrCondition.rSeqIncoming < 8 := by
    rw [(kept_enterRnrCondition s).rSeqIncoming]
    exact hmodulus
  simp only [ProtocolState.receiveNotReady, wp_andThen, wp_update]
  apply wp_branch
  · intro _
    rw [wp_andThen, wp_update]
    exact wp_branch (fun _ => popFrontReliable_ends rfl hmodulus') fun _ => ⟨rfl, hmodulus'⟩
  · exact fun hwait => ⟨hwait, hmodulus'⟩

theorem reject_ends (hmodulus : s.rSeqIncoming < 8)
    (hseq : s.waitForAck = true → f.rSeq = s.sSeqOutgoing) : (reject f).wp Ended s o := by
  simp only [ProtocolState.reject, wp_andThen, wp_update]
  split_ifs with _ _ hno
  · exact ⟨rfl, hmodulus⟩
  · exact ⟨rfl, hmodulus⟩
  · exact ⟨rfl, hmodulus⟩
  · exact ⟨Bool.eq_false_of_not_eq_true fun hwait => hno (hseq hwait), hmodulus⟩

theorem selectiveReject_ends (hmodulus : s.rSeqIncoming < 8)
    (hseq : s.waitForAck = true → f.rSeq = s.sSeqOutgoing) : (selectiveReject f).wp Ended s o := by
  simp only [ProtocolState.selectiveReject, wp_andThen, wp_update]
  split_ifs with _ _ hno
  · exact ⟨rfl, hmodulus⟩
  · exact ⟨rfl, hmodulus⟩
  · exact ⟨rfl, hmodulus⟩
  · refine ⟨Bool.eq_false_of_not_eq_true fun hwait => hno ?_, hmodulus⟩
    rw [hwait, hseq hwait, beq_self_eq_true, Bool.and_self]

theorem checkAcks_ends (hmodulus : s.rSeqIncoming < 8)
    (hk : s.waitForAck = true → ¬ KeepsWaiting f s) : (checkAcks f).wp Ended s o := by
  have hack (ht : f.hdlcFrameType = .i ∨ f.hdlcFrameType = .sRR) (hwait : s.waitForAck = true) :
      s.acknowledges f.rSeq = true := by
    apply Bool.eq_true_of_not_eq_false
    intro hno
    refine hk hwait ⟨?_, fun _ => hno, ?_⟩ <;> rcases ht with ht | ht <;> simp [ht]
  have hseq (ht : f.hdlcFrameType = .sREJ ∨ f.hdlcFrameType = .sSREJ) (hwait : s.waitForAck = true) :
      f.rSeq = s.sSeqOutgoing := by
    by_contra hne
    refine hk hwait ⟨?_, ?_, fun _ => hne⟩ <;> rcases ht with ht | ht <;> simp [carriesAck, ht]
  unfold checkAcks
  split
  case h_1 ht => exact acknowledge_ends hmodulus (hack (.inl ht))
  case h_2 ht => exact acknowledge_ends hmodulus (hack (.inr ht))
  case h_3 => exact receiveNotReady_ends hmodulus
  case h_4 ht => exact reject_ends hmodulus (hseq (.inl ht))
  case h_5 ht => exact selectiveReject_ends hmodulus (hseq (.inr ht))
  case h_6 hi hrr hrnr hrej hsrej =>
    refine wp_skip.mpr ⟨Bool.eq_false_of_not_eq_true fun hwait => hk hwait ⟨hrnr, ?_, ?_⟩, hmodulus⟩
    · intro hcarries
      exact absurd hcarries (by simpa [carriesAck] using ⟨⟨hi, hrr⟩, hrnr⟩)
    · exact fun h' => (h'.elim hrej hsrej).elim

end

namespace Watched

theorem interpretValidFrame (h : Watched s) {f : HdlcFrame}
    (he : s.awaitsNextHDLCFrame = true → KeepsWaiting f s → InSequence f s → ¬ Leftover s) :
    StillWatched (interpretValidFrame f s).1 o := by
  have h' := h.afterReceive f
  rw [interpretValidFrame_fst]
  show ((checkAcks f).andThen (branch (·.awaitsNextHDLCFrame) opportunityForTransmission skip)).wp
    StillWatched (ProtocolState.afterReceive f s) []
  rw [wp_andThen]
  -- either the I-frame stays outstanding and only its number may move, or the wait ends
  by_cases hk : s.waitForAck = true ∧ KeepsWaiting f s
  · have hflow : (ProtocolState.afterReceive f s).peerStoppedFlow = false := h.flowing hk.1
    refine checkAcks_keeps hk.1 hflow hk.2 (wp_branch (fun hawaits => ?_) fun hbusy => ?_)
    · refine opportunity (h'.congr rfl) ?_
      rintro _ _ ⟨hwait, hnew, hprobe, hsrejs, hqueued⟩
      obtain ⟨hsrejs', hseq⟩ := afterReceive_srejs h.modulus hsrejs
      exact he hawaits hk.2 hseq ⟨hwait, hnew, hprobe, hsrejs', hqueued⟩
    · exact wp_skip.mpr ⟨h'.congr rfl, Settled.of_busy hbusy⟩
  · have hends : (checkAcks f).wp Ended (ProtocolState.afterReceive f s) [] :=
      checkAcks_ends h'.modulus fun hwait hk' => hk ⟨hwait, hk'⟩
    refine wp_mono hends fun t o' ht => ?_
    have ht' : Watched t := of_idle ht.1 ht.2
    have hs' : Settled t := Settled.of_idle ht.1
    exact wp_branch (fun _ => ht'.opportunity hs') fun _ => ⟨ht', hs'⟩

theorem handle (h : Watched s) (hs : Settled s) {e : Event} (he : NotOvertaken s e) :
    StillWatched (handle e s).1 [] := by
  cases e with
  | internal e => exact h.handleLocal hs he (o := [])
  | frame buffer messageInvalid =>
    show (ProtocolState.handle (.frame buffer messageInvalid)).wp StillWatched s []
    apply wp_branch
    · exact fun _ => ⟨h, hs⟩
    intro hstarted
    rw [Bool.not_eq_false'] at hstarted
    apply h.withSerialPortHandler
    intro _
    rw [wp_andThen, wp_emit]
    cases messageInvalid with
    | true => exact ⟨h, hs⟩
    | false => exact h.interpretValidFrame (he hstarted)

end Watched

def Stuck : Assertion ProtocolState Effect := fun s _ =>
  s.waitForAck = true ∧ ¬ s.timer.Armed .retransmission

theorem withSerialPortHandler_stuck {a : Act} (h : Stuck s o) (ha : a.wp Stuck s o) :
    (withSerialPortHandler a).wp Stuck s o := wp_branch (fun _ => ha) fun _ => h

theorem sendUnreliable_stuck (h : Stuck s o) : sendUnreliable.wp Stuck s o := by
  unfold wp sendUnreliable
  cases s.waitQueueUnreliable with
  | nil =>
    dsimp only
    unfold queryWaitQueues
    dsimp only
    split_ifs
    · exact withSerialPortHandler_stuck (o := o) h h
    · exact h
  | cons front rest =>
    obtain ⟨buffer, hbuffer⟩ := exists_serializeFrame (f := prepareUFrameUI front) rfl
    apply withSerialPortHandler_stuck (o := o) h
    rw [wp_andThen, wp_emit, wp_andThen, wp_update]
    unfold wp
    rw [transmitFrame_eq hbuffer]
    exact h

theorem opportunity_stuck (hawaits : s.awaitsNextHDLCFrame = true)
    (halive : s.aliveState.isAlive = true) (h : Leftover s) :
    opportunityForTransmission.wp Stuck s o := by
  obtain ⟨hwait, hnew, hprobe, hsrejs, hqueued⟩ := h
  have hpoll : Stuck (startRnrTimer { s with peerStoppedFlowNew := false }) o := by
    refine ⟨hwait, ?_⟩
    rintro (hpending | hq)
    · exact absurd (Option.some.inj hpending) (by decide)
    · exact hqueued hq
  have hack : sendAck.wp Stuck s o := by
    apply wp_branch
    · intro _
      rw [wp_andThen, wp_update]
      exact sendUnreliable_stuck hpoll
    · intro hold
      exact absurd hnew (by rw [hold]; decide)
  have hnext : opportunityForTransmission s = sendReliable s := by
    simp [opportunityForTransmission, branch, hawaits, hprobe, halive, sendOutstanding, hsrejs]
  refine wp_of_eq hnext ?_
  unfold wp sendReliable
  cases s.waitQueueReliable with
  | nil => exact hack
  | cons front rest =>
    dsimp only
    rw [if_neg (by simp [hwait])]
    exact hack

theorem handle_stuck (h : Watched s) {e : Event} (he : ¬ NotOvertaken s e) : Stuck (handle e s).1 [] := by
  cases e with
  | internal e =>
    cases e with
    | triggerNextHDLCFrame =>
      simp only [NotOvertaken, Classical.not_imp, not_not] at he
      obtain ⟨hstarted, halive, hleft⟩ := he
      show triggerNextHDLCFrame.wp Stuck s []
      refine wp_branch (fun hstopped => ?_) fun _ => ?_
      · simp [hstarted] at hstopped
      · rw [wp_andThen, wp_update]
        exact opportunity_stuck rfl halive hleft
    | _ => exact absurd trivial he
  | frame buffer messageInvalid =>
    cases messageInvalid with
    | true => exact absurd trivial he
    | false =>
      simp only [NotOvertaken, Classical.not_imp, not_not] at he
      obtain ⟨hstarted, hawaits, hk, hseq, hwait, hnew, hprobe, hsrejs, hqueued⟩ := he
      have hflow : (afterReceive (deserializeFrame buffer) s).peerStoppedFlow = false := h.flowing hwait
      have hvalid : Stuck (interpretValidFrame (deserializeFrame buffer) s).1 [] := by
        rw [interpretValidFrame_fst]
        show ((checkAcks _).andThen (branch _ opportunityForTransmission skip)).wp Stuck _ []
        rw [wp_andThen]
        refine checkAcks_keeps hwait hflow hk (wp_branch (fun _ => ?_) fun hbusy => ?_)
        · exact opportunity_stuck hawaits s.aliveState.isAlive_onFrameReceived
            ⟨hwait, hnew, hprobe, srejs_afterReceive hsrejs hseq, hqueued⟩
        · exact absurd hawaits (by rw [show s.awaitsNextHDLCFrame = false from hbusy]; decide)
      show (handle (.frame buffer false)).wp Stuck s []
      refine wp_branch (fun hstopped => ?_) fun _ => wp_branch (fun _ => ?_) fun hnull => ?_
      · simp [hstarted] at hstopped
      · exact hvalid
      · exact absurd (h.running hwait) (by rw [hnull]; decide)

end

theorem retransmission_armed_iff (es : List Event) :
    (∀ pre, pre <+: es → (run handle pre initial).1.waitForAck = true →
      (run handle pre initial).1.timer.Armed .retransmission) ↔
      Along handle NotOvertaken initial es := by
  have hinitial : Watched initial ∧ Settled initial :=
    ⟨Watched.of_idle rfl (by decide), Settled.of_idle rfl⟩
  refine reached_iff_along handle (I := fun s => Watched s ∧ Settled s)
    (G := fun s => s.waitForAck = true → s.timer.Armed .retransmission) ?_ ?_ ?_ hinitial
  · exact fun _ _ he h => h.1.handle h.2 he
  · exact fun _ h => h.1.armed
  · intro s e he h harmed
    have hstuck := handle_stuck h.1 he
    exact hstuck.2 (harmed hstuck.1)

/-- An RNR condition begins and ends during one write. The I-frame that follows loses the
timer to the poll when its own write completes. -/
def overtakenRun : List Event :=
  [.internal .start, .internal .triggerNextHDLCFrame,
    received { address := 0x30, hdlcFrameType := .uUI, payload := [0x55] },
    .internal (.sendPayload [0x42] false),
    received { address := 0x30, hdlcFrameType := .sRNR, rSeq := 0 },
    received { address := 0x30, hdlcFrameType := .sRR, rSeq := 0 },
    .internal (.sendPayload [0x41] true),
    .internal .triggerNextHDLCFrame, .internal .triggerNextHDLCFrame]

theorem retransmission_not_armed :
    ¬ ((run handle overtakenRun initial).1.waitForAck = true →
      (run handle overtakenRun initial).1.timer.Armed .retransmission) := by
  decide +kernel

end Hdlcd.ProtocolState
