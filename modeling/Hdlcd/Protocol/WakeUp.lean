import Hdlcd.Protocol.Consistency

/-! Nothing sendable waits while the port is free. The exception is an RR that is due when
a new RNR condition is noticed: the condition takes the opportunity and the RR stays. -/

namespace Hdlcd.ProtocolState
open Reactive Action FrameGenerator FrameParser

/-- An event with the payloads that the clients submit while they are queried in it. -/
structure Turn where
  event : Event
  submissions : List (Payload × Bool) := []
  deriving DecidableEq, Repr

def submission (p : Payload × Bool) : Event := .internal (.sendPayload p.1 p.2)

def handleTurn (turn : Turn) : Act :=
  (handle turn.event).andThen (run handle (turn.submissions.map submission))

def Blocked (s : ProtocolState) : Prop :=
  s.waitQueueReliable = [] ∨ s.waitForAck = true ∨ s.peerStoppedFlow = true

def NothingLeft (s : ProtocolState) : Prop :=
  s.aliveState.isAlive = true → s.awaitsNextHDLCFrame = true →
    s.sendProbe = false ∧ s.srejs = [] ∧ s.peerRequiresAck = false ∧
      s.waitQueueUnreliable = [] ∧ Blocked s

def Noticed (s : ProtocolState) : Prop :=
  s.aliveState.isAlive = true → s.awaitsNextHDLCFrame = true → s.peerStoppedFlowNew = false

/-- An opportunity in this state starts the poll, and the RR that is due stays. -/
structure Starving (s : ProtocolState) : Prop extends Passes s where
  fresh : s.peerStoppedFlowNew = true
  ack : s.peerRequiresAck = true
  unreliable : s.waitQueueUnreliable = []

instance (s : ProtocolState) : Decidable (Blocked s) := inferInstanceAs (Decidable (_ ∨ _ ∨ _))

instance (s : ProtocolState) : Decidable (NothingLeft s) :=
  inferInstanceAs (Decidable (_ = true → _ = true → _))

section
variable {s t : ProtocolState} {o : List Effect}

theorem Noticed.of_busy (h : s.awaitsNextHDLCFrame = false) : Noticed s := by
  intro _ hawaits
  rw [h] at hawaits
  exact absurd hawaits Bool.false_ne_true

theorem Noticed.of_dead (h : s.aliveState.isAlive = false) : Noticed s := by
  intro halive
  rw [h] at halive
  exact absurd halive Bool.false_ne_true

theorem NothingLeft.of_busy (h : s.awaitsNextHDLCFrame = false) : NothingLeft s := by
  intro _ hawaits
  rw [h] at hawaits
  exact absurd hawaits Bool.false_ne_true

theorem NothingLeft.of_dead (h : s.aliveState.isAlive = false) : NothingLeft s := by
  intro halive
  rw [h] at halive
  exact absurd halive Bool.false_ne_true

theorem Unacknowledged.noticed (h : Unacknowledged s t) : t.peerStoppedFlowNew = false := by
  obtain ⟨_, ⟨_, rfl⟩ | ⟨hold, _, rfl⟩⟩ := h
  · rfl
  · exact hold

theorem opportunity_noticed (hs : Consistent s) : Noticed (opportunityForTransmission s).1 := by
  have hhandler (halive : s.aliveState.isAlive = true) := (hs.running halive).2
  have hout : Outcome (fun t _ => Noticed t) s [] :=
    .of_free (fun _ _ => .of_busy) hhandler (fun _ _ => .of_dead)
      (fun _ ht _ _ _ _ => ht.noticed) fun _ ht _ _ _ _ _ => ht.noticed
  exact hout.opportunityForTransmission hhandler

theorem Unacknowledged.nothingLeft (hs : ¬ Starving s) (ht : Unacknowledged s t)
    (hunreliable : t.waitQueueUnreliable = []) : NothingLeft t := by
  intro _ _
  obtain ⟨hpasses, ⟨hnew, rfl⟩ | ⟨_, hack, rfl⟩⟩ := ht
  · have hack : s.peerRequiresAck = false :=
      Bool.eq_false_of_not_eq_true fun hack => hs ⟨hpasses, hnew, hack, hunreliable⟩
    exact ⟨hpasses.probe, hpasses.srejs, hack, hunreliable, hpasses.reliable⟩
  · exact ⟨hpasses.probe, hpasses.srejs, hack, hunreliable, hpasses.reliable⟩

theorem opportunity_nothingLeft (hs : Consistent s) (hstarving : ¬ Starving s) :
    NothingLeft (opportunityForTransmission s).1 := by
  have hhandler (halive : s.aliveState.isAlive = true) := (hs.running halive).2
  have hout : Outcome (fun t _ => NothingLeft t) s [] :=
    .of_free (fun _ _ => .of_busy) hhandler (fun _ _ => .of_dead)
      (fun _ ht hq _ => ht.nothingLeft hstarving hq) fun _ ht hq _ _ => ht.nothingLeft hstarving hq
  exact hout.opportunityForTransmission hhandler

def RRLeft : Assertion ProtocolState Effect := fun s _ =>
  s.aliveState.isAlive = true ∧ s.awaitsNextHDLCFrame = true ∧ s.peerRequiresAck = true

theorem RRLeft.not_nothingLeft (h : RRLeft s o) : ¬ NothingLeft s := by
  intro hnone
  have hack := (hnone h.1 h.2.1).2.2.1
  rw [h.2.2] at hack
  exact Bool.noConfusion hack

theorem opportunity_starving (hs : Consistent s) (h : Starving s) :
    RRLeft (opportunityForTransmission s).1 o := by
  have hleft {t : ProtocolState} (ht : Unacknowledged s t) : RRLeft t o := by
    obtain ⟨_, ⟨_, rfl⟩ | ⟨hold, _, _⟩⟩ := ht
    · exact ⟨h.alive, h.awaits, h.ack⟩
    · rw [h.fresh] at hold
      exact Bool.noConfusion hold
  have hunreliable {t : ProtocolState} (ht : Unacknowledged s t) : t.waitQueueUnreliable = [] := by
    obtain ⟨_, ⟨_, rfl⟩ | ⟨_, _, rfl⟩⟩ := ht <;> exact h.unreliable
  have hout : Outcome RRLeft s [] := by
    constructor
    case silent =>
      rintro (hbusy | ⟨_, hdead⟩)
      · exact absurd h.awaits (by rw [hbusy]; decide)
      · exact absurd h.alive (by rw [hdead]; decide)
    case fault | probe =>
      intro _ hprobe
      exact absurd h.probe (by rw [hprobe]; decide)
    case srej =>
      intro front rest _ hsrejs
      exact absurd h.srejs (by rw [hsrejs]; exact List.cons_ne_nil _ _)
    case iFrame =>
      intro front rest _ _ hq hwait hflow
      rcases h.reliable with hempty | hw | hf
      · exact absurd hempty (by rw [hq]; exact List.cons_ne_nil _ _)
      · exact absurd hw (by rw [hwait]; decide)
      · exact absurd hf (by rw [hflow]; decide)
    case poll | rr =>
      intro _ hold
      exact absurd h.fresh (by rw [hold]; decide)
    case uiFrame =>
      intro t front rest ht hq
      exact absurd (hunreliable ht) (by rw [hq]; exact List.cons_ne_nil _ _)
    case query => exact fun t ht _ _ => hleft ht
    case idle => exact fun t ht _ _ _ => hleft ht
  exact hout.opportunityForTransmission fun halive => (hs.running halive).2

structure Tested (f : HdlcFrame) (s t : ProtocolState) : Prop where
  waiting : t.waitForAck = true ↔ s.waitForAck = true ∧ KeepsWaiting f s
  flow : t.peerStoppedFlow = true ↔
    f.hdlcFrameType = .sRNR ∨ s.peerStoppedFlow = true ∧ restartsFlow f = false
  fresh : t.peerStoppedFlowNew = true ↔
    s.peerStoppedFlowNew = true ∨ f.hdlcFrameType = .sRNR ∧ s.peerStoppedFlow = false
  reliable : t.waitQueueReliable =
    if s.waitForAck && carriesAck f && s.acknowledges f.rSeq then s.waitQueueReliable.tail
    else s.waitQueueReliable

theorem Consistent.window (hs : Consistent s) :
    s.waitForAck = false ∨ s.waitForAck = true ∧ s.peerStoppedFlow = false ∧
      ∃ front rest, s.waitQueueReliable = front :: rest := by
  rcases Bool.eq_false_or_eq_true s.waitForAck with hwait | hwait
  · obtain ⟨_, hne, hflow⟩ := hs.waiting hwait
    exact .inr ⟨hwait, hflow, List.exists_cons_of_ne_nil hne⟩
  · exact .inl hwait

def TestedFrom (f : HdlcFrame) (s : ProtocolState) : Assertion ProtocolState Effect :=
  fun t _ => Tested f s t

section
variable {f : HdlcFrame}

theorem acknowledge_tested (hs : Consistent s) (ht : f.hdlcFrameType = .i ∨ f.hdlcFrameType = .sRR) :
    (acknowledge f).wp (TestedFrom f s) s o := by
  have hack : carriesAck f = true := by rcases ht with ht | ht <;> simp [carriesAck, ht]
  rcases hs.window with hwait | ⟨hwait, hflow, front, rest, hq⟩
  · rcases Bool.eq_false_or_eq_true s.peerStoppedFlow with hflow | hflow <;>
      rcases ht with ht | ht <;> constructor <;>
      simp [acknowledge, branch, update, skip, clearRnrCondition, restartsFlow, ht, hwait, hflow]
  · rcases Bool.eq_false_or_eq_true (s.acknowledges f.rSeq) with hseq | hseq <;>
      rcases ht with ht | ht <;> constructor <;>
      simp [acknowledge, branch, update, skip, popFrontReliable, stopWaiting, KeepsWaiting, restartsFlow,
        ht, hwait, hflow, hq, hack, hseq]

theorem receiveNotReady_tested (hs : Consistent s) (ht : f.hdlcFrameType = .sRNR) :
    (receiveNotReady f).wp (TestedFrom f s) s o := by
  have hack : carriesAck f = true := by simp [carriesAck, ht]
  rcases hs.window with hwait | ⟨hwait, hflow, front, rest, hq⟩
  · rcases Bool.eq_false_or_eq_true s.peerStoppedFlow with hflow | hflow <;> constructor <;>
      simp [receiveNotReady, branch, update, skip, enterRnrCondition, ht, hwait, hflow]
  · rcases Bool.eq_false_or_eq_true (f.rSeq == (s.sSeqOutgoing + 1) &&& 0x07) with hseq | hseq <;>
      constructor <;>
      simp [receiveNotReady, branch, update, skip, enterRnrCondition, popFrontReliable, stopWaiting,
        KeepsWaiting, acknowledges, ht, hwait, hflow, hq, hack, hseq]

theorem reject_tested (hs : Consistent s) (ht : f.hdlcFrameType = .sREJ) :
    (reject f).wp (TestedFrom f s) s o := by
  have hack : carriesAck f = false := by simp [carriesAck, ht]
  rcases hs.window with hwait | ⟨hwait, hflow, _⟩
  · rcases Bool.eq_false_or_eq_true s.peerStoppedFlow with hflow | hflow <;>
      by_cases hseq : f.rSeq = s.sSeqOutgoing <;> constructor <;>
      simp [reject, update, clearRnrCondition, stopWaiting, restartsFlow, ht, hwait, hflow, hseq]
  · by_cases hseq : f.rSeq = s.sSeqOutgoing <;> constructor <;>
      simp [reject, update, stopWaiting, KeepsWaiting, ht, hwait, hflow, hseq, hack]

theorem selectiveReject_tested (hs : Consistent s) (ht : f.hdlcFrameType = .sSREJ) :
    (selectiveReject f).wp (TestedFrom f s) s o := by
  have hack : carriesAck f = false := by simp [carriesAck, ht]
  rcases hs.window with hwait | ⟨hwait, hflow, _⟩
  · rcases Bool.eq_false_or_eq_true s.peerStoppedFlow with hflow | hflow <;> constructor <;>
      simp [selectiveReject, update, clearRnrCondition, restartsFlow, ht, hwait, hflow]
  · by_cases hseq : f.rSeq = s.sSeqOutgoing <;> constructor <;>
      simp [selectiveReject, update, stopWaiting, KeepsWaiting, ht, hwait, hflow, hseq, hack]

theorem checkAcks_tested (hs : Consistent s) (f : HdlcFrame) : Tested f s (checkAcks f s).1 := by
  show (checkAcks f).wp (TestedFrom f s) s []
  unfold checkAcks
  split
  case h_1 ht => exact acknowledge_tested hs (.inl ht)
  case h_2 ht => exact acknowledge_tested hs (.inr ht)
  case h_3 ht => exact receiveNotReady_tested hs ht
  case h_4 ht => exact reject_tested hs ht
  case h_5 ht => exact selectiveReject_tested hs ht
  case h_6 hi hrr hrnr hrej hsrej =>
    have hack : carriesAck f = false := by simpa [carriesAck] using ⟨⟨hi, hrr⟩, hrnr⟩
    have hflow : restartsFlow f = false := by simpa [restartsFlow] using ⟨⟨hrr, hrej⟩, hsrej⟩
    have hkeeps : KeepsWaiting f s :=
      ⟨hrnr, fun hcarries => absurd hcarries (by simp [hack]), fun ht => (ht.elim hrej hsrej).elim⟩
    have hready (p : Prop) : ¬ (f.hdlcFrameType = .sRNR ∧ p) := fun h => hrnr h.1
    refine wp_skip.mpr ⟨?_, ?_, ?_, ?_⟩
    · exact (and_iff_left hkeeps).symm
    · rw [hflow]
      exact ⟨fun hstop => .inr ⟨hstop, rfl⟩, fun h => h.elim (fun ht => (hrnr ht).elim) (·.1)⟩
    · exact (or_iff_left (hready _)).symm
    · rw [hack, Bool.and_false, Bool.false_and, if_neg Bool.false_ne_true]

end

def Unsendable (f : HdlcFrame) (s : ProtocolState) : Prop :=
  f.hdlcFrameType = .sRNR ∨ s.peerStoppedFlow = true ∧ restartsFlow f = false ∨
    s.waitForAck = true ∧ KeepsWaiting f s ∨
    (if s.waitForAck && carriesAck f && s.acknowledges f.rSeq then s.waitQueueReliable.tail
      else s.waitQueueReliable) = []

def Starved (s : ProtocolState) : Event → Prop
  | .internal .triggerNextHDLCFrame =>
    s.started = true ∧ s.aliveState.isAlive = true ∧ s.sendProbe = false ∧ s.srejs = [] ∧ Blocked s ∧
      s.peerStoppedFlowNew = true ∧ s.peerRequiresAck = true ∧ s.waitQueueUnreliable = []
  | .frame buffer false =>
    let f := deserializeFrame buffer
    (s.started = true ∧ s.serialPortHandler = true) ∧ s.awaitsNextHDLCFrame = true ∧
      s.sendProbe = false ∧ (s.srejs = [] ∧ InSequence f s) ∧ Unsendable f s ∧
      (s.peerStoppedFlowNew = true ∨ f.hdlcFrameType = .sRNR ∧ s.peerStoppedFlow = false) ∧
      (s.peerRequiresAck = true ∨ f.hasPayload = true ∧ f.isIFrame = true) ∧
      s.waitQueueUnreliable = []
  | _ => False

theorem Tested.blocked_iff {f : HdlcFrame} {t' : ProtocolState} (ht : Tested f t t')
    (hsame : Unsendable f t ↔ Unsendable f s) : Blocked t' ↔ Unsendable f s := by
  rw [← hsame]
  unfold Blocked Unsendable
  rw [ht.reliable, ht.waiting, ht.flow]
  tauto

theorem peerRequiresAck_afterReceive (f : HdlcFrame) :
    (afterReceive f s).peerRequiresAck = true ↔
      s.peerRequiresAck = true ∨ f.hasPayload = true ∧ f.isIFrame = true := by
  unfold afterReceive
  dsimp only
  split_ifs with hdata
  · exact iff_of_true rfl (.inr (Bool.and_eq_true _ _ ▸ hdata))
  · rw [Bool.and_eq_true] at hdata
    exact (or_iff_left hdata).symm

theorem prepareValidFrame_starving (hs : Consistent s) (hrun : s.started = true ∧ s.serialPortHandler = true)
    (f : HdlcFrame) :
    Starving (prepareValidFrame f s).state ↔ s.awaitsNextHDLCFrame = true ∧
      s.sendProbe = false ∧ (s.srejs = [] ∧ InSequence f s) ∧ Unsendable f s ∧
      (s.peerStoppedFlowNew = true ∨ f.hdlcFrameType = .sRNR ∧ s.peerStoppedFlow = false) ∧
      (s.peerRequiresAck = true ∨ f.hasPayload = true ∧ f.isIFrame = true) ∧
      s.waitQueueUnreliable = [] := by
  have hreceived := hs.afterReceive hrun.1 hrun.2 f
  have htested := checkAcks_tested hreceived f
  have hblocked : Blocked (checkAcks f (afterReceive f s)).1 ↔ Unsendable f s :=
    htested.blocked_iff Iff.rfl
  have hsame := (checkAcks_acked f (afterReceive f s)).same
  simp only [unacknowledgedMembers, Prod.mk.injEq] at hsame
  obtain ⟨_, hawaits, _, hprobe, hack, hsrejs, _, _, hunreliable, halive⟩ := hsame
  have hsrejs' : (afterReceive f s).srejs = [] ↔ s.srejs = [] ∧ InSequence f s :=
    ⟨afterReceive_srejs hs.modulus, fun h => srejs_afterReceive h.1 h.2⟩
  have hfresh : (checkAcks f (afterReceive f s)).1.peerStoppedFlowNew = true ↔
      s.peerStoppedFlowNew = true ∨ f.hdlcFrameType = .sRNR ∧ s.peerStoppedFlow = false := htested.fresh
  constructor
  · intro h
    refine ⟨hawaits.symm.trans h.awaits, hprobe.symm.trans h.probe, hsrejs'.mp (hsrejs.symm.trans h.srejs),
      hblocked.mp h.reliable, hfresh.mp h.fresh, ?_, hunreliable.symm.trans h.unreliable⟩
    exact (peerRequiresAck_afterReceive f).mp (hack.symm.trans h.ack)
  · rintro ⟨hawaits', hprobe', hseq, hsend, hnew, hdue, hq⟩
    exact
      { awaits := hawaits.trans hawaits'
        probe := hprobe.trans hprobe'
        alive := (congrArg AliveState.isAlive halive).trans s.aliveState.isAlive_onFrameReceived
        srejs := hsrejs.trans (hsrejs'.mpr hseq)
        reliable := hblocked.mpr hsend
        fresh := hfresh.mpr hnew
        ack := hack.trans ((peerRequiresAck_afterReceive f).mpr hdue)
        unreliable := hunreliable.trans hq }

theorem prepareFrame_running (buffer : List UInt8)
    (hrun : s.started = true ∧ s.serialPortHandler = true) :
    (prepareFrame buffer false s).state = (prepareValidFrame (deserializeFrame buffer) s).state ∧
      (prepareFrame buffer false s).opportunity =
        (prepareValidFrame (deserializeFrame buffer) s).opportunity := by
  simp [prepareFrame, hrun.1, hrun.2]

theorem prepareFrame_ignored {buffer : List UInt8} {messageInvalid : Bool}
    (h : messageInvalid = true ∨ ¬ (s.started = true ∧ s.serialPortHandler = true)) :
    (prepareFrame buffer messageInvalid s).state = s ∧
      (prepareFrame buffer messageInvalid s).opportunity = false := by
  unfold prepareFrame
  split_ifs with hstarted hhandler hinvalid
  · exact ⟨rfl, rfl⟩
  · exact ⟨rfl, rfl⟩
  · exact ⟨rfl, rfl⟩
  · simp only [Bool.not_eq_true', Bool.not_eq_false] at hstarted hhandler
    exact absurd h (by simp [hinvalid, hstarted, hhandler])

theorem Starving.not_noticed (h : Starving s) : ¬ Noticed s := by
  intro hnoticed
  have hnone := hnoticed h.alive h.awaits
  rw [h.fresh] at hnone
  exact Bool.noConfusion hnone

theorem prepareLocal_noticed (h : Noticed s) {e : LocalEvent} (he : e ≠ .triggerNextHDLCFrame)
    {p : Preparation} (hp : Prepared s e p) : Noticed p.state := by
  cases hp with
  | start | stop | shutdown => exact .of_dead rfl
  | sendPayload payload reliable => cases reliable <;> exact h
  | trigger => exact absurd rfl he
  | stateTimer a halive => exact fun halive' => h (halive halive')
  | probe =>
    intro halive
    rw [prepareProbeTimer_isAlive] at halive
    exact h halive
  | expire | retransmission | rnrPoll | rnrOver | probeExpire | ignored => exact h

theorem trigger_starving :
    (prepareLocal .triggerNextHDLCFrame s).opportunity = true ∧
      Starving (prepareLocal .triggerNextHDLCFrame s).state ↔
      Starved s (.internal .triggerNextHDLCFrame) := by
  rw [prepareLocal]
  split_ifs with hstarted
  · constructor
    · rintro ⟨_, h⟩
      exact ⟨hstarted, h.alive, h.probe, h.srejs, h.reliable, h.fresh, h.ack, h.unreliable⟩
    · rintro ⟨_, halive, hprobe, hsrejs, hreliable, hnew, hack, hq⟩
      exact ⟨rfl, ⟨⟨⟨rfl, hprobe, halive⟩, hsrejs, hreliable⟩, hnew, hack, hq⟩⟩
  · exact iff_of_false (fun h => h.1.elim) fun h => hstarted h.1

theorem not_starved {e : LocalEvent} (he : e ≠ .triggerNextHDLCFrame) : ¬ Starved s (.internal e) := by
  cases e with
  | triggerNextHDLCFrame => exact absurd rfl he
  | _ => exact id

theorem prepare_starving (hs : Consistent s) (h : Noticed s) (e : Event) :
    (prepare e s).opportunity = true ∧ Starving (prepare e s).state ↔ Starved s e := by
  cases e with
  | internal e =>
    by_cases he : e = .triggerNextHDLCFrame
    · rw [he]
      exact trigger_starving
    · refine iff_of_false (fun hstarving => ?_) (not_starved he)
      exact hstarving.2.not_noticed (prepareLocal_noticed h he (prepared e s))
  | frame buffer messageInvalid =>
    by_cases hvalid : messageInvalid = true ∨ ¬ (s.started = true ∧ s.serialPortHandler = true)
    · have hquiet : (prepare (.frame buffer messageInvalid) s).opportunity = false :=
        (prepareFrame_ignored hvalid).2
      rw [hquiet]
      refine iff_of_false (fun hstarving => Bool.noConfusion hstarving.1) fun hstarved => ?_
      cases messageInvalid with
      | true => exact hstarved
      | false => exact hvalid.elim Bool.false_ne_true.elim fun hidle => hidle hstarved.1
    · simp only [not_or, Bool.not_eq_true, not_not] at hvalid
      obtain ⟨rfl, hrun⟩ := hvalid
      obtain ⟨hstate, hopen⟩ := prepareFrame_running buffer hrun
      have hvalidFrame := prepareValidFrame_starving hs hrun (deserializeFrame buffer)
      have hawaits (hstarving : Starving (prepareValidFrame (deserializeFrame buffer) s).state) :
          (prepareValidFrame (deserializeFrame buffer) s).opportunity = true := hstarving.awaits
      rw [prepare, hstate, hopen, Starved]
      exact ⟨fun hstarving => ⟨hrun, hvalidFrame.mp hstarving.2⟩,
        fun hstarved => ⟨hawaits (hvalidFrame.mpr hstarved.2), hvalidFrame.mpr hstarved.2⟩⟩

theorem prepareLocal_quiet (hs : Consistent s) (h : NothingLeft s) {e : LocalEvent} {p : Preparation}
    (hp : Prepared s e p) (hquiet : p.opportunity = false) : NothingLeft p.state := by
  cases hp with
  | start | trigger | retransmission | rnrPoll => exact Bool.noConfusion hquiet
  | stop | shutdown => exact .of_dead rfl
  | sendPayload payload reliable =>
    refine .of_busy (Eq.trans ?_ hquiet)
    cases reliable <;> rfl
  | stateTimer a halive => exact fun halive' => h (halive halive')
  | probe =>
    intro halive hawaits
    rw [prepareProbeTimer_isAlive] at halive
    have halive' : s.aliveState.isAlive = true := halive
    obtain ⟨hprobe, hrest⟩ := h halive' hawaits
    refine ⟨?_, hrest⟩
    -- the handler is set as the link is alive, so a probe would be an opportunity
    simp only [prepareProbeTimer, (hs.running halive').2, Bool.true_and] at hquiet
    simp only [prepareProbeTimer, hprobe, Bool.false_or]
    exact hquiet
  | expire | rnrOver | probeExpire | ignored => exact h

theorem prepare_quiet (hs : Consistent s) (h : NothingLeft s) {e : Event}
    (hquiet : (prepare e s).opportunity = false) : NothingLeft (prepare e s).state := by
  cases e with
  | internal e => exact prepareLocal_quiet hs h (prepared e s) hquiet
  | frame buffer messageInvalid =>
    by_cases hvalid : messageInvalid = true ∨ ¬ (s.started = true ∧ s.serialPortHandler = true)
    · rw [prepare, (prepareFrame_ignored hvalid).1]
      exact h
    · simp only [not_or, Bool.not_eq_true, not_not] at hvalid
      obtain ⟨rfl, hrun⟩ := hvalid
      obtain ⟨hstate, hopen⟩ := prepareFrame_running buffer hrun
      rw [prepare, hstate]
      rw [prepare, hopen] at hquiet
      exact .of_busy hquiet

theorem prepare_noticed (h : Noticed s) {e : Event} (hquiet : (prepare e s).opportunity = false) :
    Noticed (prepare e s).state := by
  cases e with
  | internal e =>
    by_cases he : e = .triggerNextHDLCFrame
    · rw [he, prepare, prepareLocal] at hquiet ⊢
      split_ifs at hquiet ⊢
      exact h
    · exact prepareLocal_noticed h he (prepared e s)
  | frame buffer messageInvalid =>
    by_cases hvalid : messageInvalid = true ∨ ¬ (s.started = true ∧ s.serialPortHandler = true)
    · rw [prepare, (prepareFrame_ignored hvalid).1]
      exact h
    · simp only [not_or, Bool.not_eq_true, not_not] at hvalid
      obtain ⟨rfl, hrun⟩ := hvalid
      obtain ⟨hstate, hopen⟩ := prepareFrame_running buffer hrun
      rw [prepare, hstate]
      rw [prepare, hopen] at hquiet
      exact .of_busy hquiet

theorem handle_noticed (hs : Consistent s) (h : Noticed s) (e : Event) : Noticed (handle e s).1 := by
  rw [handle_eq, Preparation.finish]
  split_ifs with hopen
  · exact opportunity_noticed (hs.prepare e)
  · exact prepare_noticed h (Bool.eq_false_of_not_eq_true hopen)

theorem handle_nothingLeft (hs : Consistent s) (hnoticed : Noticed s) (h : NothingLeft s) {e : Event}
    (he : ¬ Starved s e) : NothingLeft (handle e s).1 := by
  rw [handle_eq, Preparation.finish]
  split_ifs with hopen
  · refine opportunity_nothingLeft (hs.prepare e) fun hstarving => he ?_
    exact (prepare_starving hs hnoticed e).mp ⟨hopen, hstarving⟩
  · exact prepare_quiet hs h (Bool.eq_false_of_not_eq_true hopen)

theorem handle_starved (hs : Consistent s) (hnoticed : Noticed s) {e : Event} (he : Starved s e) :
    RRLeft (handle e s).1 [] := by
  obtain ⟨hopen, hstarving⟩ := (prepare_starving hs hnoticed e).mpr he
  rw [handle_eq, Preparation.finish_opportunity hopen]
  exact opportunity_starving (hs.prepare e) hstarving

theorem handle_submission (hs : Consistent s) (hnoticed : Noticed s) (p : Payload × Bool) :
    NothingLeft (handle (submission p) s).1 := by
  have hpending := (prepare_starving hs hnoticed (submission p)).not.mpr (not_starved (by simp))
  rw [handle_eq, Preparation.finish]
  split_ifs with hopen
  · exact opportunity_nothingLeft (hs.prepare _) fun hstarving => hpending ⟨hopen, hstarving⟩
  · refine .of_busy (Eq.trans ?_ (Bool.eq_false_of_not_eq_true hopen))
    show (s.enqueue p.1 p.2).awaitsNextHDLCFrame = s.awaitsNextHDLCFrame
    cases p.2 <;> rfl

/-- What holds between two turns. -/
structure Awake (s : ProtocolState) : Prop where
  consistent : Consistent s
  noticed : Noticed s
  nothingLeft : NothingLeft s

def NotStarved (s : ProtocolState) (turn : Turn) : Prop := Starved s turn.event → turn.submissions ≠ []

theorem Awake.submit (h : Awake s) (p : Payload × Bool) : Awake (handle (submission p) s).1 where
  consistent := h.consistent.handle _
  noticed := handle_noticed h.consistent h.noticed _
  nothingLeft := handle_submission h.consistent h.noticed p

theorem Awake.submissions (h : Awake s) (ps : List (Payload × Bool)) :
    Awake (run handle (ps.map submission) s).1 := by
  rw [run_map]
  exact run_invariant _ (C := fun _ _ => True) (fun _ p _ h => h.submit p) h
    (along_of_forall _ (fun _ _ _ => trivial) s)

theorem Awake.turn (h : Awake s) {turn : Turn} (hturn : NotStarved s turn) :
    Awake (handleTurn turn s).1 := by
  have hconsistent := h.consistent.handle turn.event
  have hnoticed := handle_noticed h.consistent h.noticed turn.event
  by_cases hstarved : Starved s turn.event
  · obtain ⟨p, ps, hsubmissions⟩ := List.exists_cons_of_ne_nil (hturn hstarved)
    have hfirst : Awake (handle (submission p) (handle turn.event s).1).1 :=
      { consistent := hconsistent.handle _
        noticed := handle_noticed hconsistent hnoticed _
        nothingLeft := handle_submission hconsistent hnoticed p }
    rw [handleTurn, hsubmissions]
    exact hfirst.submissions ps
  · have hevent : Awake (handle turn.event s).1 :=
      ⟨hconsistent, hnoticed, handle_nothingLeft h.consistent h.noticed h.nothingLeft hstarved⟩
    exact hevent.submissions turn.submissions

theorem Awake.initial : Awake initial := ⟨Consistent.initial, by unfold Noticed; decide, by decide⟩

end

theorem nothing_left_iff (turns : List Turn) :
    (∀ pre, pre <+: turns →
      let s := (run handleTurn pre initial).1
      s.aliveState.isAlive = true → s.awaitsNextHDLCFrame = true →
        s.sendProbe = false ∧ s.srejs = [] ∧ s.peerRequiresAck = false ∧ s.waitQueueUnreliable = [] ∧
          (s.waitQueueReliable = [] ∨ s.waitForAck = true ∨ s.peerStoppedFlow = true)) ↔
      Along handleTurn NotStarved initial turns := by
  refine reached_iff_along handleTurn (I := Awake) (G := NothingLeft) ?_ ?_ ?_ Awake.initial
  · exact fun _ _ hturn h => h.turn hturn
  · exact fun _ h => h.nothingLeft
  · intro s turn hturn h
    simp only [NotStarved, Classical.not_imp, not_not] at hturn
    have hleft := handle_starved h.consistent h.noticed hturn.1
    rw [handleTurn, hturn.2]
    exact hleft.not_nothingLeft

/-- An I-frame and an RNR arrive during a write. Its completion starts the poll of the
new RNR condition, and the RR for the I-frame stays. -/
def starvingRun : List Turn :=
  [{ event := .internal .start }, { event := .internal .triggerNextHDLCFrame },
    { event := received { address := 0x30, hdlcFrameType := .uUI, payload := [0x55] } },
    { event := .internal (.sendPayload [0x42] false) },
    { event := received { address := 0x30, hdlcFrameType := .i, sSeq := 0, rSeq := 0, payload := [0x41] } },
    { event := received { address := 0x30, hdlcFrameType := .sRNR, rSeq := 0 } },
    { event := .internal .triggerNextHDLCFrame }]

theorem nothing_left_fails :
    ¬ ∀ pre, pre <+: starvingRun → NothingLeft (run handleTurn pre initial).1 := by
  intro hall
  have hlast := hall starvingRun (List.prefix_refl _)
  revert hlast
  decide +kernel

end Hdlcd.ProtocolState
