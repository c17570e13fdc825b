import Hdlcd.Protocol.Cascade
import Hdlcd.Protocol.Retransmission

/-! Every event is a preparation, followed by at most one `OpportunityForTransmission`. -/

namespace Hdlcd.ProtocolState
open Reactive Action FrameGenerator FrameParser

def IgnoresAliveState (a : Act) : Prop :=
  ∀ s alive, alive.isAlive = s.aliveState.isAlive →
    a { s with aliveState := alive } = ({ (a s).1 with aliveState := alive }, (a s).2)

namespace IgnoresAliveState

variable {a b : Act}

theorem emit (xs : List Effect) : IgnoresAliveState (Action.emit xs) := fun _ _ _ => rfl

theorem skip : IgnoresAliveState (Action.skip : Act) := fun _ _ _ => rfl

theorem update {f : ProtocolState → ProtocolState}
    (hf : ∀ s alive, f { s with aliveState := alive } = { f s with aliveState := alive }) :
    IgnoresAliveState (Action.update f) := fun s alive _ => congrArg (·, []) (hf s alive)

theorem keeps (ha : IgnoresAliveState a) (s : ProtocolState) :
    (a s).1.aliveState = s.aliveState := by
  have hsame := congrArg (·.1.aliveState) (ha s s.aliveState rfl)
  exact hsame

theorem andThen (ha : IgnoresAliveState a) (hb : IgnoresAliveState b) :
    IgnoresAliveState (a.andThen b) := by
  intro s alive halive
  have halive' : alive.isAlive = (a s).1.aliveState.isAlive := by rw [ha.keeps, halive]
  rw [andThen_apply, ha s alive halive, hb (a s).1 alive halive', andThen_apply]

theorem branch {c : ProtocolState → Bool} (ha : IgnoresAliveState a) (hb : IgnoresAliveState b)
    (hc : ∀ s alive, alive.isAlive = s.aliveState.isAlive → c { s with aliveState := alive } = c s) :
    IgnoresAliveState (Action.branch c a b) := by
  intro s alive halive
  unfold Action.branch
  rw [hc s alive halive]
  split
  · exact ha s alive halive
  · exact hb s alive halive

theorem withSerialPortHandler (ha : IgnoresAliveState a) :
    IgnoresAliveState (withSerialPortHandler a) := ha.branch (emit _) fun _ _ _ => rfl

theorem transmitFrame (f : HdlcFrame) : IgnoresAliveState (transmitFrame f) := by
  intro s alive _
  unfold ProtocolState.transmitFrame
  cases serializeFrame f <;> rfl

theorem queryWaitQueues : IgnoresAliveState queryWaitQueues := by
  intro s alive halive
  unfold ProtocolState.queryWaitQueues
  dsimp only
  split_ifs
  · exact (emit _).withSerialPortHandler s alive halive
  · rfl

theorem sendUnreliable : IgnoresAliveState sendUnreliable := by
  intro s alive halive
  by_cases hq : s.waitQueueUnreliable = []
  · rw [sendUnreliable_nil hq, sendUnreliable_nil (s := { s with aliveState := alive }) hq]
    exact queryWaitQueues s alive halive
  · obtain ⟨front, rest, hq⟩ := List.exists_cons_of_ne_nil hq
    rw [sendUnreliable_cons hq, sendUnreliable_cons (s := { s with aliveState := alive }) hq]
    have hsend : IgnoresAliveState ((Action.update fun s =>
        { s with waitQueueUnreliable := rest }).andThen
          (ProtocolState.transmitFrame (prepareUFrameUI front))) :=
      (update fun _ _ => rfl).andThen (transmitFrame _)
    exact ((emit _).andThen hsend).withSerialPortHandler s alive halive

theorem sendRR : IgnoresAliveState sendRR := by
  intro s alive halive
  have hsend (f : HdlcFrame) := (transmitFrame f).withSerialPortHandler
  unfold ProtocolState.sendRR
  dsimp only
  split_ifs
  · exact hsend _ (startRnrTimer { s with peerRequiresAck := false, peerStoppedFlowQueried := true })
      alive halive
  · exact hsend _ { s with peerRequiresAck := false } alive halive

theorem sendAck : IgnoresAliveState sendAck := by
  have hstart : IgnoresAliveState ((Action.update fun s =>
      startRnrTimer { s with peerStoppedFlowNew := false }).andThen ProtocolState.sendUnreliable) :=
    (update fun _ _ => rfl).andThen sendUnreliable
  exact hstart.branch (sendRR.branch sendUnreliable fun _ _ _ => rfl) fun _ _ _ => rfl

theorem sendIFrame (front : Payload) : IgnoresAliveState (sendIFrame front) := by
  intro s alive halive
  have hsend : IgnoresAliveState ((Action.update fun t =>
      { t with
        waitForAck := true, peerRequiresAck := false
        timer := t.timer.asyncWait .retransmission }).andThen
          (ProtocolState.transmitFrame (s.prepareIFrame front))) :=
    (update fun _ _ => rfl).andThen (transmitFrame _)
  exact ((emit _).andThen hsend).withSerialPortHandler s alive halive

theorem sendReliable : IgnoresAliveState sendReliable := by
  intro s alive halive
  by_cases hsend : ∃ front rest, s.waitQueueReliable = front :: rest ∧
      s.waitForAck = false ∧ s.peerStoppedFlow = false
  · obtain ⟨front, rest, hq, hfree⟩ := hsend
    rw [sendReliable_iFrame hq hfree, sendReliable_iFrame (s := { s with aliveState := alive }) hq hfree]
    exact sendIFrame front s alive halive
  · have hblocked : s.waitQueueReliable = [] ∨ s.waitForAck = true ∨ s.peerStoppedFlow = true := by
      by_contra hfree
      simp only [not_or, Bool.not_eq_true] at hfree
      obtain ⟨front, rest, hq⟩ := List.exists_cons_of_ne_nil hfree.1
      exact hsend ⟨front, rest, hq, hfree.2⟩
    rw [sendReliable_blocked hblocked,
      sendReliable_blocked (s := { s with aliveState := alive }) hblocked]
    exact sendAck s alive halive

theorem sendOutstanding : IgnoresAliveState sendOutstanding := by
  intro s alive halive
  by_cases hsrejs : s.srejs = []
  · rw [sendOutstanding_nil hsrejs, sendOutstanding_nil (s := { s with aliveState := alive }) hsrejs]
    exact sendReliable s alive halive
  · obtain ⟨front, rest, hsrejs⟩ := List.exists_cons_of_ne_nil hsrejs
    rw [sendOutstanding_cons hsrejs, sendOutstanding_cons (s := { s with aliveState := alive }) hsrejs]
    exact (transmitFrame _).withSerialPortHandler { s with srejs := rest } alive halive

theorem opportunityForTransmission : IgnoresAliveState opportunityForTransmission := by
  have hprobe : IgnoresAliveState ((Action.update fun s => { s with sendProbe := false }).andThen
      (ProtocolState.withSerialPortHandler (ProtocolState.transmitFrame prepareUFrameTEST))) :=
    (update fun _ _ => rfl).andThen (transmitFrame _).withSerialPortHandler
  have halive := sendOutstanding.branch skip (c := (·.aliveState.isAlive)) fun _ _ h => h
  have hopen := hprobe.branch halive (c := (·.sendProbe)) fun _ _ _ => rfl
  exact skip.branch hopen fun _ _ _ => rfl

end IgnoresAliveState

structure Preparation where
  state : ProtocolState
  effects : List Effect := []
  -- whether `OpportunityForTransmission` is called
  opportunity : Bool := false

def Preparation.finish (p : Preparation) : ProtocolState × List Effect :=
  if p.opportunity then
    ((opportunityForTransmission p.state).1, p.effects ++ (opportunityForTransmission p.state).2)
  else (p.state, p.effects)

theorem Preparation.finish_opportunity {p : Preparation} (h : p.opportunity = true) :
    p.finish = ((opportunityForTransmission p.state).1,
      p.effects ++ (opportunityForTransmission p.state).2) := if_pos h

theorem Preparation.finish_quiet {p : Preparation} (h : p.opportunity = false) :
    p.finish = (p.state, p.effects) := if_neg (by rw [h]; decide)

def memberCall (s : ProtocolState) (xs : List Effect) : List Effect :=
  if s.serialPortHandler then xs else [.fault .nullSerialPortHandler]

def prepareTimer (handler : TimerHandler) (s : ProtocolState) : Preparation :=
  match handler with
  | .retransmission => { state := { s with waitForAck := false }, opportunity := true }
  | .rnrPoll =>
    if s.peerStoppedFlow then
      { state := { s with peerRequiresAck := true, peerStoppedFlowQueried := false }
        opportunity := true }
    else { state := s }

def prepareStateTimer (s : ProtocolState) : Preparation :=
  match s.aliveState.onStateTimeout with
  | some a => { state := { s with aliveState := a.startStateTimer } }
  | none => { state := s, effects := [.fault .assertion] }

def prepareProbeTimer (s : ProtocolState) : Preparation :=
  let called := s.aliveState.onProbeTimeout
  { state :=
      { s with
        aliveState := called.1.startProbeTimer
        sendProbe := s.sendProbe || !called.2.isEmpty }
    effects :=
      if s.serialPortHandler && called.2.contains .changeBaudrate then
        [.changeBaudRate, .propagateSerialPortState]
      else []
    opportunity := s.serialPortHandler && !called.2.isEmpty }

def prepareLocal : LocalEvent → ProtocolState → Preparation
  | .start, s =>
    { state :=
        { s.reset with started := true, sendProbe := true, aliveState := s.reset.aliveState.start.1 }
      opportunity := true }
  | .stop, s =>
    if s.started then { state := s.reset, effects := s.memberCall [.propagateSerialPortState] }
    else { state := s }
  | .shutdown, s =>
    if s.started then { state := { s.reset with serialPortHandler := false } } else { state := s }
  | .sendPayload payload reliable, s =>
    { state := s.enqueue payload reliable, opportunity := s.awaitsNextHDLCFrame }
  | .triggerNextHDLCFrame, s =>
    if s.started then { state := { s with awaitsNextHDLCFrame := true }, opportunity := true }
    else { state := s }
  | .timerExpires, s => { state := { s with timer := s.timer.expire } }
  | .timerHandler handler, s =>
    if handler ∈ s.timer.queued then prepareTimer handler { s with timer := s.timer.complete handler }
    else { state := s }
  | .stateTimerExpires, s =>
    { state := { s with
        aliveState := { s.aliveState with stateTimer := s.aliveState.stateTimer.expire } } }
  | .stateTimerHandler, s =>
    if () ∈ s.aliveState.stateTimer.queued then
      prepareStateTimer { s with
        aliveState := { s.aliveState with stateTimer := s.aliveState.stateTimer.complete () } }
    else { state := s }
  | .probeTimerExpires, s =>
    { state := { s with
        aliveState := { s.aliveState with probeTimer := s.aliveState.probeTimer.expire } } }
  | .probeTimerHandler, s =>
    if () ∈ s.aliveState.probeTimer.queued then
      prepareProbeTimer { s with
        aliveState := { s.aliveState with probeTimer := s.aliveState.probeTimer.complete () } }
    else { state := s }

theorem prepareProbeTimer_isAlive (s : ProtocolState) :
    (prepareProbeTimer s).state.aliveState.isAlive = s.aliveState.isAlive :=
  AliveState.isAlive_onProbeTimeout s.aliveState

/-- The preparations of the local events, an event that finds nothing to do included. -/
inductive Prepared (s : ProtocolState) : LocalEvent → Preparation → Prop
  | start :
    Prepared s .start
      { state := { s.reset with
          started := true, sendProbe := true, aliveState := s.reset.aliveState.start.1 }
        opportunity := true }
  | stop (hstarted : s.started = true) :
    Prepared s .stop { state := s.reset, effects := s.memberCall [.propagateSerialPortState] }
  | shutdown (hstarted : s.started = true) :
    Prepared s .shutdown { state := { s.reset with serialPortHandler := false } }
  | sendPayload (payload : Payload) (reliable : Bool) :
    Prepared s (.sendPayload payload reliable)
      { state := s.enqueue payload reliable, opportunity := s.awaitsNextHDLCFrame }
  | trigger (hstarted : s.started = true) :
    Prepared s .triggerNextHDLCFrame
      { state := { s with awaitsNextHDLCFrame := true }, opportunity := true }
  | expire : Prepared s .timerExpires { state := { s with timer := s.timer.expire } }
  | retransmission (hqueued : TimerHandler.retransmission ∈ s.timer.queued) :
    Prepared s (.timerHandler .retransmission)
      { state := { s with timer := s.timer.complete .retransmission, waitForAck := false }
        opportunity := true }
  | rnrPoll (hqueued : TimerHandler.rnrPoll ∈ s.timer.queued) (hflow : s.peerStoppedFlow = true) :
    Prepared s (.timerHandler .rnrPoll)
      { state := { s with
          timer := s.timer.complete .rnrPoll
          peerRequiresAck := true
          peerStoppedFlowQueried := false }
        opportunity := true }
  | rnrOver (hqueued : TimerHandler.rnrPoll ∈ s.timer.queued) (hflow : s.peerStoppedFlow = false) :
    Prepared s (.timerHandler .rnrPoll) { state := { s with timer := s.timer.complete .rnrPoll } }
  | stateTimer (a : AliveState) (halive : a.isAlive = true → s.aliveState.isAlive = true)
      (hprobe : a.probeTimer = s.aliveState.probeTimer ∧ a.probeCounter = s.aliveState.probeCounter)
      (effects : List Effect) (heffects : ∀ x ∈ effects, x = .fault .assertion) (e : LocalEvent)
      (he : e = .stateTimerExpires ∨ e = .stateTimerHandler) :
    Prepared s e { state := { s with aliveState := a }, effects := effects }
  | probeExpire :
    Prepared s .probeTimerExpires
      { state := { s with
          aliveState := { s.aliveState with probeTimer := s.aliveState.probeTimer.expire } } }
  | probe (hqueued : () ∈ s.aliveState.probeTimer.queued) :
    Prepared s .probeTimerHandler
      (prepareProbeTimer { s with
        aliveState := { s.aliveState with probeTimer := s.aliveState.probeTimer.complete () } })
  | ignored (e : LocalEvent) (hstart : e ≠ .start)
      (hsend : ∀ payload reliable, e ≠ .sendPayload payload reliable) : Prepared s e { state := s }

theorem onStateTimeout_probe {a a' : AliveState} (h : a.onStateTimeout = some a') :
    a'.probeTimer = a.probeTimer ∧ a'.probeCounter = a.probeCounter := by
  unfold AliveState.onStateTimeout at h
  split at h
  · split_ifs at h <;> (rw [← Option.some.inj h]; exact ⟨rfl, rfl⟩)
  · split_ifs at h
    rw [← Option.some.inj h]
    exact ⟨rfl, rfl⟩
  · rw [← Option.some.inj h]
    exact ⟨rfl, rfl⟩

theorem prepared (e : LocalEvent) (s : ProtocolState) : Prepared s e (prepareLocal e s) := by
  cases e with
  | start => exact .start
  | stop =>
    rw [prepareLocal]
    split_ifs with h
    · exact .stop h
    · exact .ignored _ (by simp) (by simp)
  | shutdown =>
    rw [prepareLocal]
    split_ifs with h
    · exact .shutdown h
    · exact .ignored _ (by simp) (by simp)
  | sendPayload payload reliable => exact .sendPayload payload reliable
  | triggerNextHDLCFrame =>
    rw [prepareLocal]
    split_ifs with h
    · exact .trigger h
    · exact .ignored _ (by simp) (by simp)
  | timerExpires => exact .expire
  | timerHandler handler =>
    rw [prepareLocal]
    split_ifs with h
    · cases handler with
      | retransmission => exact .retransmission h
      | rnrPoll =>
        rw [prepareTimer]
        split_ifs with hflow
        · exact .rnrPoll h hflow
        · exact .rnrOver h (Bool.eq_false_of_not_eq_true hflow)
    · exact .ignored _ (by simp) (by simp)
  | stateTimerExpires =>
    exact .stateTimer (s := s)
      { s.aliveState with stateTimer := s.aliveState.stateTimer.expire } id ⟨rfl, rfl⟩ [] (by simp) _
      (.inl rfl)
  | stateTimerHandler =>
    rw [prepareLocal]
    split_ifs with h
    · rw [prepareStateTimer]
      split
      · rename_i a ha
        have halive := AliveState.isAlive_of_onStateTimeout ha
        have hprobe := onStateTimeout_probe ha
        exact .stateTimer (s := s) a.startStateTimer halive hprobe [] (by simp) _ (.inr rfl)
      · exact .stateTimer (s := s) { s.aliveState with stateTimer := s.aliveState.stateTimer.complete () } id
          ⟨rfl, rfl⟩ [.fault .assertion] (by simp) _ (.inr rfl)
    · exact .ignored _ (by simp) (by simp)
  | probeTimerExpires => exact .probeExpire
  | probeTimerHandler =>
    rw [prepareLocal]
    split_ifs with h
    · exact .probe h
    · exact .ignored _ (by simp) (by simp)

def prepareValidFrame (f : HdlcFrame) (s : ProtocolState) : Preparation :=
  let acknowledged := checkAcks f (afterReceive f s)
  { state := acknowledged.1
    effects := (frameReceived s).2 ++ ((receivePayload f (frameReceived s).1).2 ++ acknowledged.2)
    opportunity := acknowledged.1.awaitsNextHDLCFrame }

def frameCopies (buffer : List UInt8) (messageInvalid : Bool) : List Effect :=
  [.deliverIfRequired .raw buffer false messageInvalid false,
    .deliverIfRequired .dissected (deserializeFrame buffer).dissect false messageInvalid false]

def prepareFrame (buffer : List UInt8) (messageInvalid : Bool) (s : ProtocolState) : Preparation :=
  if !s.started then { state := s }
  else if !s.serialPortHandler then { state := s, effects := [.fault .nullSerialPortHandler] }
  else if messageInvalid then { state := s, effects := frameCopies buffer true }
  else
    let valid := prepareValidFrame (deserializeFrame buffer) s
    { valid with effects := frameCopies buffer false ++ valid.effects }

def prepare : Event → ProtocolState → Preparation
  | .internal e, s => prepareLocal e s
  | .frame buffer messageInvalid, s => prepareFrame buffer messageInvalid s

section
variable {s : ProtocolState}

theorem enqueue_wakes (payload : Payload) (reliable : Bool) (s : ProtocolState) :
    let t := s.enqueue payload reliable
    (t.awaitsNextHDLCFrame && ((t.started || !t.peerStoppedFlow || !t.waitQueueReliable.isEmpty) ||
      (t.started || !t.waitQueueUnreliable.isEmpty))) = s.awaitsNextHDLCFrame := by
  cases reliable <;> simp [enqueue]

theorem opportunity_busy (h : s.awaitsNextHDLCFrame = false) :
    opportunityForTransmission s = (s, []) := by
  simp [opportunityForTransmission, branch, h, skip]

theorem opportunity_probe (hawaits : s.awaitsNextHDLCFrame = true) (hprobe : s.sendProbe = true)
    (hhandler : s.serialPortHandler = true) :
    opportunityForTransmission s = transmitFrame prepareUFrameTEST { s with sendProbe := false } := by
  simp [opportunityForTransmission, branch, hawaits, hprobe, withSerialPortHandler, hhandler, update]

theorem start_eq (s : ProtocolState) : start s = (prepareLocal .start s).finish := by
  have hcalls : start s = ((branch (·.serialPortHandler) opportunityForTransmission skip).andThen
      opportunityForTransmission) (prepareLocal .start s).state := by
    simp [start, callAliveState, AliveState.start, aliveCallbacks, run, aliveCallback, update, skip,
      prepareLocal]
  rw [hcalls, Preparation.finish_opportunity rfl, andThen_apply, branch]
  -- the probe goes out in the callback, or nobody is there to take it
  cases hhandler : (prepareLocal .start s).state.serialPortHandler with
  | true =>
    rw [if_pos rfl, opportunity_probe rfl rfl hhandler, transmitFrame_eq rfl, opportunity_busy rfl]
    rfl
  | false =>
    rw [if_neg Bool.false_ne_true, skip]
    rfl

theorem opportunity_startProbeTimer (s : ProtocolState) :
    opportunityForTransmission { s with aliveState := s.aliveState.startProbeTimer } =
      ({ (opportunityForTransmission s).1 with
          aliveState := (opportunityForTransmission s).1.aliveState.startProbeTimer },
        (opportunityForTransmission s).2) := by
  rw [IgnoresAliveState.opportunityForTransmission.keeps]
  exact IgnoresAliveState.opportunityForTransmission s _ rfl

theorem aliveCallbacks_probe (s : ProtocolState) :
    aliveCallbacks [.sendProbe] s =
      if s.serialPortHandler then opportunityForTransmission { s with sendProbe := true }
      else ({ s with sendProbe := true }, []) := by
  rw [aliveCallbacks, run_singleton]
  show (branch (·.serialPortHandler) opportunityForTransmission skip) { s with sendProbe := true } = _
  unfold branch
  split_ifs <;> rfl

theorem aliveCallbacks_changeBaudrate (s : ProtocolState) :
    aliveCallbacks [.changeBaudrate, .sendProbe] s =
      ((aliveCallbacks [.sendProbe] s).1,
        (if s.serialPortHandler then [.changeBaudRate, .propagateSerialPortState] else []) ++
          (aliveCallbacks [.sendProbe] s).2) := by
  show ((aliveCallback .changeBaudrate).andThen (aliveCallbacks [.sendProbe])) s = _
  rw [andThen_apply, aliveCallback, branch]
  split_ifs <;> rfl

theorem onProbeTimeout_callbacks (a : AliveState) :
    a.onProbeTimeout.2 = [] ∨ a.onProbeTimeout.2 = [.sendProbe] ∨
      a.onProbeTimeout.2 = [.changeBaudrate, .sendProbe] := by
  unfold AliveState.onProbeTimeout
  split
  · dsimp only
    split_ifs <;> simp
  · simp
  · simp

theorem onProbeTimer_eq (s : ProtocolState) : onProbeTimer s = (prepareProbeTimer s).finish := by
  let t := { s with aliveState := s.aliveState.onProbeTimeout.1 }
  have hcalls : onProbeTimer s = ((aliveCallbacks s.aliveState.onProbeTimeout.2).andThen
      (update fun u => { u with aliveState := u.aliveState.startProbeTimer })) t := rfl
  have hprobe := opportunity_startProbeTimer { t with sendProbe := true }
  rw [hcalls, andThen_apply, update, List.append_nil]
  rcases onProbeTimeout_callbacks s.aliveState with hc | hc | hc
  · simp [hc, aliveCallbacks, run, skip, t, prepareProbeTimer, Preparation.finish]
  · have hp : prepareProbeTimer s =
        { state := { t with sendProbe := true, aliveState := t.aliveState.startProbeTimer }
          opportunity := s.serialPortHandler } := by
      simp [prepareProbeTimer, hc, t]
    rw [hc, hp, aliveCallbacks_probe, Preparation.finish]
    by_cases hhandler : s.serialPortHandler = true
    · rw [if_pos hhandler, if_pos hhandler]
      exact hprobe.symm
    · rw [if_neg hhandler, if_neg hhandler]
  · have hp : prepareProbeTimer s =
        { state := { t with sendProbe := true, aliveState := t.aliveState.startProbeTimer }
          effects :=
            if s.serialPortHandler then [.changeBaudRate, .propagateSerialPortState] else []
          opportunity := s.serialPortHandler } := by
      simp [prepareProbeTimer, hc, t]
    rw [hc, hp, aliveCallbacks_changeBaudrate, aliveCallbacks_probe, Preparation.finish]
    by_cases hhandler : s.serialPortHandler = true
    · rw [if_pos hhandler, if_pos hhandler, if_pos hhandler]
      rw [hprobe]
    · rw [if_neg hhandler, if_neg hhandler, if_neg hhandler]
      rfl

theorem sendPayload_eq (payload : Payload) (reliable : Bool) (s : ProtocolState) :
    sendPayload payload reliable s = (prepareLocal (.sendPayload payload reliable) s).finish := by
  have hwakes := enqueue_wakes payload reliable s
  dsimp only at hwakes
  unfold sendPayload
  simp only [andThen_apply, update, hwakes]
  rfl

theorem onTimer_eq (handler : TimerHandler) (s : ProtocolState) :
    onTimer handler s = (prepareTimer handler s).finish := by
  cases handler with
  | retransmission => rfl
  | rnrPoll =>
    show branch _ _ skip s = _
    rw [prepareTimer, branch]
    split_ifs <;> rfl

theorem onStateTimer_eq (s : ProtocolState) : onStateTimer s = (prepareStateTimer s).finish := by
  unfold onStateTimer prepareStateTimer
  cases s.aliveState.onStateTimeout <;> rfl

theorem handleLocal_eq (e : LocalEvent) (s : ProtocolState) :
    handleLocal e s = (prepareLocal e s).finish := by
  cases e with
  | start => exact start_eq s
  | stop =>
    show branch (·.started) _ skip s = _
    rw [prepareLocal, branch]
    split_ifs
    · unfold memberCall
      show branch (·.serialPortHandler) _ _ s.reset = _
      unfold branch
      cases hhandler : s.serialPortHandler <;> simp [reset, hhandler, Preparation.finish, Action.emit]
    · rfl
  | shutdown =>
    show branch (·.started) _ skip s = _
    rw [prepareLocal, branch]
    split_ifs <;> rfl
  | sendPayload payload reliable => exact sendPayload_eq payload reliable s
  | triggerNextHDLCFrame =>
    show branch (fun s => !s.started) skip _ s = _
    rw [prepareLocal, branch]
    split_ifs with hstopped hstarted hstarted
    · simp [hstarted] at hstopped
    · rfl
    · rfl
    · simp [hstarted] at hstopped
  | timerExpires | stateTimerExpires | probeTimerExpires => rfl
  | timerHandler handler =>
    rw [prepareLocal]
    split_ifs with hqueued
    · rw [← onTimer_eq]
      simp [handleLocal, branch, hqueued, update]
    · simp [handleLocal, branch, hqueued, skip, Preparation.finish]
  | stateTimerHandler =>
    rw [prepareLocal]
    split_ifs with hqueued
    · rw [← onStateTimer_eq]
      simp [handleLocal, branch, hqueued, update]
    · simp [handleLocal, branch, hqueued, skip, Preparation.finish]
  | probeTimerHandler =>
    rw [prepareLocal]
    split_ifs with hqueued
    · rw [← onProbeTimer_eq]
      simp [handleLocal, branch, hqueued, update]
    · simp [handleLocal, branch, hqueued, skip, Preparation.finish]

theorem receivePayload_frameReceived (f : HdlcFrame) (s : ProtocolState) :
    (receivePayload f (frameReceived s).1).1 = afterReceive f s := by
  unfold receivePayload afterReceive
  cases f.hasPayload <;> cases f.isIFrame <;> rfl

theorem interpretValidFrame_eq (f : HdlcFrame) (s : ProtocolState) :
    interpretValidFrame f s = (prepareValidFrame f s).finish := by
  simp only [interpretValidFrame, andThen_apply, receivePayload_frameReceived, branch]
  by_cases hopen : (checkAcks f (afterReceive f s)).1.awaitsNextHDLCFrame = true
  · rw [if_pos hopen, Preparation.finish_opportunity hopen, prepareValidFrame]
    simp only [List.append_assoc]
  · rw [if_neg hopen, Preparation.finish_quiet (Bool.eq_false_of_not_eq_true hopen)]
    simp only [skip, List.append_nil, prepareValidFrame]

theorem Preparation.finish_append (xs : List Effect) (p : Preparation) :
    ({ p with effects := xs ++ p.effects } : Preparation).finish = (p.finish.1, xs ++ p.finish.2) := by
  unfold Preparation.finish
  dsimp only
  split_ifs
  · rw [List.append_assoc]
  · rfl

theorem interpretDeserializedFrame_eq (buffer : List UInt8) (messageInvalid : Bool)
    (s : ProtocolState) :
    interpretDeserializedFrame buffer (deserializeFrame buffer) messageInvalid s =
      (prepareFrame buffer messageInvalid s).finish := by
  unfold prepareFrame interpretDeserializedFrame withSerialPortHandler branch
  dsimp only
  rcases Bool.eq_false_or_eq_true s.started with hstarted | hstarted
  · simp only [hstarted, Bool.not_true, Bool.false_eq_true, if_false]
    rcases Bool.eq_false_or_eq_true s.serialPortHandler with hhandler | hhandler
    · simp only [hhandler, Bool.not_true, Bool.false_eq_true, if_false, if_true]
      cases messageInvalid with
      | true => rfl
      | false =>
        rw [if_neg Bool.false_ne_true, if_neg Bool.false_ne_true, andThen_apply,
          Preparation.finish_append, ← interpretValidFrame_eq]
        rfl
    · simp only [hhandler, Bool.not_false, Bool.false_eq_true, if_false, if_true]
      rfl
  · simp only [hstarted, Bool.not_false, if_true]
    rfl

theorem handle_eq (e : Event) (s : ProtocolState) : handle e s = (prepare e s).finish := by
  cases e with
  | internal e => exact handleLocal_eq e s
  | frame buffer messageInvalid => exact interpretDeserializedFrame_eq buffer messageInvalid s

theorem handle_aliveState (e : Event) (s : ProtocolState) :
    (handle e s).1.aliveState = (prepare e s).state.aliveState := by
  rw [handle_eq, Preparation.finish]
  split_ifs
  · exact IgnoresAliveState.opportunityForTransmission.keeps _
  · rfl

end

end Hdlcd.ProtocolState
