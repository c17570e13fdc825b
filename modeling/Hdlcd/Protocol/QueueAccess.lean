import Hdlcd.Protocol.Consistency

/-! The accesses to the queues of a protocol state. The cascade stands here in the shape of
the source, with its local frame, its tests for emptiness and a fault at every `front` and
`pop_front` of an empty queue. No run reaches one of these faults. -/

namespace Hdlcd.ProtocolState
open Reactive Action FrameGenerator FrameParser

abbrev Step := Action (ProtocolState × HdlcFrame) Effect

def onMembers (a : Act) : Step := fun l => (((a l.1).1, l.2), (a l.1).2)

def assign (prepared : ProtocolState → HdlcFrame) : Step := update fun l => (l.1, prepared l.1)

section
variable {α : Type} (queue : ProtocolState → List α)

def withFront (a : α → Step) : Step := fun l =>
  match queue l.1 with
  | front :: _ => a front l
  | [] => (l, [.fault .emptyQueue])

def popFront (setQueue : List α → ProtocolState → ProtocolState) : Step := fun l =>
  match queue l.1 with
  | _ :: rest => ((setQueue rest l.1, l.2), [])
  | [] => (l, [.fault .emptyQueue])

def assertFilled : Step := branch (fun l => (queue l.1).isEmpty) (emit [.fault .assertion]) skip

end

def takeProbe : Step :=
  branch (·.1.sendProbe)
    ((onMembers (update fun s => { s with sendProbe := false })).andThen
      (assign fun _ => prepareUFrameTEST)) skip

def takeSREJ : Step :=
  branch (fun l => !l.1.srejs.isEmpty)
    ((withFront (·.srejs) fun front => assign fun _ => prepareSFrameSREJ front).andThen
      (popFront (·.srejs) fun rest s => { s with srejs := rest })) skip

def takeIFrame : Step :=
  branch (fun l => l.2.isEmpty && !l.1.waitQueueReliable.isEmpty && !l.1.waitForAck && !l.1.peerStoppedFlow)
    ((assertFilled (·.waitQueueReliable)).andThen
      ((withFront (·.waitQueueReliable) fun front =>
        onMembers (withSerialPortHandler (emit [.deliverIfRequired .payload front true false true]))).andThen
      ((withFront (·.waitQueueReliable) fun front => assign fun s => s.prepareIFrame front).andThen
      (onMembers (update fun s =>
        { s with
          waitForAck := true
          peerRequiresAck := false
          timer := s.timer.asyncWait .retransmission }))))) skip

def takeRR : Step :=
  branch (fun l => l.2.isEmpty && (l.1.peerRequiresAck || l.1.peerStoppedFlowNew))
    (branch (·.1.peerStoppedFlowNew)
      (onMembers (update fun s => startRnrTimer { s with peerStoppedFlowNew := false }))
      ((assign (·.prepareSFrameRR)).andThen
      ((onMembers (update fun s => { s with peerRequiresAck := false })).andThen
      (branch (fun l => l.1.peerStoppedFlow && !l.1.peerStoppedFlowQueried)
        (update fun l =>
          (startRnrTimer { l.1 with peerStoppedFlowQueried := true }, { l.2 with pf := true }))
        skip)))) skip

def takeUI : Step :=
  branch (fun l => l.2.isEmpty && !l.1.waitQueueUnreliable.isEmpty)
    ((assertFilled (·.waitQueueUnreliable)).andThen
      ((withFront (·.waitQueueUnreliable) fun front =>
        onMembers (withSerialPortHandler (emit [.deliverBufferToClients .payload front false false true]))).andThen
      ((withFront (·.waitQueueUnreliable) fun front => assign fun _ => prepareUFrameUI front).andThen
      (popFront (·.waitQueueUnreliable) fun rest s => { s with waitQueueUnreliable := rest })))) skip

def fillQueues : Step := branch (·.2.isEmpty) (onMembers queryWaitQueues) skip

def transmit : Step :=
  branch (fun l => !l.2.isEmpty) (fun l => onMembers (withSerialPortHandler (transmitFrame l.2)) l) skip

def takeAny : Step :=
  branch (fun l => l.2.isEmpty && l.1.aliveState.isAlive)
    (takeSREJ.andThen (takeIFrame.andThen (takeRR.andThen (takeUI.andThen fillQueues)))) skip

def outcome (a : Step) (l : ProtocolState × HdlcFrame) : ProtocolState × List Effect :=
  ((a l).1.1, (a l).2)

def checkedOpportunity : Act :=
  branch (fun s => !s.awaitsNextHDLCFrame) skip fun s =>
    outcome (takeProbe.andThen (takeAny.andThen transmit)) (s, {})

section
variable {s t : ProtocolState} {f : HdlcFrame} {xs : List Effect}

theorem outcome_andThen {a : Step} {l l' : ProtocolState × HdlcFrame} (h : a l = (l', xs)) (b : Step) :
    outcome (a.andThen b) l = ((outcome b l').1, xs ++ (outcome b l').2) := by
  rw [outcome, andThen_apply, h]
  rfl

theorem outcome_passed {a : Step} {l : ProtocolState × HdlcFrame} (h : a l = (l, [])) (b : Step) :
    outcome (a.andThen b) l = outcome b l := outcome_andThen h b

theorem withSerialPortHandler_eq (hhandler : s.serialPortHandler = true) (a : Act) :
    withSerialPortHandler a s = a s := if_pos hhandler

theorem outcome_transmit (hf : f.isEmpty = false) :
    outcome transmit (s, f) = withSerialPortHandler (transmitFrame f) s := by
  simp [outcome, transmit, branch, hf, onMembers]

theorem passes_filled (hf : f.isEmpty = false) :
    takeIFrame (s, f) = ((s, f), []) ∧ takeRR (s, f) = ((s, f), []) ∧ takeUI (s, f) = ((s, f), []) ∧
      fillQueues (s, f) = ((s, f), []) := by
  simp [takeIFrame, takeRR, takeUI, fillQueues, branch, hf, skip]

def afterUI : Step := fillQueues.andThen transmit

def afterRR : Step := takeUI.andThen afterUI

def afterIFrame : Step := takeRR.andThen afterRR

def afterSREJ : Step := takeIFrame.andThen afterIFrame

theorem outcome_afterUI (hf : f.isEmpty = false) :
    outcome afterUI (s, f) = withSerialPortHandler (transmitFrame f) s :=
  (outcome_passed (passes_filled hf).2.2.2 _).trans (outcome_transmit hf)

theorem outcome_afterRR (hf : f.isEmpty = false) :
    outcome afterRR (s, f) = withSerialPortHandler (transmitFrame f) s :=
  (outcome_passed (passes_filled hf).2.2.1 _).trans (outcome_afterUI hf)

theorem outcome_afterIFrame (hf : f.isEmpty = false) :
    outcome afterIFrame (s, f) = withSerialPortHandler (transmitFrame f) s :=
  (outcome_passed (passes_filled hf).2.1 _).trans (outcome_afterRR hf)

theorem outcome_afterSREJ (hf : f.isEmpty = false) :
    outcome afterSREJ (s, f) = withSerialPortHandler (transmitFrame f) s :=
  (outcome_passed (passes_filled hf).1 _).trans (outcome_afterIFrame hf)

theorem afterUI_eq : outcome afterUI (s, {}) = queryWaitQueues s := by
  simp [outcome, afterUI, fillQueues, transmit, branch, onMembers, HdlcFrame.isEmpty, skip]

theorem afterRR_eq (hhandler : s.serialPortHandler = true) :
    outcome afterRR (s, {}) = sendUnreliable s := by
  cases hq : s.waitQueueUnreliable with
  | nil =>
    have hskip : takeUI (s, {}) = ((s, {}), []) := by simp [takeUI, branch, hq, skip]
    rw [sendUnreliable_nil hq, afterRR, outcome_passed hskip, afterUI_eq]
  | cons front rest =>
    have htake : takeUI (s, {}) = (({ s with waitQueueUnreliable := rest }, prepareUFrameUI front),
        [.deliverBufferToClients .payload front false false true]) := by
      simp [takeUI, branch, HdlcFrame.isEmpty, hq, assertFilled, withFront, popFront, assign, onMembers,
        withSerialPortHandler, hhandler, Action.emit, update, skip]
    rw [sendUnreliable_cons hq, afterRR, outcome_andThen htake, outcome_afterUI rfl,
      withSerialPortHandler_eq hhandler, withSerialPortHandler_eq (s := { s with waitQueueUnreliable := rest })
        hhandler]
    rfl

theorem afterIFrame_eq (hhandler : s.serialPortHandler = true) :
    outcome afterIFrame (s, {}) = sendAck s := by
  unfold sendAck branch
  by_cases hnew : s.peerStoppedFlowNew = true
  · have htake : takeRR (s, {}) = ((startRnrTimer { s with peerStoppedFlowNew := false }, {}), []) := by
      simp [takeRR, branch, HdlcFrame.isEmpty, hnew, onMembers, update]
    rw [if_pos hnew, afterIFrame, outcome_andThen htake,
      afterRR_eq (s := startRnrTimer { s with peerStoppedFlowNew := false }) hhandler]
    rfl
  · rw [if_neg hnew]
    by_cases hack : s.peerRequiresAck = true
    · rw [if_pos hack, sendRR]
      dsimp only
      by_cases hpoll : (s.peerStoppedFlow && !s.peerStoppedFlowQueried) = true
      · have htake : takeRR (s, {}) = ((startRnrTimer
            { s with peerRequiresAck := false, peerStoppedFlowQueried := true },
              { s.prepareSFrameRR with pf := true }), []) := by
          simp only [Bool.and_eq_true, Bool.not_eq_true'] at hpoll
          simp [takeRR, branch, HdlcFrame.isEmpty, hnew, hack, hpoll, onMembers, update, assign]
        rw [if_pos hpoll, afterIFrame, outcome_andThen htake, outcome_afterRR rfl]
        rfl
      · have htake : takeRR (s, {}) = (({ s with peerRequiresAck := false }, s.prepareSFrameRR), []) := by
          simp only [Bool.and_eq_true, Bool.not_eq_true'] at hpoll
          simp [takeRR, branch, HdlcFrame.isEmpty, hnew, hack, hpoll, onMembers, update, assign, skip]
        rw [if_neg hpoll, afterIFrame, outcome_andThen htake, outcome_afterRR rfl]
        rfl
    · have hskip : takeRR (s, {}) = ((s, {}), []) := by
        simp [takeRR, branch, hnew, hack, skip]
      rw [if_neg hack, afterIFrame, outcome_passed hskip, afterRR_eq hhandler]

theorem afterSREJ_eq (hhandler : s.serialPortHandler = true) :
    outcome afterSREJ (s, {}) = sendReliable s := by
  by_cases hblocked : s.waitQueueReliable = [] ∨ s.waitForAck = true ∨ s.peerStoppedFlow = true
  · have hskip : takeIFrame (s, {}) = ((s, {}), []) := by
      rcases hblocked with h | h | h <;> simp [takeIFrame, branch, h, skip]
    rw [sendReliable_blocked hblocked, afterSREJ, outcome_passed hskip, afterIFrame_eq hhandler]
  · simp only [not_or, Bool.not_eq_true] at hblocked
    obtain ⟨front, rest, hq⟩ := List.exists_cons_of_ne_nil hblocked.1
    have htake : takeIFrame (s, {}) = (({ s with
        waitForAck := true
        peerRequiresAck := false
        timer := s.timer.asyncWait .retransmission }, s.prepareIFrame front),
          [.deliverIfRequired .payload front true false true]) := by
      simp [takeIFrame, branch, HdlcFrame.isEmpty, hq, hblocked, assertFilled, withFront, assign, onMembers,
        withSerialPortHandler, hhandler, Action.emit, update, skip]
    rw [sendReliable_iFrame hq hblocked.2, sendIFrame, withSerialPortHandler_eq hhandler, afterSREJ,
      outcome_andThen htake, outcome_afterIFrame rfl, withSerialPortHandler_eq (s := { s with
        waitForAck := true
        peerRequiresAck := false
        timer := s.timer.asyncWait .retransmission }) hhandler]
    rfl

theorem takeAny_eq (halive : s.aliveState.isAlive = true) (hhandler : s.serialPortHandler = true) :
    outcome (takeAny.andThen transmit) (s, {}) = sendOutstanding s := by
  have hopen : takeAny (s, {}) = (takeSREJ.andThen (takeIFrame.andThen (takeRR.andThen
      (takeUI.andThen fillQueues)))) (s, {}) := by
    simp [takeAny, branch, HdlcFrame.isEmpty, halive]
  have hchain : outcome (takeAny.andThen transmit) (s, {}) = outcome (takeSREJ.andThen afterSREJ) (s, {}) := by
    rw [outcome, andThen_apply, hopen]
    simp only [outcome, afterSREJ, afterIFrame, afterRR, afterUI, andThen_apply, List.append_assoc]
  rw [hchain]
  cases hsrejs : s.srejs with
  | nil =>
    have hskip : takeSREJ (s, {}) = ((s, {}), []) := by simp [takeSREJ, branch, hsrejs, skip]
    rw [sendOutstanding_nil hsrejs, outcome_passed hskip, afterSREJ_eq hhandler]
  | cons front rest =>
    have htake : takeSREJ (s, {}) = (({ s with srejs := rest }, prepareSFrameSREJ front), []) := by
      simp [takeSREJ, branch, hsrejs, withFront, popFront, assign, update]
    rw [sendOutstanding_cons hsrejs, outcome_andThen htake, outcome_afterSREJ rfl]
    rfl

theorem checkedOpportunity_eq (hhandler : s.aliveState.isAlive = true → s.serialPortHandler = true) :
    checkedOpportunity s = opportunityForTransmission s := by
  unfold checkedOpportunity opportunityForTransmission
  by_cases hbusy : (!s.awaitsNextHDLCFrame) = true
  · simp only [branch, hbusy, if_true]
  simp only [branch, hbusy]
  by_cases hprobe : s.sendProbe = true
  · have htake : takeProbe (s, {}) = (({ s with sendProbe := false }, prepareUFrameTEST), []) := by
      simp [takeProbe, branch, hprobe, onMembers, update, assign]
    have hpass : takeAny ({ s with sendProbe := false }, prepareUFrameTEST) =
        (({ s with sendProbe := false }, prepareUFrameTEST), []) := rfl
    rw [if_pos hprobe, outcome_andThen htake, outcome_passed hpass, outcome_transmit rfl]
    rfl
  · have hskip : takeProbe (s, {}) = ((s, {}), []) := by simp [takeProbe, branch, hprobe, skip]
    rw [if_neg hprobe, outcome_passed hskip]
    by_cases halive : s.aliveState.isAlive = true
    · rw [if_pos halive, takeAny_eq halive (hhandler halive)]
    · have hdead : takeAny (s, {}) = ((s, {}), []) := by simp [takeAny, branch, halive, skip]
      rw [if_neg halive, outcome_passed hdead]
      rfl

end

/-- The event with the checked cascade in the place of the other one. -/
def checkedHandle (e : Event) : Act := fun s =>
  let p := prepare e s
  if p.opportunity then
    ((checkedOpportunity p.state).1, p.effects ++ (checkedOpportunity p.state).2)
  else (p.state, p.effects)

theorem checkedHandle_eq {s : ProtocolState} (h : Consistent s) (e : Event) :
    checkedHandle e s = handle e s := by
  rw [handle_eq, checkedHandle, Preparation.finish]
  rw [checkedOpportunity_eq fun halive => ((h.prepare e).running halive).2]

theorem checkedRun_eq {s : ProtocolState} (h : Consistent s) (es : List Event) :
    run checkedHandle es s = run handle es s := by
  induction es generalizing s with
  | nil => rfl
  | cons e es ih =>
    rw [run, run, andThen_apply, andThen_apply, checkedHandle_eq h, ih (h.handle e)]

def NeverEmpty (xs : List Effect) : Prop := .fault .emptyQueue ∉ xs

theorem NeverEmpty.append {xs ys : List Effect} (hx : NeverEmpty xs) (hy : NeverEmpty ys) :
    NeverEmpty (xs ++ ys) := fun hmem => (List.mem_append.mp hmem).elim hx hy

theorem neverEmpty_of_forall {xs : List Effect} (h : ∀ x ∈ xs, x ≠ .fault .emptyQueue) :
    NeverEmpty xs := fun hmem => h _ hmem rfl

section
variable {s : ProtocolState} {o : List Effect}

def Untouched : Assertion ProtocolState Effect := fun _ o => NeverEmpty o

theorem Transmits.neverEmpty {f : HdlcFrame} {xs : List Effect} (h : Transmits f xs) : NeverEmpty xs := by
  obtain ⟨copies, buffer, rfl, _, hcopies⟩ := h
  apply neverEmpty_of_forall
  rintro x hx rfl
  rcases List.mem_append.mp hx with hcopy | hlast
  · exact hcopies _ hcopy
  · exact absurd (List.mem_singleton.mp hlast) (by simp)

theorem NeverEmpty.sends (ho : NeverEmpty o) {f : HdlcFrame} : Sends Untouched f s o :=
  fun _ hxs => ho.append hxs.neverEmpty

theorem NeverEmpty.concat (ho : NeverEmpty o) {x : Effect} (hx : x ≠ .fault .emptyQueue) :
    NeverEmpty (o ++ [x]) := by
  apply ho.append
  apply neverEmpty_of_forall
  intro y hy
  rwa [List.mem_singleton.mp hy]

theorem NeverEmpty.outcome (ho : NeverEmpty o) : Outcome Untouched s o where
  silent _ := ho
  fault _ _ _ := ho.concat (by simp)
  probe _ _ _ := ho.sends
  srej _ _ _ _ := ho.sends
  iFrame _ _ _ _ _ _ _ := ho.sends
  poll _ _ _ _ _ := ho.sends
  rr _ _ _ _ := ho.sends
  uiFrame _ _ _ _ _ := ho.sends
  query _ _ _ _ := ho.concat (by simp)
  idle _ _ _ _ _ := ho

def Fed (s : ProtocolState) : Prop := s.waitForAck = true → s.waitQueueReliable ≠ []

theorem popFrontReliable_neverEmpty {t : ProtocolState} (hfed : t.waitQueueReliable ≠ [])
    (ho : NeverEmpty o) : popFrontReliable.wp Untouched t o :=
  popFrontReliable_wp (fun _ _ _ => ho.concat (by simp)) fun hempty => absurd hempty hfed

theorem acknowledge_neverEmpty (hfed : Fed s) (ho : NeverEmpty o) {f : HdlcFrame} :
    (acknowledge f).wp Untouched s o := by
  simp only [acknowledge, wp_andThen, wp_update]
  split_ifs with hclear
  · refine wp_branch (fun hpop => ?_) fun _ => wp_skip.mpr (wp_update.mpr ho)
    simp [clearRnrCondition] at hpop
  · refine wp_branch (fun hpop => ?_) fun _ => wp_skip.mpr (wp_update.mpr ho)
    rw [Bool.and_eq_true] at hpop
    rw [wp_andThen, wp_update]
    exact wp_mono (popFrontReliable_neverEmpty (t := s.stopWaiting) (hfed hpop.1) ho) fun _ _ h => wp_update.mpr h

theorem receiveNotReady_neverEmpty (hfed : Fed s) (ho : NeverEmpty o) {f : HdlcFrame} :
    (receiveNotReady f).wp Untouched s o := by
  obtain ⟨_, hwait, hqueue, _⟩ := enterRnrCondition_members s
  simp only [receiveNotReady, wp_andThen, wp_update]
  refine wp_branch (fun hwaits => ?_) fun _ => wp_skip.mpr (wp_update.mpr ho)
  rw [wp_andThen, wp_update]
  refine wp_branch (fun _ => ?_) fun _ => wp_skip.mpr (wp_update.mpr ho)
  have hfed' : s.enterRnrCondition.stopWaiting.waitQueueReliable ≠ [] :=
    hqueue ▸ hfed (hwait.symm.trans hwaits)
  exact wp_mono (popFrontReliable_neverEmpty hfed' ho) fun _ _ h => wp_update.mpr h

theorem checkAcks_neverEmpty (hfed : Fed s) (f : HdlcFrame) : NeverEmpty (checkAcks f s).2 := by
  have hnone : NeverEmpty [] := List.not_mem_nil
  have hwp : (checkAcks f).wp Untouched s [] := by
    unfold checkAcks
    split
    · exact acknowledge_neverEmpty hfed hnone
    · exact acknowledge_neverEmpty hfed hnone
    · exact receiveNotReady_neverEmpty hfed hnone
    · exact hnone
    · exact hnone
    · exact hnone
  exact hwp

theorem frameReceived_neverEmpty (s : ProtocolState) : NeverEmpty (frameReceived s).2 := by
  unfold frameReceived
  dsimp only
  split_ifs <;> simp [NeverEmpty]

theorem receivePayload_neverEmpty (f : HdlcFrame) (s : ProtocolState) :
    NeverEmpty (receivePayload f s).2 := by
  unfold receivePayload
  split_ifs <;> simp [NeverEmpty, Action.emit, update, skip]

theorem memberCall_neverEmpty (s : ProtocolState) :
    NeverEmpty (s.memberCall [.propagateSerialPortState]) := by
  unfold memberCall
  split_ifs <;> simp [NeverEmpty]

theorem prepareLocal_neverEmpty (e : LocalEvent) (s : ProtocolState) :
    NeverEmpty (prepareLocal e s).effects := by
  have hprepared := prepared e s
  generalize prepareLocal e s = p at hprepared
  cases hprepared with
  | stop => exact memberCall_neverEmpty s
  | stateTimer a halive hprobe effects heffects =>
    apply neverEmpty_of_forall
    intro x hx
    rw [heffects x hx]
    simp
  | probe =>
    unfold prepareProbeTimer
    dsimp only
    split_ifs <;> simp [NeverEmpty]
  | _ => exact List.not_mem_nil

theorem prepareFrame_neverEmpty (hfed : Fed s) (buffer : List UInt8) (messageInvalid : Bool) :
    NeverEmpty (prepareFrame buffer messageInvalid s).effects := by
  have hcopies (messageInvalid : Bool) : NeverEmpty (frameCopies buffer messageInvalid) := by
    simp [NeverEmpty, frameCopies]
  have hfed' : Fed (afterReceive (deserializeFrame buffer) s) := hfed
  unfold prepareFrame
  split_ifs
  · exact List.not_mem_nil
  · simp [NeverEmpty]
  · exact hcopies true
  · apply (hcopies false).append
    apply (frameReceived_neverEmpty s).append
    exact (receivePayload_neverEmpty _ _).append (checkAcks_neverEmpty hfed' _)

theorem handle_neverEmpty (h : Consistent s) (e : Event) : NeverEmpty (handle e s).2 := by
  have hprepared : NeverEmpty (prepare e s).effects := by
    cases e with
    | internal e => exact prepareLocal_neverEmpty e s
    | frame buffer messageInvalid =>
      exact prepareFrame_neverEmpty (fun hwait => (h.waiting hwait).2.1) buffer messageInvalid
  rw [handle_eq, Preparation.finish]
  split_ifs
  · have hopportunity := hprepared.outcome.opportunityForTransmission
      fun halive => ((h.prepare e).running halive).2
    exact hopportunity
  · exact hprepared

end

/-- What the guards of the queue accesses rely on. -/
structure Guarded (s : ProtocolState) : Prop where
  waiting : s.waitForAck = true → s.waitQueueReliable ≠ []
  flow : s.peerStoppedFlow = true → s.waitForAck = false
  stopped : s.started = false →
    s.waitForAck = false ∧ s.peerStoppedFlow = false ∧ s.aliveState.isAlive = false

theorem Consistent.guarded {s : ProtocolState} (h : Consistent s) : Guarded s where
  waiting hwait := (h.waiting hwait).2.1
  flow hflow := by
    by_contra hwait
    rw [Bool.not_eq_false] at hwait
    rw [(h.waiting hwait).2.2] at hflow
    exact Bool.false_ne_true hflow
  stopped hstopped := by
    have hno : ¬ s.started = true := by simp [hstopped]
    refine ⟨?_, ?_, ?_⟩ <;> apply Bool.eq_false_of_not_eq_true
    · exact fun hwait => hno (h.waiting hwait).1
    · exact fun hflow => hno (h.flow hflow)
    · exact fun halive => hno (h.running halive).1

/-- In every run the guards hold, and with every `front` and `pop_front` checked the run is
the same and meets no empty queue. -/
theorem queues_guarded (es : List Event) :
    Guarded (run handle es initial).1 ∧ run checkedHandle es initial = run handle es initial ∧
      .fault .emptyQueue ∉ (run checkedHandle es initial).2 := by
  refine ⟨(Consistent.run es).guarded, checkedRun_eq .initial es, ?_⟩
  rw [checkedRun_eq .initial es]
  have hsafe : (run handle es).wp (fun s o => Consistent s ∧ NeverEmpty o) initial [] := by
    apply wp_run _ ⟨.initial, List.not_mem_nil⟩
    rintro e _ s o ⟨hs, ho⟩
    exact ⟨hs.handle e, ho.append (handle_neverEmpty hs e)⟩
  exact hsafe.2

end Hdlcd.ProtocolState
