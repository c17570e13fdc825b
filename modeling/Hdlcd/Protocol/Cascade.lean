import Hdlcd.Protocol.Handlers

/-! The outcomes of `OpportunityForTransmission`, one for each step of its cascade. What
is proved of every outcome holds after the call. -/

namespace Hdlcd.ProtocolState
open Reactive Action FrameGenerator

section
variable {s : ProtocolState} {front : Payload}

theorem sendUnreliable_nil (h : s.waitQueueUnreliable = []) :
    sendUnreliable s = queryWaitQueues s := by
  rw [sendUnreliable, h]

theorem sendUnreliable_cons {rest : List Payload} (h : s.waitQueueUnreliable = front :: rest) :
    sendUnreliable s =
      withSerialPortHandler
        ((emit [.deliverBufferToClients .payload front false false true]).andThen
          ((update fun s => { s with waitQueueUnreliable := rest }).andThen
            (transmitFrame (prepareUFrameUI front)))) s := by
  rw [sendUnreliable, h]

theorem sendReliable_iFrame {rest : List Payload} (h : s.waitQueueReliable = front :: rest)
    (hfree : s.waitForAck = false ∧ s.peerStoppedFlow = false) :
    sendReliable s = sendIFrame front s := by
  rw [sendReliable, h, hfree.1, hfree.2]
  rfl

theorem sendReliable_blocked
    (h : s.waitQueueReliable = [] ∨ s.waitForAck = true ∨ s.peerStoppedFlow = true) :
    sendReliable s = sendAck s := by
  unfold sendReliable
  split
  · rename_i hq
    rw [hq] at h
    have hno : ¬ (!s.waitForAck && !s.peerStoppedFlow) = true := by
      rcases h with h | h | h
      · exact absurd h (List.cons_ne_nil _ _)
      · simp [h]
      · simp [h]
    exact if_neg hno
  · rfl

theorem sendOutstanding_nil (h : s.srejs = []) : sendOutstanding s = sendReliable s := by
  rw [sendOutstanding, h]

theorem sendOutstanding_cons {front : UInt8} {rest : List UInt8} (h : s.srejs = front :: rest) :
    sendOutstanding s =
      withSerialPortHandler (transmitFrame (prepareSFrameSREJ front)) { s with srejs := rest } := by
  rw [sendOutstanding, h]

end

def IsCopy : Effect → Prop
  | .deliverIfRequired .. | .deliverBufferToClients .. => True
  | _ => False

def Transmits (f : HdlcFrame) (xs : List Effect) : Prop :=
  ∃ copies buffer, xs = copies ++ [.transmitHDLCFrame f buffer] ∧
    serializeFrame f = some buffer ∧ ∀ x ∈ copies, IsCopy x

def Sends (P : Assertion ProtocolState Effect) (f : HdlcFrame) (s : ProtocolState)
    (o : List Effect) : Prop :=
  ∀ xs, Transmits f xs → P { s with awaitsNextHDLCFrame := false } (o ++ xs)

/-- The cascade is entered, and no probe is due. -/
structure Open (s : ProtocolState) : Prop where
  awaits : s.awaitsNextHDLCFrame = true
  probe : s.sendProbe = false
  alive : s.aliveState.isAlive = true

/-- No SREJ and no I-frame is sent. -/
structure Passes (s : ProtocolState) : Prop extends Open s where
  srejs : s.srejs = []
  reliable : s.waitQueueReliable = [] ∨ s.waitForAck = true ∨ s.peerStoppedFlow = true

def Unacknowledged (s t : ProtocolState) : Prop :=
  Passes s ∧ (s.peerStoppedFlowNew = true ∧ t = startRnrTimer { s with peerStoppedFlowNew := false } ∨
    s.peerStoppedFlowNew = false ∧ s.peerRequiresAck = false ∧ t = s)

structure Outcome (P : Assertion ProtocolState Effect) (s : ProtocolState) (o : List Effect) : Prop where
  silent : s.awaitsNextHDLCFrame = false ∨ s.sendProbe = false ∧ s.aliveState.isAlive = false → P s o
  fault : s.awaitsNextHDLCFrame = true → s.sendProbe = true → s.serialPortHandler = false →
    P { s with sendProbe := false } (o ++ [.fault .nullSerialPortHandler])
  probe : s.awaitsNextHDLCFrame = true → s.sendProbe = true → s.serialPortHandler = true →
    Sends P prepareUFrameTEST { s with sendProbe := false } o
  srej : ∀ front rest, Open s → s.srejs = front :: rest →
    Sends P (prepareSFrameSREJ front) { s with srejs := rest } o
  iFrame : ∀ front rest, Open s → s.srejs = [] → s.waitQueueReliable = front :: rest →
    s.waitForAck = false → s.peerStoppedFlow = false →
    Sends P (s.prepareIFrame front)
      { s with waitForAck := true, peerRequiresAck := false, timer := s.timer.asyncWait .retransmission } o
  poll : Passes s → s.peerStoppedFlowNew = false → s.peerRequiresAck = true →
    s.peerStoppedFlow = true → s.peerStoppedFlowQueried = false →
    Sends P { s.prepareSFrameRR with pf := true }
      (startRnrTimer { s with peerRequiresAck := false, peerStoppedFlowQueried := true }) o
  rr : Passes s → s.peerStoppedFlowNew = false → s.peerRequiresAck = true →
    (s.peerStoppedFlow = true → s.peerStoppedFlowQueried = true) →
    Sends P s.prepareSFrameRR { s with peerRequiresAck := false } o
  uiFrame : ∀ t front rest, Unacknowledged s t → t.waitQueueUnreliable = front :: rest →
    Sends P (prepareUFrameUI front) { t with waitQueueUnreliable := rest } o
  query : ∀ t, Unacknowledged s t → t.waitQueueUnreliable = [] →
    t.waitQueueReliable = [] ∨ t.peerStoppedFlow = true →
    P t (o ++ [.queryForPayload (t.waitQueueReliable.isEmpty && !t.peerStoppedFlow) true])
  idle : ∀ t, Unacknowledged s t → t.waitQueueUnreliable = [] → t.waitQueueReliable ≠ [] →
    t.peerStoppedFlow = false → P t o

section
variable {P : Assertion ProtocolState Effect} {s : ProtocolState} {o : List Effect}

theorem Sends.transmitFrame {f : HdlcFrame} (hc : (controlField f).isSome) (h : Sends P f s o) :
    (transmitFrame f).wp P s o := by
  obtain ⟨buffer, hbuffer⟩ := exists_serializeFrame hc
  unfold wp
  rw [transmitFrame_eq hbuffer]
  refine h _ ⟨[_, _], buffer, rfl, hbuffer, ?_⟩
  intro x hx
  simp only [List.mem_cons, List.not_mem_nil, or_false] at hx
  rcases hx with rfl | rfl <;> trivial

theorem Sends.copied {f : HdlcFrame} {x : Effect} (hx : IsCopy x) (h : Sends P f s o) :
    Sends P f s (o ++ [x]) := by
  rintro xs ⟨copies, buffer, rfl, hbuffer, hcopies⟩
  rw [List.append_assoc]
  refine h _ ⟨x :: copies, buffer, rfl, hbuffer, fun y hy => ?_⟩
  rcases List.mem_cons.mp hy with rfl | hy
  · exact hx
  · exact hcopies y hy

theorem withSerialPortHandler_wp {a : Act} (hhandler : s.serialPortHandler = true) (h : a.wp P s o) :
    (withSerialPortHandler a).wp P s o := by
  refine wp_branch (fun _ => h) fun hnull => ?_
  exact absurd hhandler (by rw [hnull]; decide)

namespace Outcome

theorem of_free (hbusy : ∀ t o, t.awaitsNextHDLCFrame = false → P t o)
    (hhandler : s.aliveState.isAlive = true → s.serialPortHandler = true)
    (hdead : ∀ t o, t.aliveState.isAlive = false → P t o)
    (hquery : ∀ t, Unacknowledged s t → t.waitQueueUnreliable = [] →
      t.waitQueueReliable = [] ∨ t.peerStoppedFlow = true →
      P t (o ++ [.queryForPayload (t.waitQueueReliable.isEmpty && !t.peerStoppedFlow) true]))
    (hidle : ∀ t, Unacknowledged s t → t.waitQueueUnreliable = [] → t.waitQueueReliable ≠ [] →
      t.peerStoppedFlow = false → P t o) : Outcome P s o where
  silent h := h.elim (hbusy _ _) fun hd => hdead _ _ hd.2
  fault _ _ hnull := by
    refine hdead _ _ (Bool.eq_false_of_not_eq_true fun halive => ?_)
    rw [hhandler halive] at hnull
    exact absurd hnull.symm Bool.false_ne_true
  probe _ _ _ _ _ := hbusy _ _ rfl
  srej _ _ _ _ _ _ := hbusy _ _ rfl
  iFrame _ _ _ _ _ _ _ _ _ := hbusy _ _ rfl
  poll _ _ _ _ _ _ _ := hbusy _ _ rfl
  rr _ _ _ _ _ _ := hbusy _ _ rfl
  uiFrame _ _ _ _ _ _ _ := hbusy _ _ rfl
  query := hquery
  idle := hidle

theorem queryWaitQueues (h : Outcome P s o) {t : ProtocolState} (ht : Unacknowledged s t)
    (hhandler : t.serialPortHandler = true) (hq : t.waitQueueUnreliable = []) :
    queryWaitQueues.wp P t o := by
  have hcall (hopen : t.waitQueueReliable = [] ∨ t.peerStoppedFlow = true) := h.query t ht hq hopen
  have hidle := h.idle t ht hq
  unfold wp ProtocolState.queryWaitQueues
  dsimp only
  rw [hq, List.isEmpty_nil, Bool.true_and]
  cases hr : t.waitQueueReliable with
  | nil =>
    have hquery := hcall (.inl hr)
    rw [hr] at hquery
    rw [Bool.true_and, List.isEmpty_nil, Bool.true_or, Bool.or_true, if_pos rfl]
    exact withSerialPortHandler_wp (o := o) hhandler hquery
  | cons front rest =>
    cases hflow : t.peerStoppedFlow with
    | true =>
      have hquery := hcall (.inr hflow)
      rw [hr, hflow] at hquery
      exact withSerialPortHandler_wp (o := o) hhandler hquery
    | false =>
      have hdone := hidle (by rw [hr]; exact List.cons_ne_nil _ _) hflow
      rw [if_neg (by simp), List.append_nil]
      exact hdone

theorem sendUnreliable (h : Outcome P s o) {t : ProtocolState} (ht : Unacknowledged s t)
    (hhandler : t.serialPortHandler = true) : sendUnreliable.wp P t o := by
  cases hq : t.waitQueueUnreliable with
  | nil => exact wp_of_eq (sendUnreliable_nil hq) (h.queryWaitQueues ht hhandler hq)
  | cons front rest =>
    refine wp_of_eq (sendUnreliable_cons hq) (withSerialPortHandler_wp hhandler ?_)
    simp only [wp_andThen, wp_emit, wp_update]
    exact Sends.transmitFrame rfl (.copied trivial (h.uiFrame t front rest ht hq))

theorem sendAck (h : Outcome P s o) (hs : Passes s) (hhandler : s.serialPortHandler = true) :
    sendAck.wp P s o := by
  apply wp_branch
  · intro hnew
    rw [wp_andThen, wp_update]
    exact h.sendUnreliable ⟨hs, .inl ⟨hnew, rfl⟩⟩ hhandler
  · intro hold
    apply wp_branch
    · intro hack
      unfold wp sendRR
      dsimp only
      split_ifs with hpoll
      · rw [Bool.and_eq_true, Bool.not_eq_true'] at hpoll
        refine withSerialPortHandler_wp (o := o) (s := startRnrTimer _) hhandler ?_
        exact (h.poll hs hold hack hpoll.1 hpoll.2).transmitFrame rfl
      · have hqueried (hflow : s.peerStoppedFlow = true) : s.peerStoppedFlowQueried = true := by
          rw [Bool.and_eq_true, Bool.not_eq_true', not_and] at hpoll
          exact Bool.eq_true_of_not_eq_false (hpoll hflow)
        refine withSerialPortHandler_wp (o := o) (s := { s with peerRequiresAck := false }) hhandler ?_
        exact (h.rr hs hold hack hqueried).transmitFrame rfl
    · intro hack
      exact h.sendUnreliable ⟨hs, .inr ⟨hold, hack, rfl⟩⟩ hhandler

theorem sendReliable (h : Outcome P s o) (hs : Open s) (hsrejs : s.srejs = [])
    (hhandler : s.serialPortHandler = true) : sendReliable.wp P s o := by
  by_cases hblocked : s.waitQueueReliable = [] ∨ s.waitForAck = true ∨ s.peerStoppedFlow = true
  · exact wp_of_eq (sendReliable_blocked hblocked) (h.sendAck ⟨hs, hsrejs, hblocked⟩ hhandler)
  · simp only [not_or, Bool.not_eq_true] at hblocked
    obtain ⟨front, rest, hq⟩ := List.exists_cons_of_ne_nil hblocked.1
    refine wp_of_eq (sendReliable_iFrame hq hblocked.2) ?_
    unfold wp sendIFrame
    apply withSerialPortHandler_wp (o := o) hhandler
    simp only [wp_andThen, wp_emit, wp_update]
    exact Sends.transmitFrame rfl
      (.copied trivial (h.iFrame front rest hs hsrejs hq hblocked.2.1 hblocked.2.2))

theorem opportunityForTransmission (h : Outcome P s o)
    (hhandler : s.aliveState.isAlive = true → s.serialPortHandler = true) :
    opportunityForTransmission.wp P s o := by
  apply wp_branch
  · intro hbusy
    rw [Bool.not_eq_true'] at hbusy
    exact wp_skip.mpr (h.silent (.inl hbusy))
  intro hawaits
  rw [Bool.not_eq_false'] at hawaits
  apply wp_branch
  · intro hprobe
    rw [wp_andThen, wp_update]
    apply wp_branch
    · exact fun hh => (h.probe hawaits hprobe hh).transmitFrame rfl
    · exact fun hnull => wp_emit.mpr (h.fault hawaits hprobe hnull)
  intro hprobe
  apply wp_branch
  · intro halive
    have hs : Open s := ⟨hawaits, hprobe, halive⟩
    cases hsrejs : s.srejs with
    | nil => exact wp_of_eq (sendOutstanding_nil hsrejs) (h.sendReliable hs hsrejs (hhandler halive))
    | cons front rest =>
      refine wp_of_eq (sendOutstanding_cons hsrejs) (withSerialPortHandler_wp (hhandler halive) ?_)
      exact (h.srej front rest hs hsrejs).transmitFrame rfl
  · intro hdead
    exact wp_skip.mpr (h.silent (.inr ⟨hprobe, hdead⟩))

end Outcome
end

end Hdlcd.ProtocolState
