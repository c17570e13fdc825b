import Hdlcd.Protocol.Consistency

/-! During the RNR condition somebody has the duty to query the peer: the flag of a new
condition, the wait on the timer, or an RR that is due. -/

namespace Hdlcd.ProtocolState
open Reactive Action FrameGenerator FrameParser

def Polls (s : ProtocolState) : Prop :=
  s.peerStoppedFlowNew = true ∨ s.timer.Armed .rnrPoll ∨
    s.peerRequiresAck = true ∧ s.peerStoppedFlowQueried = false

def Polled (s : ProtocolState) : Prop := s.peerStoppedFlow = true → Polls s

def StaysPolled : Assertion ProtocolState Effect := fun s _ => Polled s

namespace Polled

variable {s t : ProtocolState} {o : List Effect}

theorem of_flowing (h : s.peerStoppedFlow = false) : Polled s := by
  intro hflow
  rw [h] at hflow
  exact absurd hflow Bool.false_ne_true

theorem startRnrTimer (s : ProtocolState) : Polled (startRnrTimer s) :=
  fun _ => .inr (.inl (DeadlineTimer.armed_asyncWait _ _))

theorem unacknowledged (h : Polled s) (ht : Unacknowledged s t) : Polled t := by
  obtain ⟨_, ⟨_, rfl⟩ | ⟨_, _, rfl⟩⟩ := ht
  · exact startRnrTimer _
  · exact h

theorem outcome (h : Polled s) : Outcome StaysPolled s o where
  silent _ := h
  fault _ _ _ := h
  probe _ _ _ _ _ := h
  srej _ _ _ _ _ _ := h
  iFrame _ _ _ _ _ _ hflow _ _ := of_flowing hflow
  poll _ _ _ _ _ _ _ := startRnrTimer _
  rr _ hnew _ hqueried _ _ := by
    intro hflow
    -- the peer was queried before, so the duty lies with the timer
    rcases h hflow with hn | harmed | ⟨_, hq⟩
    · rw [hnew] at hn
      exact absurd hn Bool.false_ne_true
    · exact .inr (.inl harmed)
    · rw [hqueried hflow] at hq
      exact absurd hq.symm Bool.false_ne_true
  uiFrame _ _ _ ht _ _ _ := by
    have ht' := h.unacknowledged ht
    exact ht'
  query _ ht _ _ := h.unacknowledged ht
  idle _ ht _ _ _ := h.unacknowledged ht

theorem opportunity (h : Polled s) (hs : Consistent s) :
    Polled (opportunityForTransmission s).1 :=
  (h.outcome (o := [])).opportunityForTransmission fun halive => (hs.running halive).2

theorem prepareLocal (h : Polled s) {e : LocalEvent} {p : Preparation} (hp : Prepared s e p) :
    Polled p.state := by
  cases hp with
  | start | stop | shutdown => exact of_flowing rfl
  | sendPayload payload reliable => cases reliable <;> exact h
  | trigger | stateTimer | probeExpire | probe | ignored => exact h
  | expire => exact fun hflow => (h hflow).imp_right (Or.imp_left DeadlineTimer.Armed.expire)
  | retransmission =>
    intro hflow
    exact (h hflow).imp_right (Or.imp_left fun harmed => harmed.complete (by decide))
  | rnrPoll => exact fun _ => .inr (.inr ⟨rfl, rfl⟩)
  | rnrOver _ hflow => exact of_flowing hflow

theorem afterReceive (h : Polled s) (f : HdlcFrame) : Polled (afterReceive f s) := by
  intro hflow
  refine (h hflow).imp_right (Or.imp_right fun hdue => ⟨?_, hdue.2⟩)
  show (if f.hasPayload && f.isIFrame then s.advanceWindow f.sSeq else s).peerRequiresAck = true
  split_ifs
  · rfl
  · exact hdue.1

theorem acked {f : HdlcFrame} (h : Polled s) (hs : Consistent s) (ht : Acked f s t) : Polled t := by
  have hsame := ht.same
  simp only [unacknowledgedMembers, Prod.mk.injEq] at hsame
  obtain ⟨_, _, _, _, hack, _⟩ := hsame
  intro hstop
  rcases ht.flow hstop with ⟨_, hnew⟩ | ⟨hstop', hnew, hqueried, htimer⟩
  · exact .inl hnew
  · -- no I-frame is outstanding in the RNR condition, so the timer is left alone
    have hidle : s.waitForAck = false := by
      by_contra hwait
      have hflow := (hs.waiting (Bool.eq_true_of_not_eq_false hwait)).2.2
      rw [hflow] at hstop'
      exact absurd hstop' Bool.false_ne_true
    unfold Polls
    rw [hnew, htimer hidle, hack, hqueried]
    exact h hstop'

theorem prepare (h : Polled s) (hs : Consistent s) (e : Event) : Polled (prepare e s).state := by
  cases e with
  | internal e => exact h.prepareLocal (prepared e s)
  | frame buffer messageInvalid =>
    unfold ProtocolState.prepare prepareFrame
    dsimp only
    split_ifs with hstarted hhandler
    · exact h
    · exact h
    · exact h
    · simp only [Bool.not_eq_true', Bool.not_eq_false] at hstarted hhandler
      exact (h.afterReceive _).acked (hs.afterReceive hstarted hhandler _) (checkAcks_acked _ _)

theorem handle (h : Polled s) (hs : Consistent s) (e : Event) : Polled (handle e s).1 := by
  rw [handle_eq, Preparation.finish]
  split_ifs
  · exact (h.prepare hs e).opportunity (hs.prepare e)
  · exact h.prepare hs e

end Polled

/-- A peer that stopped the flow keeps being polled. -/
theorem stopped_flow_polled (es : List Event) :
    let s := (run handle es initial).1
    s.peerStoppedFlow = true →
      s.peerStoppedFlowNew = true ∨ s.timer.Armed .rnrPoll ∨
        s.peerRequiresAck = true ∧ s.peerStoppedFlowQueried = false := by
  have hrun := run_invariant handle (C := fun _ _ => True)
    (I := fun s => Consistent s ∧ Polled s) (fun s e _ h => ⟨h.1.handle e, h.2.handle h.1 e⟩)
    ⟨Consistent.initial, Polled.of_flowing rfl⟩
    (along_of_forall handle (fun _ (_ : _ ∈ es) _ => trivial) initial)
  exact hrun.2

/-- The RNR condition is entered while the link is idle, and the poll takes the timer. -/
def stoppedRun : List Event :=
  [.internal .start, .internal .triggerNextHDLCFrame,
    received { address := 0x30, hdlcFrameType := .sRNR, rSeq := 0 }]

theorem stopped_flow_polled_rnr :
    (run handle stoppedRun initial).1.timer.Armed .rnrPoll := by
  have hpolled := stopped_flow_polled stoppedRun (by decide +kernel)
  have hnew : (run handle stoppedRun initial).1.peerStoppedFlowNew = false := by decide +kernel
  have hack : (run handle stoppedRun initial).1.peerRequiresAck = false := by decide +kernel
  simpa [hnew, hack] using hpolled

end Hdlcd.ProtocolState
