import Hdlcd.Library.Reachability
import Hdlcd.Link.Flowing
import Hdlcd.Link.NoLoss
import Hdlcd.Protocol.Ledger

/-! The link does not come to a standstill. Whatever has happened, while both sides are alive
there is always a way on that loses nothing more and after which A has no reliable payload left. -/

namespace Hdlcd.Link
open Reactive Action FrameGenerator FrameParser Framing
open ProtocolState hiding handle history initial Settled

/-- The submitted payloads get through, and the alive states change as the entities have it. -/
def Genuine : LinkEvent → Prop
  | .a event | .b event => Ordinary (.internal event)
  | .aliveA _ | .aliveB _ => False
  | _ => True

instance : ∀ e, Decidable (Genuine e)
  | .a event | .b event => inferInstanceAs (Decidable (Ordinary (.internal event)))
  | .aliveA _ | .aliveB _ => isFalse id
  | .deliverToA | .deliverToB | .dropAB _ | .dropBA _ => isTrue trivial

/-- Frames arrive, frames that are being written are done, and A waits in vain for an
acknowledgement. Nothing is lost or submitted. -/
def Undisturbed (l : Link) : LinkEvent → Prop
  | .deliverToA => ∃ buffer rest, l.ba = buffer :: rest ∧ buffer.length ≤ maxLength
  | .deliverToB => ∃ buffer rest, l.ab = buffer :: rest ∧ buffer.length ≤ maxLength
  | .a .triggerNextHDLCFrame => l.a.awaitsNextHDLCFrame = false
  | .b .triggerNextHDLCFrame => l.b.awaitsNextHDLCFrame = false
  | .a .timerExpires => l.a.timer.pending = some .retransmission
  | .a (.timerHandler .retransmission) => .retransmission ∈ l.a.timer.queued
  | _ => False

/-- Both entities speak of what the other one takes. -/
structure Conversing (l : Link) : Prop where
  a : Flowing l.a
  b : Flowing l.b
  ab : ∀ buffer ∈ l.ab, Welcome buffer
  ba : ∀ buffer ∈ l.ba, Welcome buffer

structure Connected (l : Link) : Prop extends Conversing l where
  aliveA : l.a.aliveState.isAlive = true
  aliveB : l.b.aliveState.isAlive = true

section
variable {l : Link} {s : ProtocolState} {buffer : List UInt8} {rest : List (List UInt8)}

namespace Conversing

theorem actA (h : Conversing l) {e : Event} (he : Ordinary e) : Conversing (actA (ProtocolState.handle e) l).1 where
  a := h.a.handle he
  b := h.b
  ab buffer hmem := (List.mem_append.mp hmem).elim (h.ab buffer)
    ((h.a.toUnhindered.handle h.a.consistent he).2 buffer)
  ba := h.ba

theorem actB (h : Conversing l) {e : Event} (he : Ordinary e) : Conversing (actB (ProtocolState.handle e) l).1 where
  a := h.a
  b := h.b.handle he
  ab := h.ab
  ba buffer hmem := (List.mem_append.mp hmem).elim (h.ba buffer)
    ((h.b.toUnhindered.handle h.b.consistent he).2 buffer)

theorem lose (h : Conversing l) {ab ba : List (List UInt8)} (hab : ab.Sublist l.ab) (hba : ba.Sublist l.ba) :
    Conversing { l with ab := ab, ba := ba } :=
  ⟨h.a, h.b, fun buffer hmem => h.ab buffer (hab.subset hmem), fun buffer hmem => h.ba buffer (hba.subset hmem)⟩

theorem deliverToA (h : Conversing l) : Conversing (deliverToA l).1 := by
  rcases hba : l.ba with _ | ⟨buffer, rest⟩
  · rw [deliverToA_nil hba]
    exact h
  · have hrest := h.lose (List.Sublist.refl l.ab) (hba ▸ List.sublist_cons_self buffer rest)
    have hwelcome := h.ba buffer (hba ▸ List.mem_cons_self)
    rw [deliverToA_cons hba, branch]
    split_ifs
    · exact hrest.actA (e := .frame buffer false) hwelcome.flowing
    · exact hrest

theorem deliverToB (h : Conversing l) : Conversing (deliverToB l).1 := by
  rcases hab : l.ab with _ | ⟨buffer, rest⟩
  · rw [deliverToB_nil hab]
    exact h
  · have hrest := h.lose (hab ▸ List.sublist_cons_self buffer rest) (List.Sublist.refl l.ba)
    have hwelcome := h.ab buffer (hab ▸ List.mem_cons_self)
    rw [deliverToB_cons hab, branch]
    split_ifs
    · exact hrest.actB (e := .frame buffer false) hwelcome.flowing
    · exact hrest

theorem handle (h : Conversing l) {e : LinkEvent} (he : Genuine e) : Conversing (handle e l).1 := by
  cases e with
  | a event => exact h.actA (e := .internal event) he
  | b event => exact h.actB (e := .internal event) he
  | deliverToA => exact h.deliverToA
  | deliverToB => exact h.deliverToB
  | dropAB i => exact h.lose (List.eraseIdx_sublist l.ab i) (List.Sublist.refl l.ba)
  | dropBA i => exact h.lose (List.Sublist.refl l.ab) (List.eraseIdx_sublist l.ba i)
  | aliveA | aliveB => exact he.elim

theorem freshlyStarted : Conversing freshlyStarted := by
  have hinitial : Conversing { a := ProtocolState.initial, b := ProtocolState.initial, ab := [], ba := [] } :=
    ⟨.initial, .initial, fun _ hmem => absurd hmem List.not_mem_nil, fun _ hmem => absurd hmem List.not_mem_nil⟩
  exact run_invariant Link.handle (C := fun _ e => Genuine e) (fun _ _ he h => h.handle he) hinitial
    ⟨trivial, trivial, trivial⟩

theorem run {es : List LinkEvent} (hes : ∀ e ∈ es, Genuine e) : Conversing (run Link.handle es Link.freshlyStarted).1 :=
  run_invariant Link.handle (C := fun _ e => Genuine e) (fun _ _ he h => h.handle he) freshlyStarted
    (along_of_forall _ (fun e he _ => hes e he) _)

end Conversing

theorem alive_frame (h : s.aliveState.isAlive = true) (buffer : List UInt8) :
    (ProtocolState.handle (.frame buffer false) s).1.aliveState.isAlive = true := by
  have hsame := (checkAcks_acked (deserializeFrame buffer) (afterReceive (deserializeFrame buffer) s)).same
  simp only [unacknowledgedMembers, Prod.mk.injEq] at hsame
  rw [ProtocolState.handle_aliveState, prepare, prepareFrame]
  split_ifs with _ _ hinvalid
  · exact h
  · exact h
  · exact hinvalid.elim
  · show (checkAcks _ (afterReceive _ s)).1.aliveState.isAlive = true
    rw [hsame.2.2.2.2.2.2.2.2.2]
    exact AliveState.isAlive_onFrameReceived s.aliveState

theorem deliverToA_eq (hstarted : l.a.started = true) (hba : l.ba = buffer :: rest) :
    (handle .deliverToA l).1 =
      { l with
        a := (ProtocolState.handle (.frame buffer false) l.a).1
        ab := l.ab ++ buffers (ProtocolState.handle (.frame buffer false) l.a).2
        ba := rest } := by
  show (deliverToA l).1 = _
  rw [deliverToA_cons hba, branch, if_pos hstarted]
  rfl

theorem deliverToB_eq (hstarted : l.b.started = true) (hab : l.ab = buffer :: rest) :
    (handle .deliverToB l).1 =
      { l with
        b := (ProtocolState.handle (.frame buffer false) l.b).1
        ab := rest
        ba := l.ba ++ buffers (ProtocolState.handle (.frame buffer false) l.b).2 } := by
  show (deliverToB l).1 = _
  rw [deliverToB_cons hab, branch, if_pos hstarted]
  rfl

theorem Connected.handle (h : Connected l) {e : LinkEvent} (he : Undisturbed l e) : Connected (handle e l).1 := by
  have hkept (hgenuine : Genuine e) : Conversing (Link.handle e l).1 := h.toConversing.handle hgenuine
  cases e with
  | deliverToA =>
    obtain ⟨buffer, rest, hba, _⟩ := he
    refine ⟨hkept trivial, ?_, ?_⟩
    · rw [deliverToA_eq (h.a.consistent.running h.aliveA).1 hba]
      exact alive_frame h.aliveA buffer
    · rw [deliverToA_eq (h.a.consistent.running h.aliveA).1 hba]
      exact h.aliveB
  | deliverToB =>
    obtain ⟨buffer, rest, hab, _⟩ := he
    refine ⟨hkept trivial, ?_, ?_⟩
    · rw [deliverToB_eq (h.b.consistent.running h.aliveB).1 hab]
      exact h.aliveA
    · rw [deliverToB_eq (h.b.consistent.running h.aliveB).1 hab]
      exact alive_frame h.aliveB buffer
  | a event =>
    cases event with
    | triggerNextHDLCFrame =>
      refine ⟨hkept trivial, ?_, h.aliveB⟩
      show (ProtocolState.handle (.internal .triggerNextHDLCFrame) l.a).1.aliveState.isAlive = true
      rw [ProtocolState.handle_aliveState, prepare, prepareLocal, if_pos (h.a.consistent.running h.aliveA).1]
      exact h.aliveA
    | timerExpires => exact ⟨hkept trivial, h.aliveA, h.aliveB⟩
    | timerHandler handler =>
      cases handler with
      | retransmission =>
        refine ⟨hkept trivial, ?_, h.aliveB⟩
        show (ProtocolState.handle (.internal (.timerHandler .retransmission)) l.a).1.aliveState.isAlive = true
        rw [ProtocolState.handle_aliveState, prepare, prepareLocal]
        split_ifs <;> exact h.aliveA
      | rnrPoll => exact he.elim
    | _ => exact he.elim
  | b event =>
    cases event with
    | triggerNextHDLCFrame =>
      refine ⟨hkept trivial, h.aliveA, ?_⟩
      show (ProtocolState.handle (.internal .triggerNextHDLCFrame) l.b).1.aliveState.isAlive = true
      rw [ProtocolState.handle_aliveState, prepare, prepareLocal, if_pos (h.b.consistent.running h.aliveB).1]
      exact h.aliveB
    | _ => exact he.elim
  | _ => exact he.elim

theorem reliable_suffix (hs : Consistent s) {e : Event} (he : ∀ payload r, e ≠ .internal (.sendPayload payload r)) :
    (ProtocolState.handle e s).1.waitQueueReliable <:+ s.waitQueueReliable := by
  have hprepared : (prepare e s).state.waitQueueReliable <:+ s.waitQueueReliable := by
    cases e with
    | internal e =>
      show (prepareLocal e s).state.waitQueueReliable <:+ _
      have hp := prepared e s
      generalize prepareLocal e s = p at hp
      cases hp with
      | sendPayload payload reliable => exact absurd rfl (he payload reliable)
      | _ => exact List.suffix_refl _
    | frame buffer messageInvalid =>
      unfold prepare prepareFrame
      dsimp only
      split_ifs
      · exact List.suffix_refl _
      · exact List.suffix_refl _
      · exact List.suffix_refl _
      · rcases heard_reliable (deserializeFrame buffer) s with hsame | ⟨front, hq⟩
        · exact ⟨[], hsame⟩
        · exact ⟨[front], hq.symm⟩
  rw [ProtocolState.handle_eq, Preparation.finish]
  split_ifs
  · have hspent := (opportunity_ends (hs.prepare e)).1.same
    simp only [Prod.mk.injEq] at hspent
    rw [hspent.2.2.2.1]
    exact hprepared
  · exact hprepared

theorem Connected.reliable (h : Connected l) {e : LinkEvent} (he : Undisturbed l e) :
    (Link.handle e l).1.a.waitQueueReliable <:+ l.a.waitQueueReliable := by
  have hlocal {event : LocalEvent} (hevent : ∀ payload r, event ≠ .sendPayload payload r) :
      (Link.handle (.a event) l).1.a.waitQueueReliable <:+ l.a.waitQueueReliable :=
    reliable_suffix (e := .internal event) h.a.consistent fun payload r heq => hevent payload r (Event.internal.inj heq)
  cases e with
  | deliverToA =>
    obtain ⟨buffer, rest, hba, _⟩ := he
    rw [deliverToA_eq (h.a.consistent.running h.aliveA).1 hba]
    exact reliable_suffix h.a.consistent (by simp)
  | deliverToB =>
    obtain ⟨buffer, rest, hab, _⟩ := he
    have hsame := deliverToB_eq (h.b.consistent.running h.aliveB).1 hab
    exact ⟨[], congrArg (·.a.waitQueueReliable) hsame⟩
  | a event =>
    cases event with
    | sendPayload payload r => exact he.elim
    | _ => exact hlocal (by simp)
  | _ => exact List.suffix_refl _

def chatter (l : Link) : Nat := weights l.ab + weights l.ba + load l.a + load l.b

/-- Nothing is under way, and what A and B say next is an I-frame or an acknowledgement. -/
structure Calm (l : Link) : Prop where
  ab : l.ab = []
  ba : l.ba = []
  dueA : due l.a = 0
  dueB : due l.b = 0

theorem Flowing.due_eq_zero (h : Flowing s) (halive : s.aliveState.isAlive = true)
    (hbusy : s.awaitsNextHDLCFrame = false → due s = 0) : due s = 0 := by
  cases hawaits : s.awaitsNextHDLCFrame with
  | false => exact hbusy hawaits
  | true =>
    obtain ⟨hprobe, hsrejs, _⟩ := h.nothingLeft halive hawaits
    rw [due, hprobe, hsrejs]
    rfl

theorem Connected.quieter (h : Connected l) (hcalm : ¬ Calm l) :
    CanReach Link.handle Undisturbed (fun t => Connected t ∧ chatter t < chatter l) l := by
  have hnext {e : LinkEvent} (he : Undisturbed l e) (hless : chatter (Link.handle e l).1 < chatter l) :
      CanReach Link.handle Undisturbed (fun t => Connected t ∧ chatter t < chatter l) l :=
    .step he (.here ⟨h.handle he, hless⟩)
  obtain ⟨hstartedA, _⟩ := h.a.consistent.running h.aliveA
  obtain ⟨hstartedB, _⟩ := h.b.consistent.running h.aliveB
  rcases hab : l.ab with _ | ⟨buffer, rest⟩
  · rcases hba : l.ba with _ | ⟨buffer, rest⟩
    · by_cases hdueA : l.a.awaitsNextHDLCFrame = false → due l.a = 0
      · by_cases hdueB : l.b.awaitsNextHDLCFrame = false → due l.b = 0
        · exact absurd ⟨hab, hba, h.a.due_eq_zero h.aliveA hdueA, h.b.due_eq_zero h.aliveB hdueB⟩ hcalm
        · obtain ⟨hbusy, hdue⟩ := Classical.not_imp.mp hdueB
          have hless := trigger_load h.b.consistent h.aliveB hbusy (Nat.pos_of_ne_zero hdue)
          refine hnext (e := .b .triggerNextHDLCFrame) hbusy ?_
          show weights l.ab + weights (l.ba ++ buffers (ProtocolState.handle (.internal .triggerNextHDLCFrame) l.b).2) +
            load l.a + load (ProtocolState.handle (.internal .triggerNextHDLCFrame) l.b).1 < _
          rw [weights_append, chatter]
          omega
      · obtain ⟨hbusy, hdue⟩ := Classical.not_imp.mp hdueA
        have hless := trigger_load h.a.consistent h.aliveA hbusy (Nat.pos_of_ne_zero hdue)
        refine hnext (e := .a .triggerNextHDLCFrame) hbusy ?_
        show weights (l.ab ++ buffers (ProtocolState.handle (.internal .triggerNextHDLCFrame) l.a).2) + weights l.ba +
          load (ProtocolState.handle (.internal .triggerNextHDLCFrame) l.a).1 + load l.b < _
        rw [weights_append, chatter]
        omega
    · have hless := frame_load h.a.consistent buffer
      have hlength := (h.ba buffer (hba ▸ List.mem_cons_self)).length
      refine hnext (e := .deliverToA) ⟨buffer, rest, hba, hlength⟩ ?_
      rw [deliverToA_eq hstartedA hba]
      show weights (l.ab ++ buffers (ProtocolState.handle (.frame buffer false) l.a).2) + weights rest +
        load (ProtocolState.handle (.frame buffer false) l.a).1 + load l.b < _
      rw [weights_append, chatter, hba, weights_cons]
      omega
  · have hless := frame_load h.b.consistent buffer
    have hlength := (h.ab buffer (hab ▸ List.mem_cons_self)).length
    refine hnext (e := .deliverToB) ⟨buffer, rest, hab, hlength⟩ ?_
    rw [deliverToB_eq hstartedB hab]
    show weights rest + weights (l.ba ++ buffers (ProtocolState.handle (.frame buffer false) l.b).2) + load l.a +
      load (ProtocolState.handle (.frame buffer false) l.b).1 < _
    rw [weights_append, chatter, hab, weights_cons]
    omega

theorem Connected.calms (h : Connected l) : CanReach Link.handle Undisturbed Calm l :=
  .of_measure chatter (fun _ ht hnot => ht.quieter hnot) h

/-- An I-frame of A with a payload is all that is under way, and A waits for the acknowledgement. -/
structure Asked (l : Link) : Prop where
  busy : l.a.awaitsNextHDLCFrame = false
  waiting : l.a.waitForAck = true
  ab : ∃ buffer, l.ab = [buffer] ∧ (deserializeFrame buffer).isIFrame = true ∧
    (deserializeFrame buffer).hasPayload = true ∧ (deserializeFrame buffer).sSeq = l.a.sSeqOutgoing &&& 0x07
  ba : l.ba = []
  dueB : due l.b = 0

theorem due_eq_zero_iff : due s = 0 ↔ s.sendProbe = false ∧ s.srejs = [] := by
  rw [due, Nat.add_eq_zero_iff, List.length_eq_zero_iff]
  cases s.sendProbe <;> simp

theorem Calm.asks (h : Calm l) (hs : Open s) (hhandler : s.serialPortHandler = true) (hdue : due s = 0)
    (hflowing : Unhindered s) {front : Payload} {rest : List Payload} (hq : s.waitQueueReliable = front :: rest)
    (hidle : s.waitForAck = false) :
    Asked { l with
      a := (opportunityForTransmission s).1
      ab := l.ab ++ buffers (opportunityForTransmission s).2 } := by
  obtain ⟨hfront, _⟩ := hflowing.reliable front (hq ▸ List.mem_cons_self)
  obtain ⟨buffer, hbuffer, hsent, hafter⟩ :=
    opportunity_iFrame hs hhandler (due_eq_zero_iff.mp hdue).2 hq hidle hflowing.flow
  have hread := deserializeFrame_serializeFrame hbuffer
  rw [h.ab, hsent, hafter]
  refine ⟨rfl, rfl, ⟨buffer, rfl, ?_, ?_, ?_⟩, h.ba, h.dueB⟩
  · rw [hread]
    rfl
  · rw [hread]
    show (!front.isEmpty) = true
    rw [List.isEmpty_eq_false_iff.mpr hfront]
    rfl
  · rw [hread]
    rfl

theorem Connected.writes (h : Connected l) (hcalm : Calm l) {front : Payload} {rest : List Payload}
    (hq : l.a.waitQueueReliable = front :: rest) (hidle : l.a.waitForAck = false)
    (hbusy : l.a.awaitsNextHDLCFrame = false) : CanReach Link.handle Undisturbed Asked l := by
  obtain ⟨hstarted, hhandler⟩ := h.a.consistent.running h.aliveA
  obtain ⟨hprobe, _⟩ := due_eq_zero_iff.mp hcalm.dueA
  refine .step (e := .a .triggerNextHDLCFrame) hbusy (.here ?_)
  show Asked { l with
    a := (ProtocolState.handle (.internal .triggerNextHDLCFrame) l.a).1
    ab := l.ab ++ buffers (ProtocolState.handle (.internal .triggerNextHDLCFrame) l.a).2 }
  rw [handle_trigger hstarted]
  exact hcalm.asks (s := { l.a with awaitsNextHDLCFrame := true }) ⟨rfl, hprobe, h.aliveA⟩ hhandler hcalm.dueA
    ⟨h.a.flow, h.a.fresh, h.a.reliable, h.a.unreliable⟩ hq hidle

theorem Connected.rings (h : Connected l) (hcalm : Calm l) {front : Payload} {rest : List Payload}
    (hq : l.a.waitQueueReliable = front :: rest) (hqueued : TimerHandler.retransmission ∈ l.a.timer.queued) :
    CanReach Link.handle Undisturbed Asked l := by
  obtain ⟨_, hhandler⟩ := h.a.consistent.running h.aliveA
  obtain ⟨hprobe, _⟩ := due_eq_zero_iff.mp hcalm.dueA
  let s : ProtocolState := { l.a with timer := l.a.timer.complete .retransmission, waitForAck := false }
  have hrun : handleLocal (.timerHandler .retransmission) l.a = opportunityForTransmission s := by
    rw [handleLocal_eq, prepareLocal, if_pos hqueued]
    rfl
  have hnext : (Link.handle (.a (.timerHandler .retransmission)) l).1 = { l with
      a := (opportunityForTransmission s).1
      ab := l.ab ++ buffers (opportunityForTransmission s).2 } := by
    rw [← hrun]
    rfl
  have hconnected := h.handle (e := .a (.timerHandler .retransmission)) hqueued
  refine .step (e := .a (.timerHandler .retransmission)) hqueued ?_
  rw [hnext] at hconnected ⊢
  rcases Bool.eq_false_or_eq_true l.a.awaitsNextHDLCFrame with hawaits | hbusy
  · exact .here (hcalm.asks (s := s) ⟨hawaits, hprobe, h.aliveA⟩ hhandler hcalm.dueA
      ⟨h.a.flow, h.a.fresh, h.a.reliable, h.a.unreliable⟩ hq rfl)
  · rw [opportunity_busy (s := s) hbusy] at hconnected ⊢
    rw [show l.ab ++ buffers [] = l.ab from List.append_nil _] at hconnected ⊢
    exact hconnected.writes ⟨hcalm.ab, hcalm.ba, hcalm.dueA, hcalm.dueB⟩ hq rfl hbusy

theorem Connected.asks (h : Connected l) (hcalm : Calm l) (hq : l.a.waitQueueReliable ≠ []) :
    CanReach Link.handle Undisturbed Asked l := by
  obtain ⟨front, rest, hq⟩ := List.exists_cons_of_ne_nil hq
  rcases Bool.eq_false_or_eq_true l.a.waitForAck with hwait | hidle
  · rcases h.a.watched.armed hwait with hpending | hqueued
    · refine .step (e := .a .timerExpires) hpending ?_
      have hconnected := h.handle (e := .a .timerExpires) hpending
      have hnext : (Link.handle (.a .timerExpires) l).1 = { l with a := { l.a with timer := l.a.timer.expire } } := by
        show ({ l with a := _, ab := l.ab ++ [] } : Link) = _
        rw [List.append_nil]
        rfl
      rw [hnext] at hconnected ⊢
      exact hconnected.rings ⟨hcalm.ab, hcalm.ba, hcalm.dueA, hcalm.dueB⟩ hq
        (DeadlineTimer.Armed.queued_expire (.inl hpending))
    · exact h.rings hcalm hq hqueued
  · rcases Bool.eq_false_or_eq_true l.a.awaitsNextHDLCFrame with hawaits | hbusy
    · -- the port would have sent the head already
      obtain ⟨_, _, _, _, hblocked⟩ := h.a.nothingLeft h.aliveA hawaits
      rcases hblocked with hempty | hwait | hflow
      · exact absurd (hempty.symm.trans hq) (List.cons_ne_nil _ _).symm
      · exact absurd (hidle.symm.trans hwait) Bool.false_ne_true
      · exact absurd (h.a.flow.symm.trans hflow) Bool.false_ne_true
    · exact h.writes hcalm hq hidle hbusy

/-- A is busy and waits, and no frame is on its way to B. -/
structure Awaiting (l : Link) : Prop where
  busy : l.a.awaitsNextHDLCFrame = false
  waiting : l.a.waitForAck = true
  ab : l.ab = []

/-- B has to acknowledge A's frame, and the gaps it has noticed do not concern that frame. -/
structure Owing (number : UInt8) (s : ProtocolState) : Prop where
  probe : s.sendProbe = false
  alive : s.aliveState.isAlive = true
  handler : s.serialPortHandler = true
  fresh : s.peerStoppedFlowNew = false
  ack : s.peerRequiresAck = true
  expected : s.rSeqIncoming = (number + 1) &&& 0x07
  gaps : ∀ n ∈ s.srejs, n &&& 0x07 ≠ number

theorem heard_waiting {f : HdlcFrame} (hs : Consistent (afterReceive f s)) (hwait : s.waitForAck = true) :
    (KeepsWaiting f (afterReceive f s) → (heard f s).waitForAck = true) ∧
      (carriesAck f = true → s.acknowledges f.rSeq = true →
        (heard f s).waitQueueReliable = s.waitQueueReliable.tail) := by
  have htested := checkAcks_tested hs f
  refine ⟨fun hkeeps => htested.waiting.mpr ⟨hwait, hkeeps⟩, fun hack hseq => ?_⟩
  have hreliable := htested.reliable
  have hseq' : (afterReceive f s).acknowledges f.rSeq = true := hseq
  have hwait' : (afterReceive f s).waitForAck = true := hwait
  rw [hwait', hack, hseq', Bool.and_self, Bool.and_self, if_pos rfl] at hreliable
  exact hreliable

theorem Connected.acknowledged (h : Connected l) (ha : Awaiting l) {f : HdlcFrame}
    (hbuffer : serializeFrame f = some buffer)
    (hba : l.ba = [buffer]) (hf : f.hdlcFrameType = .i ∨ f.hdlcFrameType = .sRR)
    (hseq : f.rSeq = (l.a.sSeqOutgoing + 1) &&& 0x07) :
    CanReach Link.handle Undisturbed
      (fun t => t.a.waitQueueReliable.length < l.a.waitQueueReliable.length) l := by
  obtain ⟨hstarted, hhandler⟩ := h.a.consistent.running h.aliveA
  have hlength := (h.ba buffer (hba ▸ List.mem_cons_self)).length
  have hread := deserializeFrame_serializeFrame hbuffer
  have htype : f.onWire.hdlcFrameType = .i ∨ f.onWire.hdlcFrameType = .sRR :=
    (onWire_hdlcFrameType (fun t => t = .i ∨ t = .sRR) (by simp) f).mpr hf
  have hnumber : f.onWire.rSeq = (l.a.sSeqOutgoing + 1) &&& 0x07 := by
    have hcounted : (f.isIFrame || f.isSFrame) = true := by
      rcases hf with hf | hf <;> simp [HdlcFrame.isIFrame, HdlcFrame.isSFrame, hf]
    rw [onWire_rSeq hcounted, hseq, and_seven_eq_self (and_seven_lt _)]
  refine .step (e := .deliverToA) ⟨buffer, [], hba, hlength⟩ (.here ?_)
  rw [deliverToA_eq hstarted hba]
  show (ProtocolState.handle (.frame buffer false) l.a).1.waitQueueReliable.length < _
  rw [(handle_frame_busy hstarted hhandler ha.busy).1, hread]
  have hack : carriesAck f.onWire = true := by rcases htype with ht | ht <;> simp [carriesAck, ht]
  rw [(heard_waiting (h.a.consistent.afterReceive hstarted hhandler _) ha.waiting).2 hack
    (by rw [acknowledges, hnumber]; exact beq_self_eq_true _), List.length_tail]
  exact Nat.sub_lt (List.length_pos_iff.mpr (h.a.consistent.waiting ha.waiting).2.1) Nat.one_pos

theorem Connected.rejected (h : Connected l) (ha : Awaiting l) {front : UInt8}
    (hbuffer : serializeFrame (prepareSFrameSREJ front) = some buffer) (hba : l.ba = [buffer])
    (hfront : front &&& 0x07 ≠ l.a.sSeqOutgoing) :
    Awaiting (Link.handle .deliverToA l).1 ∧ (Link.handle .deliverToA l).1.ba = [] ∧
      (Link.handle .deliverToA l).1.b = l.b ∧
      (Link.handle .deliverToA l).1.a.sSeqOutgoing = l.a.sSeqOutgoing ∧
      (Link.handle .deliverToA l).1.a.waitQueueReliable = l.a.waitQueueReliable := by
  obtain ⟨hstarted, hhandler⟩ := h.a.consistent.running h.aliveA
  have hread := deserializeFrame_serializeFrame hbuffer
  let f := (prepareSFrameSREJ front).onWire
  have htested := checkAcks_tested (h.a.consistent.afterReceive hstarted hhandler f) f
  have hsame := (checkAcks_acked f (afterReceive f l.a)).same
  simp only [unacknowledgedMembers, Prod.mk.injEq] at hsame
  have hkeeps : KeepsWaiting f (afterReceive f l.a) :=
    ⟨fun hrnr => FrameType.noConfusion hrnr, fun hack => absurd hack Bool.false_ne_true, fun _ => hfront⟩
  rw [deliverToA_eq hstarted hba, (handle_frame_busy hstarted hhandler ha.busy).1,
    (handle_frame_busy hstarted hhandler ha.busy).2, hread, List.append_nil]
  refine ⟨⟨hsame.2.1.trans ha.busy,
      (heard_waiting (h.a.consistent.afterReceive hstarted hhandler f) ha.waiting).1 hkeeps,
    ha.ab⟩, rfl, rfl, checkAcks_numbers f (afterReceive f l.a), ?_⟩
  exact htested.reliable.trans (if_neg (by simp [carriesAck, f, HdlcFrame.onWire, prepareSFrameSREJ]))

theorem Connected.answered {u : ProtocolState} (h : Connected l) (ha : Awaiting l) (hu : Owing l.a.sSeqOutgoing u)
    (hawaits : u.awaitsNextHDLCFrame = true) (hb : l.b = (opportunityForTransmission u).1)
    (hba : l.ba = buffers (opportunityForTransmission u).2) :
    CanReach Link.handle Undisturbed
      (fun t => t.a.waitQueueReliable.length < l.a.waitQueueReliable.length) l := by
  have hopen : Open u := ⟨hawaits, hu.probe, hu.alive⟩
  induction hgaps : u.srejs generalizing l u with
  | nil =>
    obtain ⟨f, buffer, hbuffer, hsent, htype, hseq⟩ :=
      opportunity_acknowledges hopen hu.handler hgaps hu.fresh hu.ack
    exact h.acknowledged ha hbuffer (hba.trans hsent) htype (hseq.trans hu.expected)
  | cons front rest ih =>
    obtain ⟨buffer, hbuffer⟩ := exists_serializeFrame (f := prepareSFrameSREJ front) rfl
    rw [opportunity_srej hopen hu.handler hgaps, transmitFrame_eq hbuffer] at hb hba
    have hfront := hu.gaps front (hgaps ▸ List.mem_cons_self)
    obtain ⟨ha', hba', hb', hseq, hqueue⟩ := h.rejected ha hbuffer hba hfront
    have hlength := (h.ba buffer (hba ▸ List.mem_cons_self)).length
    have hdelivered : Undisturbed l .deliverToA := ⟨buffer, [], hba, hlength⟩
    have h' := h.handle hdelivered
    refine .step hdelivered ?_
    generalize (Link.handle .deliverToA l).1 = t at ha' hba' hb' hseq hqueue h'
    have hbusy : t.b.awaitsNextHDLCFrame = false := by rw [hb', hb]
    have hwritten : Undisturbed t (.b .triggerNextHDLCFrame) := hbusy
    have hstarted := (h'.b.consistent.running h'.aliveB).1
    let v : ProtocolState := { t.b with awaitsNextHDLCFrame := true }
    have hnext : (Link.handle (.b .triggerNextHDLCFrame) t).1 =
        { t with b := (opportunityForTransmission v).1, ba := t.ba ++ buffers (opportunityForTransmission v).2 } := by
      rw [← handle_trigger hstarted]
      rfl
    have h'' := h'.handle hwritten
    refine .step hwritten ?_
    rw [hnext] at h'' ⊢
    rw [← hqueue]
    have hv : v = { u with srejs := rest, awaitsNextHDLCFrame := true } := by
      show { t.b with awaitsNextHDLCFrame := true } = _
      rw [hb', hb]
    refine ih (l := { t with b := _, ba := _ }) (u := v) h'' ⟨ha'.busy, ha'.waiting, ha'.ab⟩ ?_ rfl rfl
      (by rw [hba', List.nil_append]) ?_ (by rw [hv])
    · show Owing t.a.sSeqOutgoing v
      rw [hseq, hv]
      exact ⟨hu.probe, hu.alive, hu.handler, hu.fresh, hu.ack, hu.expected,
        fun n hn => hu.gaps n (hgaps ▸ List.mem_cons_of_mem front hn)⟩
    · rw [hv]
      exact ⟨rfl, hu.probe, hu.alive⟩

theorem seq_successor (number : UInt8) : ((number &&& 0x07) + 1) &&& 0x07 = (number + 1) &&& 0x07 := by
  apply UInt8.toNat_inj.mp
  rw [and_seven_toNat, and_seven_toNat, UInt8.toNat_add, UInt8.toNat_add, and_seven_toNat]
  simp only [UInt8.reduceToNat]
  omega

theorem heard_owing (h : Flowing s) (halive : s.aliveState.isAlive = true) (hdue : due s = 0) {f : HdlcFrame}
    (hi : f.isIFrame = true) (hpayload : f.hasPayload = true) {number : UInt8} (hseq : f.sSeq = number &&& 0x07) :
    Owing number (heard f s) := by
  obtain ⟨hstarted, hhandler⟩ := h.consistent.running halive
  obtain ⟨hprobe, hsrejs⟩ := due_eq_zero_iff.mp hdue
  have hrnr : f.hdlcFrameType ≠ .sRNR := by
    rw [beq_iff_eq.mp hi]
    exact FrameType.noConfusion
  have hsame := (checkAcks_acked f (afterReceive f s)).same
  simp only [unacknowledgedMembers, Prod.mk.injEq] at hsame
  obtain ⟨_, _, hrseq, hprobe', hack, hgaps, hhandler', _, _, halive'⟩ := hsame
  have hunhindered := h.toUnhindered.heard (h.consistent.afterReceive hstarted hhandler f) hrnr
  have hreceived : afterReceive f s =
      { s.advanceWindow f.sSeq with aliveState := s.aliveState.onFrameReceived.1 } := by
    rw [afterReceive, hpayload, hi]
    rfl
  have howed : (afterReceive f s).peerRequiresAck = true := by
    rw [hreceived]
    rfl
  have hexpected : (afterReceive f s).rSeqIncoming = (f.sSeq + 1) &&& 0x07 := by
    rw [hreceived]
    rfl
  have hmissing : (afterReceive f s).srejs =
      if s.rSeqIncoming ≠ f.sSeq then missingFrames f.sSeq 8 s.rSeqIncoming else s.srejs := by
    rw [hreceived]
    rfl
  constructor
  case probe => exact hprobe'.trans hprobe
  case alive => exact (congrArg AliveState.isAlive halive').trans (AliveState.isAlive_onFrameReceived s.aliveState)
  case handler => exact hhandler'.trans hhandler
  case fresh => exact hunhindered.fresh
  case ack => exact hack.trans howed
  case expected =>
    refine (hrseq.trans hexpected).trans ?_
    rw [hseq, seq_successor]
  case gaps =>
    intro n hn hnumber
    have hmem : n ∈ (if s.rSeqIncoming ≠ f.sSeq then missingFrames f.sSeq 8 s.rSeqIncoming else s.srejs) :=
      hmissing ▸ hgaps ▸ hn
    split_ifs at hmem
    · refine missingFrames_ne f.sSeq 8 s.rSeqIncoming n hmem ?_
      rw [hseq, ← hnumber, and_seven_eq_self (and_seven_lt n)]
    · rw [hsrejs] at hmem
      exact List.not_mem_nil hmem

theorem Connected.answers (h : Connected l) (ha : Asked l) :
    CanReach Link.handle Undisturbed
      (fun t => t.a.waitQueueReliable.length < l.a.waitQueueReliable.length) l := by
  obtain ⟨hstarted, hhandler⟩ := h.b.consistent.running h.aliveB
  obtain ⟨buffer, hab, hi, hpayload, hseq⟩ := ha.ab
  have hlength := (h.ab buffer (hab ▸ List.mem_cons_self)).length
  have hdelivered : Undisturbed l .deliverToB := ⟨buffer, [], hab, hlength⟩
  have howing := heard_owing h.b h.aliveB ha.dueB hi hpayload hseq
  have h' := h.handle hdelivered
  refine .step hdelivered ?_
  rw [deliverToB_eq hstarted hab] at h' ⊢
  rcases Bool.eq_false_or_eq_true l.b.awaitsNextHDLCFrame with hawaits | hbusy
  · obtain ⟨hb, hba⟩ := @handle_frame_free l.b buffer hstarted hhandler hawaits
    have hsame := (checkAcks_acked (deserializeFrame buffer) (afterReceive (deserializeFrame buffer) l.b)).same
    simp only [unacknowledgedMembers, Prod.mk.injEq] at hsame
    refine h'.answered (u := heard (deserializeFrame buffer) l.b) ⟨ha.busy, ha.waiting, rfl⟩ howing
      (hsame.2.1.trans hawaits) hb ?_
    rw [ha.ba, List.nil_append]
    exact hba
  · obtain ⟨hb, hba⟩ := @handle_frame_busy l.b buffer hstarted hhandler hbusy
    have hsame := (checkAcks_acked (deserializeFrame buffer) (afterReceive (deserializeFrame buffer) l.b)).same
    simp only [unacknowledgedMembers, Prod.mk.injEq] at hsame
    rw [hb, hba, ha.ba, List.append_nil] at h' ⊢
    have hstarted' := (h'.b.consistent.running h'.aliveB).1
    have hwritten : Undisturbed { l with b := heard (deserializeFrame buffer) l.b, ab := [], ba := [] }
        (.b .triggerNextHDLCFrame) := hsame.2.1.trans hbusy
    have h'' := h'.handle hwritten
    refine .step hwritten ?_
    let v : ProtocolState := { heard (deserializeFrame buffer) l.b with awaitsNextHDLCFrame := true }
    have hnext : (Link.handle (.b .triggerNextHDLCFrame)
        { l with b := heard (deserializeFrame buffer) l.b, ab := [], ba := [] }).1 =
        { l with b := (opportunityForTransmission v).1, ab := [], ba := buffers (opportunityForTransmission v).2 } := by
      rw [← handle_trigger hstarted']
      rfl
    rw [hnext] at h'' ⊢
    exact h''.answered (u := v) ⟨ha.busy, ha.waiting, rfl⟩
      ⟨howing.probe, howing.alive, howing.handler, howing.fresh, howing.ack, howing.expected, howing.gaps⟩ rfl rfl rfl

theorem Connected.keeps (h : Connected l) {G : Link → Prop} (hG : CanReach Link.handle Undisturbed G l) :
    CanReach Link.handle Undisturbed
      (fun t => (Connected t ∧ t.a.waitQueueReliable <:+ l.a.waitQueueReliable) ∧ G t) l :=
  hG.keeps (I := fun t => Connected t ∧ t.a.waitQueueReliable <:+ l.a.waitQueueReliable)
    (fun _ _ he ht => ⟨ht.1.handle he, (ht.1.reliable he).trans ht.2⟩) ⟨h, List.suffix_refl _⟩

theorem Connected.shorter (h : Connected l) (hq : l.a.waitQueueReliable ≠ []) :
    CanReach Link.handle Undisturbed
      (fun t => Connected t ∧ t.a.waitQueueReliable.length < l.a.waitQueueReliable.length) l := by
  apply (h.keeps h.calms).trans
  rintro t ⟨⟨ht, hsuffix⟩, hcalm⟩
  by_cases hqueue : t.a.waitQueueReliable = []
  · refine .here ⟨ht, ?_⟩
    rw [hqueue]
    exact List.length_pos_iff.mpr hq
  · apply (ht.keeps (ht.asks hcalm hqueue)).trans
    rintro u ⟨⟨hu, hsuffix'⟩, hasked⟩
    apply (hu.keeps (hu.answers hasked)).mono
    rintro v ⟨⟨hv, _⟩, hless⟩
    exact ⟨hv, hless.trans_le (hsuffix'.trans hsuffix).length_le⟩

theorem Connected.drains (h : Connected l) :
    CanReach Link.handle Undisturbed (fun t => t.a.waitQueueReliable = []) l :=
  .of_measure (fun t => t.a.waitQueueReliable.length) (fun _ ht hqueue => ht.shorter hqueue) h

end
end Hdlcd.Link
