import Hdlcd.Protocol.Ending

/-! When the entity asks the clients for payload, and how its two queues grow. -/

namespace Hdlcd.ProtocolState
open Reactive Action FrameGenerator FrameParser

def queries (o : List Effect) : List (Bool × Bool) :=
  o.filterMap fun
    | .queryForPayload queryReliable queryUnreliable => some (queryReliable, queryUnreliable)
    | _ => none

/-- The link is up, the port is free, and there is nothing to send. -/
structure Idle (s : ProtocolState) : Prop where
  alive : s.aliveState.isAlive = true
  awaits : s.awaitsNextHDLCFrame = true
  reliable : s.waitQueueReliable = []
  unreliable : s.waitQueueUnreliable = []
  flowing : s.peerStoppedFlow = false

def queueSize (s : ProtocolState) : Nat := s.waitQueueReliable.length + s.waitQueueUnreliable.length

/-- The queries of an event that leads to `t`. -/
inductive Asked (t : ProtocolState) (qs : List (Bool × Bool)) : Prop
  | nothing (hqs : qs = [])
  | payload (halive : t.aliveState.isAlive = true) (hempty : t.waitQueueUnreliable = [])
      (hcause : t.waitQueueReliable = [] ∨ t.peerStoppedFlow = true)
      (hqs : qs = [(t.waitQueueReliable.isEmpty && !t.peerStoppedFlow, true)])

section
variable {s t : ProtocolState} {o : List Effect}

theorem queries_append (o o' : List Effect) : queries (o ++ o') = queries o ++ queries o' :=
  List.filterMap_append

theorem queries_mild (h : AllMild o) : queries o = [] := by
  refine List.filterMap_eq_nil_iff.mpr fun x hx => ?_
  cases x with
  | queryForPayload => exact (h _ hx).elim
  | _ => rfl

theorem queries_transmits {f : HdlcFrame} (h : Transmits f o) : queries o = [] := by
  obtain ⟨copies, buffer, rfl, _, hcopies⟩ := h
  rw [queries_append]
  refine List.append_eq_nil_iff.mpr ⟨List.filterMap_eq_nil_iff.mpr fun x hx => ?_, rfl⟩
  cases x with
  | queryForPayload => exact (hcopies _ hx).elim
  | _ => rfl

theorem Ends.asked (h : Ends s t o) : Asked t (queries o) := by
  obtain ⟨hspent, hending⟩ := h
  cases hending with
  | silent | fault | waiting => exact .nothing rfl
  | frame hsent => exact .nothing (queries_transmits hsent)
  | query hopen hawaits hempty hcause =>
    have halive := congrArg (·.2.2.1.isAlive) hspent.same
    exact .payload (halive.trans hopen.alive) hempty.2 hcause rfl

theorem Concluded.queries {e : Event} (h : Concluded e s t o) :
    queries o = [] ∨ ∃ xs, Ends (prepare e s).state t xs ∧ queries o = ProtocolState.queries xs := by
  have hmild := queries_mild (prepare_mild e s)
  cases h with
  | opportunity xs hopen hends ho =>
    rw [ho, queries_append, hmild]
    exact .inr ⟨xs, hends, rfl⟩
  | quiet hquiet ht ho =>
    rw [ho, hmild]
    exact .inl rfl

theorem handle_asked (hs : Consistent s) (e : Event) :
    Asked (handle e s).1 (queries (handle e s).2) := by
  rcases (handle_concluded hs e).queries with hnone | ⟨xs, hends, hqs⟩
  · exact .nothing hnone
  · rw [hqs]
    exact hends.asked

theorem sendPayload_asked (hs : Consistent s) (payload : Payload) (reliable : Bool)
    (h : queries (handle (.internal (.sendPayload payload reliable)) s).2 ≠ []) :
    reliable = true ∧
      (handle (.internal (.sendPayload payload reliable)) s).1.waitQueueReliable ≠ [] := by
  rcases (handle_concluded hs (.internal (.sendPayload payload reliable))).queries with
    hnone | ⟨xs, ⟨hspent, hending⟩, hqs⟩
  · exact absurd hnone h
  · have hqueue := congrArg (·.2.2.2.1) hspent.same
    dsimp only at hqueue
    rw [hqs] at h
    cases hending with
    | silent | fault | waiting => exact absurd rfl h
    | frame hsent => exact absurd (queries_transmits hsent) h
    | query hopen hawaits hempty =>
      have hnone : (s.enqueue payload reliable).waitQueueUnreliable = [] := hempty.1
      cases reliable with
      | false => simp [enqueue] at hnone
      | true =>
        rw [hqueue]
        exact ⟨rfl, by simp [prepare, prepareLocal, enqueue]⟩

theorem asked_dead (hs : Consistent s) {e : Event} (hdead : (handle e s).1.aliveState.isAlive = false) :
    queries (handle e s).2 = [] := by
  cases handle_asked hs e with
  | nothing hqs => exact hqs
  | payload halive => exact absurd halive (by rw [hdead]; decide)

theorem not_idle_of_busy (h : s.awaitsNextHDLCFrame = false) : ¬ Idle s := by
  intro hidle
  have hawaits := hidle.awaits
  rw [h] at hawaits
  exact Bool.noConfusion hawaits

theorem not_idle_of_dead (h : s.aliveState.isAlive = false) : ¬ Idle s := by
  intro hidle
  have halive := hidle.alive
  rw [h] at halive
  exact Bool.noConfusion halive

theorem Ends.idle (hs : Consistent s) (h : Ends s t o) (hidle : Idle t) : queries o = [(true, true)] := by
  obtain ⟨hspent, hending⟩ := h
  cases hending with
  | silent hsame hclosed =>
    subst hsame
    rcases hclosed with hbusy | ⟨_, hdead⟩
    · exact absurd hidle (not_idle_of_busy hbusy)
    · exact absurd hidle (not_idle_of_dead hdead)
  | fault hnull =>
    have halive := congrArg (·.2.2.1.isAlive) hspent.same
    have hhandler := (hs.running (halive.symm.trans hidle.alive)).2
    rw [hnull] at hhandler
    exact Bool.noConfusion hhandler
  | frame _ _ hbusy => exact absurd hidle (not_idle_of_busy hbusy)
  | query =>
    rw [hidle.reliable, hidle.flowing]
    rfl
  | waiting _ _ hqueued => exact absurd hidle.reliable hqueued

theorem prepareLocal_idle {e : LocalEvent} {p : Preparation} (hp : Prepared s e p)
    (hquiet : p.opportunity = false) (hidle : Idle p.state) :
    Idle s ∧ ∀ payload reliable, e ≠ .sendPayload payload reliable := by
  cases hp with
  | start | trigger | retransmission | rnrPoll => exact Bool.noConfusion hquiet
  | stop | shutdown => exact absurd hidle (not_idle_of_dead rfl)
  | sendPayload payload reliable =>
    refine absurd hidle (not_idle_of_busy (Eq.trans ?_ hquiet))
    cases reliable <;> rfl
  | stateTimer a halive _ _ _ e he =>
    refine ⟨⟨halive hidle.alive, hidle.awaits, hidle.reliable, hidle.unreliable, hidle.flowing⟩, ?_⟩
    rcases he with rfl | rfl <;> simp
  | probe =>
    have halive := hidle.alive
    rw [prepareProbeTimer_isAlive] at halive
    exact ⟨⟨halive, hidle.awaits, hidle.reliable, hidle.unreliable, hidle.flowing⟩, by simp⟩
  | expire | rnrOver | probeExpire =>
    exact ⟨⟨hidle.alive, hidle.awaits, hidle.reliable, hidle.unreliable, hidle.flowing⟩, by simp⟩
  | ignored e _ hsend => exact ⟨hidle, hsend⟩

theorem prepare_idle {e : Event} (hquiet : (prepare e s).opportunity = false)
    (hidle : Idle (prepare e s).state) :
    Idle s ∧ ∀ payload reliable, e ≠ .internal (.sendPayload payload reliable) := by
  cases e with
  | internal e =>
    obtain ⟨hbefore, hsend⟩ := prepareLocal_idle (prepared e s) hquiet hidle
    exact ⟨hbefore, fun payload reliable heq => hsend payload reliable (Event.internal.inj heq)⟩
  | frame buffer messageInvalid =>
    refine ⟨?_, by simp⟩
    unfold prepare prepareFrame at hquiet hidle
    dsimp only at hquiet hidle
    split_ifs at hquiet hidle
    · exact hidle
    · exact hidle
    · exact hidle
    · exact absurd hidle (not_idle_of_busy hquiet)

theorem handle_idle (hs : Consistent s) {e : Event} (hidle : Idle (handle e s).1) :
    queries (handle e s).2 = [(true, true)] ∨
      Idle s ∧ ∀ payload reliable, e ≠ .internal (.sendPayload payload reliable) := by
  cases handle_concluded hs e with
  | opportunity xs hopen hends ho =>
    rw [ho, queries_append, queries_mild (prepare_mild e s)]
    exact .inl (hends.idle (hs.prepare e) hidle)
  | quiet hquiet ht =>
    rw [ht] at hidle
    exact .inr (prepare_idle hquiet hidle)

theorem sendPayload_not_idle (hs : Consistent s) (payload : Payload) (reliable : Bool) :
    ¬ Idle (handle (.internal (.sendPayload payload reliable)) s).1 := by
  intro hidle
  rcases handle_idle hs hidle with hquery | ⟨_, hsend⟩
  · have hqueued := sendPayload_asked hs payload reliable
      (by rw [hquery]; exact List.cons_ne_nil _ _)
    exact hqueued.2 hidle.reliable
  · exact hsend payload reliable rfl

theorem Idle.sendPayload_opportunity (hidle : Idle s) (payload : Payload) (reliable : Bool) :
    handle (.internal (.sendPayload payload reliable)) s =
      opportunityForTransmission (s.enqueue payload reliable) := by
  have hwakes := enqueue_wakes payload reliable s
  dsimp only at hwakes
  show sendPayload payload reliable s = _
  unfold sendPayload
  simp only [andThen_apply, update, hwakes, hidle.awaits]
  rfl

theorem Idle.not_passes (hs : Consistent s) (hidle : Idle s) (payload : Payload) :
    ¬ Passes (s.enqueue payload true) := by
  intro hpasses
  rcases hpasses.reliable with hnone | hwaits | hstopped
  · exact absurd hnone (List.append_ne_nil_of_right_ne_nil _ (List.cons_ne_nil payload []))
  · exact (hs.waiting hwaits).2.1 hidle.reliable
  · exact Bool.false_ne_true (hidle.flowing.symm.trans hstopped)

/-- A payload that comes then makes the entity send at once: the frame that carries it, unless a probe,
an SREJ or an RR is due. -/
theorem Idle.sends (hs : Consistent s) (hidle : Idle s) (payload : Payload) (reliable : Bool) :
    ∃ f, Transmits f (handle (.internal (.sendPayload payload reliable)) s).2 ∧
      (s.sendProbe = false → s.srejs = [] → reliable = true ∨ s.peerRequiresAck = false →
        f.payload = payload ∧ f.isIFrame = reliable) := by
  let P : Assertion ProtocolState Effect := fun _ o => ∃ f, Transmits f o ∧
    (s.sendProbe = false → s.srejs = [] → reliable = true ∨ s.peerRequiresAck = false →
      f.payload = payload ∧ f.isIFrame = reliable)
  have hsends {f : HdlcFrame} {t : ProtocolState} (hf : s.sendProbe = false → s.srejs = [] →
      reliable = true ∨ s.peerRequiresAck = false → f.payload = payload ∧ f.isIFrame = reliable) :
      Sends P f t [] := fun xs hxs => ⟨f, hxs, hf⟩
  have hkept : (s.enqueue payload reliable).serialPortHandler = true ∧
      (s.enqueue payload reliable).awaitsNextHDLCFrame = true ∧
      (s.enqueue payload reliable).aliveState.isAlive = true ∧
      (s.enqueue payload reliable).sendProbe = s.sendProbe ∧ (s.enqueue payload reliable).srejs = s.srejs ∧
      (s.enqueue payload reliable).peerRequiresAck = s.peerRequiresAck := by
    cases reliable <;> exact ⟨(hs.running hidle.alive).2, hidle.awaits, hidle.alive, rfl, rfl, rfl⟩
  obtain ⟨hhandler, hawaits, halive, hprobe, hsrejs, hack⟩ := hkept
  have hpassed (hpasses : Passes (s.enqueue payload reliable)) : reliable = false := by
    cases reliable with
    | false => rfl
    | true => exact absurd hpasses (hidle.not_passes hs payload)
  have hacknowledges {f : HdlcFrame} {t : ProtocolState} (hpasses : Passes (s.enqueue payload reliable))
      (hdue : (s.enqueue payload reliable).peerRequiresAck = true) : Sends P f t [] := by
    refine hsends fun _ _ hfirst => ?_
    rw [hpassed hpasses, ← hack, hdue] at hfirst
    exact absurd hfirst (by decide)
  have hqueued {t : ProtocolState} (ht : Unacknowledged (s.enqueue payload reliable) t) :
      reliable = false ∧ t.waitQueueReliable = [] ∧ t.waitQueueUnreliable = [payload] := by
    obtain rfl := hpassed ht.1
    have hqueue : s.waitQueueUnreliable ++ [payload] = [payload] := by rw [hidle.unreliable, List.nil_append]
    rcases ht.2 with ⟨_, rfl⟩ | ⟨_, _, rfl⟩ <;> exact ⟨rfl, hidle.reliable, hqueue⟩
  have hout : Outcome P (s.enqueue payload reliable) [] := by
    constructor
    case silent =>
      rintro (hbusy | ⟨_, hdead⟩)
      · exact absurd (hawaits.symm.trans hbusy) Bool.noConfusion
      · exact absurd (halive.symm.trans hdead) Bool.noConfusion
    case fault => exact fun _ _ hnull => absurd (hhandler.symm.trans hnull) Bool.noConfusion
    case probe =>
      exact fun _ hdue _ => hsends fun hnone => absurd (hnone.symm.trans (hprobe.symm.trans hdue)) Bool.noConfusion
    case srej =>
      exact fun _ _ _ hdue => hsends fun _ hnone =>
        absurd (hnone.symm.trans (hsrejs.symm.trans hdue)) (List.cons_ne_nil _ _).symm
    case iFrame =>
      intro front rest _ _ hq _ _
      cases reliable with
      | false => exact absurd (hidle.reliable.symm.trans hq) (List.cons_ne_nil _ _).symm
      | true =>
        have hqueue : s.waitQueueReliable ++ [payload] = front :: rest := hq
        rw [hidle.reliable, List.nil_append] at hqueue
        exact hsends fun _ _ _ => ⟨(List.cons.inj hqueue).1.symm, rfl⟩
    case poll => exact fun hpasses _ hdue _ _ => hacknowledges hpasses hdue
    case rr => exact fun hpasses _ hdue _ => hacknowledges hpasses hdue
    case uiFrame =>
      intro t front rest ht hq
      obtain ⟨rfl, _, hqueue⟩ := hqueued ht
      exact hsends fun _ _ _ => ⟨(List.cons.inj (hqueue.symm.trans hq)).1.symm, rfl⟩
    case query =>
      exact fun t ht hnone => absurd ((hqueued ht).2.2.symm.trans hnone) (List.cons_ne_nil _ _)
    case idle => exact fun t ht _ hwaiting => absurd (hqueued ht).2.1 hwaiting
  rw [hidle.sendPayload_opportunity]
  exact hout.opportunityForTransmission fun _ => hhandler

theorem Spent.queueSize (h : Spent s t) : queueSize t ≤ queueSize s := by
  have hqueue := congrArg (·.2.2.2.1) h.same
  dsimp only at hqueue
  unfold ProtocolState.queueSize
  rw [hqueue]
  exact Nat.add_le_add_left h.unreliable _

theorem Acked.queueSize {f : HdlcFrame} (h : Acked f s t) : queueSize t ≤ queueSize s := by
  have hsame := h.same
  simp only [unacknowledgedMembers, Prod.mk.injEq] at hsame
  obtain ⟨_, _, _, _, _, _, _, _, hunreliable, _⟩ := hsame
  unfold ProtocolState.queueSize
  rw [hunreliable]
  refine Nat.add_le_add_right ?_ _
  rcases h.reliable with hq | ⟨_, _, front, hq⟩
  · rw [hq]
  · rw [hq, List.length_cons]
    exact Nat.le_succ _

def uiFrameNext (s : ProtocolState) : Bool :=
  s.awaitsNextHDLCFrame && !s.sendProbe && s.aliveState.isAlive && s.srejs.isEmpty &&
    (s.waitQueueReliable.isEmpty || s.waitForAck || s.peerStoppedFlow) &&
    (s.peerStoppedFlowNew || !s.peerRequiresAck)

theorem sendUnreliable_queueSize (hhandler : s.serialPortHandler = true) (hqueued : s.waitQueueUnreliable ≠ []) :
    queueSize (sendUnreliable s).1 + 1 = queueSize s := by
  obtain ⟨front, rest, hqueue⟩ := List.exists_cons_of_ne_nil hqueued
  obtain ⟨buffer, hbuffer⟩ := exists_serializeFrame (f := prepareUFrameUI front) rfl
  have hsent : (sendUnreliable s).1 = { s with waitQueueUnreliable := rest, awaitsNextHDLCFrame := false } := by
    unfold sendUnreliable withSerialPortHandler branch
    rw [hqueue]
    dsimp only
    rw [if_pos hhandler]
    simp only [andThen_apply, emit, update, transmitFrame_eq hbuffer]
  rw [hsent, queueSize, queueSize, hqueue, List.length_cons]
  rfl

theorem sendPayload_uiFrame (hs : Consistent s) (h : s.uiFrameNext = true) (payload : Payload) :
    queueSize (handle (.internal (.sendPayload payload false)) s).1 = queueSize s := by
  unfold uiFrameNext at h
  simp only [Bool.and_eq_true, Bool.not_eq_true', List.isEmpty_iff] at h
  obtain ⟨⟨⟨⟨⟨hawaits, hprobe⟩, halive⟩, hsrejs⟩, hreliable⟩, hack⟩ := h
  obtain ⟨hstarted, hhandler⟩ := hs.running halive
  let t : ProtocolState := { s with waitQueueUnreliable := s.waitQueueUnreliable ++ [payload] }
  have hqueued : t.waitQueueUnreliable ≠ [] := List.append_ne_nil_of_right_ne_nil _ (List.cons_ne_nil payload [])
  have hacked : queueSize (sendAck t).1 + 1 = queueSize t := by
    unfold sendAck branch
    split_ifs with hnew hrequired
    · exact sendUnreliable_queueSize (s := startRnrTimer { t with peerStoppedFlowNew := false }) hhandler hqueued
    · rw [show s.peerRequiresAck = true from hrequired, show s.peerStoppedFlowNew = false by simpa using hnew] at hack
      exact absurd hack Bool.false_ne_true
    · exact sendUnreliable_queueSize (s := t) hhandler hqueued
  have hpassed : sendReliable t = sendAck t := by
    unfold sendReliable
    cases hqueue : t.waitQueueReliable with
    | nil => rfl
    | cons front rest =>
      refine if_neg fun hsends => ?_
      rw [show s.waitQueueReliable = front :: rest from hqueue] at hreliable
      simp only [Bool.and_eq_true, Bool.not_eq_true'] at hsends
      rw [show s.waitForAck = false from hsends.1, show s.peerStoppedFlow = false from hsends.2] at hreliable
      exact absurd hreliable (by simp)
  have hsent : handle (.internal (.sendPayload payload false)) s = sendAck t := by
    show sendPayload payload false s = _
    have hbusy : ¬ (!t.awaitsNextHDLCFrame) = true := by rw [show t.awaitsNextHDLCFrame = true from hawaits]; decide
    have hunprobed : ¬ t.sendProbe = true := by rw [show t.sendProbe = false from hprobe]; decide
    have hopen : opportunityForTransmission t = sendAck t := by
      unfold opportunityForTransmission branch
      rw [if_neg hbusy, if_neg hunprobed, if_pos (show t.aliveState.isAlive = true from halive)]
      unfold sendOutstanding
      rw [show t.srejs = [] from hsrejs]
      exact hpassed
    have hallowed : (t.awaitsNextHDLCFrame && (t.started || !t.peerStoppedFlow || !t.waitQueueReliable.isEmpty ||
        (t.started || !t.waitQueueUnreliable.isEmpty))) = true := by
      rw [show t.awaitsNextHDLCFrame = true from hawaits, show t.started = true from hstarted]
      rfl
    exact (if_pos hallowed).trans hopen
  rw [hsent]
  have hsize : queueSize t = queueSize s + 1 := by
    show s.waitQueueReliable.length + (s.waitQueueUnreliable ++ [payload]).length = _
    rw [List.length_append, queueSize]
    rfl
  omega

def submits : Event → Nat
  | .internal (.sendPayload _ _) => 1
  | _ => 0

theorem prepare_queueSize (e : Event) (s : ProtocolState) :
    queueSize (prepare e s).state ≤ queueSize s + submits e := by
  cases e with
  | internal e =>
    show queueSize (prepareLocal e s).state ≤ _
    generalize hp : prepareLocal e s = p
    have hprepared := prepared e s
    rw [hp] at hprepared
    cases hprepared with
    | sendPayload payload reliable =>
      cases reliable <;> simp only [queueSize, enqueue, submits, Bool.false_eq_true, if_false, if_true,
        List.length_append, List.length_singleton] <;> omega
    | _ => exact Nat.le_add_right _ _
  | frame buffer messageInvalid =>
    unfold prepare prepareFrame
    dsimp only
    split_ifs
    · exact le_rfl
    · exact le_rfl
    · exact le_rfl
    · exact (checkAcks_acked _ (afterReceive _ s)).queueSize

theorem handle_queueSize (hs : Consistent s) (e : Event) :
    queueSize (handle e s).1 ≤ queueSize s + submits e := by
  cases handle_concluded hs e with
  | opportunity xs hopen hends ho => exact hends.1.queueSize.trans (prepare_queueSize e s)
  | quiet hquiet ht ho =>
    rw [ht]
    exact prepare_queueSize e s

end
end Hdlcd.ProtocolState
