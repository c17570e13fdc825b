import Hdlcd.Port.Entity

/-! What an open port has going on: its protocol state runs, a read of this opening is under way,
and as long as the end of a frame is awaited there is a write that will report it. -/

namespace Hdlcd

namespace ProtocolState
open Reactive Action

theorem opportunity_busies {s : ProtocolState} (hs : Consistent s) (hfree : s.awaitsNextHDLCFrame = true)
    (hbusy : (opportunityForTransmission s).1.awaitsNextHDLCFrame = false) :
    ∃ f buffer, .transmitHDLCFrame f buffer ∈ (opportunityForTransmission s).2 := by
  let P : Assertion ProtocolState Effect := fun t o =>
    t.awaitsNextHDLCFrame = false → ∃ f buffer, .transmitHDLCFrame f buffer ∈ o
  have hsends {f : HdlcFrame} {t : ProtocolState} : Sends P f t [] := by
    rintro xs ⟨copies, buffer, rfl, _⟩ _
    refine ⟨f, buffer, ?_⟩
    rw [List.nil_append]
    exact List.mem_append_right _ (List.mem_singleton.mpr rfl)
  have hfreed {t : ProtocolState} {o : List Effect} (ht : t.awaitsNextHDLCFrame = true) : P t o :=
    fun hawaits => Bool.noConfusion (ht.symm.trans hawaits)
  have hout : Outcome P s [] := by
    constructor
    case silent => exact fun _ => hfreed hfree
    case fault => exact fun _ _ _ => hfreed hfree
    case probe => exact fun _ _ _ => hsends
    case srej => exact fun _ _ _ _ => hsends
    case iFrame => exact fun _ _ _ _ _ _ _ => hsends
    case poll => exact fun _ _ _ _ _ => hsends
    case rr => exact fun _ _ _ _ => hsends
    case uiFrame => exact fun _ _ _ _ _ => hsends
    case query => exact fun _ ht _ _ => hfreed ht.awaits
    case idle => exact fun _ ht _ _ _ => hfreed ht.awaits
  exact hout.opportunityForTransmission (fun halive => (hs.running halive).2) hbusy

theorem handle_busies {s : ProtocolState} (hs : Consistent s) {e : Event}
    (hfree : (prepare e s).state.awaitsNextHDLCFrame = true) (hbusy : (handle e s).1.awaitsNextHDLCFrame = false) :
    ∃ f buffer, .transmitHDLCFrame f buffer ∈ (handle e s).2 := by
  rw [handle_eq, Preparation.finish] at hbusy ⊢
  split_ifs at hbusy ⊢
  · obtain ⟨f, buffer, hsent⟩ := opportunity_busies (hs.prepare e) hfree hbusy
    exact ⟨f, buffer, List.mem_append_right _ hsent⟩
  · exact Bool.noConfusion (hfree.symm.trans hbusy)

end ProtocolState

namespace Port
open Reactive Action ProtocolState

structure Running (s : Port) : Prop where
  connected : s.connections ≠ []
  consistent : Consistent s.protocolState
  started : s.registered = true → s.serialPortLock.nbrOfLocks = 0 → s.protocolState.started = true

def Reads (s : Port) : Prop :=
  s.registered = true → s.serialPortLock.nbrOfLocks = 0 →
    s.serialPort.Reading ∨ .readHandler s.serialPort.openings ∈ s.calls

def Writes (s : Port) : Prop :=
  s.registered = true → s.serialPortLock.nbrOfLocks = 0 →
    s.protocolState.awaitsNextHDLCFrame = false → s.serialPort.currentWrites ≠ []

structure Vigilant (s : Port) : Prop extends Running s where
  reads : Reads s
  writes : Writes s

/-- The port is locked, or it has ended. -/
structure Dormant (s : Port) : Prop where
  connected : s.connections ≠ []
  consistent : Consistent s.protocolState
  closed : s.registered = true → s.serialPortLock.nbrOfLocks ≠ 0

def StaysVigilant : Assertion Port Output := fun s _ => Vigilant s

def StaysDormant : Assertion Port Output := fun s _ => Dormant s

section
variable {s t : Port} {o : List Output} {c : ClientId}

theorem Dormant.vigilant (h : Dormant s) : Vigilant s where
  connected := h.connected
  consistent := h.consistent
  started hreg hnbr := absurd hnbr (h.closed hreg)
  reads hreg hnbr := absurd hnbr (h.closed hreg)
  writes hreg hnbr := absurd hnbr (h.closed hreg)

theorem Vigilant.congr (h : Vigilant s) (hsame : lineMembers t = lineMembers s) : Vigilant t := by
  simp only [lineMembers, Prod.mk.injEq] at hsame
  obtain ⟨hregistered, hport, hps, _, _, hlock, hconnections, hcalls⟩ := hsame
  refine ⟨⟨?_, by rw [hps]; exact h.consistent, ?_⟩, ?_, ?_⟩
  · rw [← List.isEmpty_eq_false_iff, hconnections, List.isEmpty_eq_false_iff]
    exact h.connected
  · rw [hregistered, hlock, hps]
    exact h.started
  · unfold Reads
    rw [hregistered, hlock, hport, hcalls]
    exact h.reads
  · unfold Writes
    rw [hregistered, hlock, hps, hport]
    exact h.writes

theorem callProtocolState_writing {e : Hdlcd.Event} (hs : Consistent s.protocolState)
    (hwriting : (prepare e s.protocolState).state.awaitsNextHDLCFrame = false → s.serialPort.currentWrites ≠ [])
    (hbusy : (callProtocolState (handle e) s).1.protocolState.awaitsNextHDLCFrame = false) :
    (callProtocolState (handle e) s).1.serialPort.currentWrites ≠ [] := by
  cases callProtocolState_conveys hs e with
  | nothing hsame hnone _ =>
    simp only [frameMembers, Prod.mk.injEq] at hsame
    obtain ⟨_, _, hport, hps, _⟩ := hsame
    rw [hport]
    refine hwriting (Bool.eq_false_of_not_eq_true fun hfree => ?_)
    rw [hps] at hbusy
    obtain ⟨f, buffer, hsent⟩ := handle_busies hs hfree hbusy
    have hframes : framesSent (callProtocolState (handle e) s).2 = (handle e s.protocolState).2.filterMap frameOf :=
      effects_frames _ _
    have hmem : f ∈ framesSent (callProtocolState (handle e) s).2 := by
      rw [hframes]
      exact List.mem_filterMap.mpr ⟨_, hsent, rfl⟩
    rw [hnone] at hmem
    exact List.not_mem_nil hmem
  | frame f _ hwritten _ _ _ =>
    simp only [frameMembers, Prod.mk.injEq] at hwritten
    obtain ⟨_, _, hport, _⟩ := hwritten
    rw [hport, ← List.length_pos_iff, SerialPort.currentWrites_asyncWriteSome]
    exact Nat.succ_pos _

theorem callProtocolState_running {e : Hdlcd.Event} (hconnected : s.connections ≠ [])
    (hs : Consistent s.protocolState)
    (hstarted : s.registered = true → s.serialPortLock.nbrOfLocks = 0 →
      (prepare e s.protocolState).state.started = true) : Running (callProtocolState (handle e) s).1 := by
  have hsame := (callProtocolState_done (handle e) s).served.same
  simp only [servedMembers, Prod.mk.injEq] at hsame
  obtain ⟨hregistered, hps, _, hlock, hconnections, _⟩ := hsame
  refine ⟨by rw [hconnections]; exact hconnected, by rw [hps]; exact hs.handle e, ?_⟩
  rw [hregistered, hlock, hps, handle_started hs e, ← prepare_started]
  exact hstarted

theorem callProtocolState_reads (h : Reads s) (e : Hdlcd.Event) : Reads (callProtocolState (handle e) s).1 := by
  have hdone := callProtocolState_done (handle e) s
  have hsame := hdone.served.same
  simp only [servedMembers, Prod.mk.injEq] at hsame
  obtain ⟨hregistered, _, _, hlock, _, _, hopenings, hreads, _⟩ := hsame
  unfold Reads SerialPort.Reading
  rw [hregistered, hlock, hopenings, hreads, hdone.calls]
  exact fun hreg hnbr => (h hreg hnbr).imp_right (List.mem_append_right _)

theorem callProtocolState_writes {e : Hdlcd.Event} (hs : Consistent s.protocolState)
    (hwrites : s.registered = true → s.serialPortLock.nbrOfLocks = 0 →
      (prepare e s.protocolState).state.awaitsNextHDLCFrame = false → s.serialPort.currentWrites ≠ []) :
    Writes (callProtocolState (handle e) s).1 := by
  have hsame := (callProtocolState_done (handle e) s).served.same
  simp only [servedMembers, Prod.mk.injEq] at hsame
  obtain ⟨hregistered, _, _, hlock, _⟩ := hsame
  unfold Writes
  rw [hregistered, hlock]
  exact fun hreg hnbr => callProtocolState_writing hs (hwrites hreg hnbr)

theorem Vigilant.event (h : Vigilant s) {e : Hdlcd.Event}
    (hsame : ((prepare e s.protocolState).state.started, (prepare e s.protocolState).state.awaitsNextHDLCFrame) =
      (s.protocolState.started, s.protocolState.awaitsNextHDLCFrame)) :
    Vigilant (callProtocolState (handle e) s).1 := by
  obtain ⟨hstarted, hawaits⟩ := Prod.mk.inj hsame
  refine ⟨callProtocolState_running h.connected h.consistent ?_, callProtocolState_reads h.reads e,
    callProtocolState_writes h.consistent ?_⟩
  · rw [hstarted]
    exact h.started
  · rw [hawaits]
    exact h.writes

theorem Dormant.event (h : Dormant s) (e : Hdlcd.Event) : Dormant (callProtocolState (handle e) s).1 := by
  have hsame := (callProtocolState_done (handle e) s).served.same
  simp only [servedMembers, Prod.mk.injEq] at hsame
  obtain ⟨hregistered, hps, _, hlock, hconnections, _⟩ := hsame
  refine ⟨by rw [hconnections]; exact h.connected, by rw [hps]; exact h.consistent.handle e, ?_⟩
  rw [hregistered, hlock]
  exact h.closed

theorem wired_vigilant : Wired StaysVigilant where
  connected h := h.connected
  members h hsame := Vigilant.congr h hsame
  foreign h _ := h
  parser p h := ⟨⟨h.connected, h.consistent.congr rfl, h.started⟩, h.reads, h.writes⟩
  push x hx h := ⟨⟨h.connected, h.consistent, h.started⟩,
    fun hreg hnbr => (h.reads hreg hnbr).imp_right (List.mem_cons_of_mem _), h.writes⟩
  pop := by
    intro s o x calls hcalls hx h
    refine ⟨⟨h.connected, h.consistent, h.started⟩, fun hreg hnbr => ?_, h.writes⟩
    refine (h.reads hreg hnbr).imp_right fun hmem => ?_
    rw [hcalls] at hmem
    refine (List.mem_cons.mp hmem).resolve_left ?_
    rintro rfl
    exact hx
  event he s _ h := by
    have hsame := prepare_peaceful he s.protocolState
    simp only [passMembers, Prod.mk.injEq] at hsame
    exact h.event (Prod.ext hsame.1 hsame.2.1)

theorem halt_dormant (e : LocalEvent) : Maintains StaysDormant (callProtocolState (handleLocal e)) :=
  fun _ _ h => Dormant.event h (.internal e)

theorem stopClients_dormant : Maintains StaysDormant stopClients := by
  intro s _ h
  have hsame := stopClients_line s
  simp only [lineMembers, Prod.mk.injEq] at hsame
  obtain ⟨hregistered, _, hps, _, _, hlock, hconnections, _⟩ := hsame
  refine ⟨?_, by rw [hps]; exact h.consistent, by rw [hregistered, hlock]; exact h.closed⟩
  rw [← List.isEmpty_eq_false_iff, hconnections, List.isEmpty_eq_false_iff]
  exact h.connected

theorem dissolve_dormant : Maintains StaysDormant dissolve := (halt_dormant .shutdown).andThen stopClients_dormant

theorem closeSerialPort_dormant : Maintains StaysDormant closeSerialPort := fun _ _ h =>
  wp_closeSerialPort ⟨h.connected, h.consistent, h.closed⟩

theorem stop_vigilant (hconnected : s.connections ≠ []) (hs : Consistent s.protocolState) :
    stop.wp StaysVigilant s o := by
  refine wp_andThen.mpr (wp_emit.mpr (wp_branch (fun _ => ?_) fun hunreg => wp_skip.mpr ?_))
  · refine wp_mono (P := StaysDormant) (wp_andThen.mpr (wp_update.mpr ?_)) fun _ _ h => h.vigilant
    exact (closeSerialPort_dormant.andThen dissolve_dormant) _ _
      ⟨hconnected, hs, fun hreg => Bool.noConfusion hreg⟩
  · exact Dormant.vigilant ⟨hconnected, hs, fun hreg => Bool.noConfusion (hunreg.symm.trans hreg)⟩

theorem suspendSerialPort_vigilant : Maintains StaysVigilant suspendSerialPort := by
  have hclosed : Maintains StaysDormant ((emit [.suspended]).andThen
      ((Port.callProtocolState ProtocolState.stop).andThen closeSerialPort)) :=
    (Maintains.emit fun _ _ h => h).andThen ((halt_dormant .stop).andThen closeSerialPort_dormant)
  refine Maintains.branch (fun s o h => ?_) .skip
  have hlocked : StaysDormant { s with serialPortLock := s.serialPortLock.suspendSerialPort.1 } o :=
    ⟨h.connected, h.consistent, fun _ => Nat.succ_ne_zero _⟩
  refine wp_of_eq (b := (if s.serialPortLock.suspendSerialPort.2 = true then
      (emit [.suspended]).andThen ((Port.callProtocolState ProtocolState.stop).andThen closeSerialPort)
      else skip).andThen propagateSerialPortState) rfl ?_
  refine wp_andThen.mpr (wp_mono ((hclosed.ite .skip) _ _ hlocked) fun t o h => ?_)
  exact wired_vigilant.propagateSerialPortState _ _ h.vigilant

theorem doRead_vigilant (h : Running s) (hwrites : Writes s) : doRead.wp StaysVigilant s o := by
  refine wp_andThen.mpr (wp_emit.mpr (wp_update.mpr ⟨⟨h.connected, h.consistent, h.started⟩, ?_, hwrites⟩))
  exact fun _ _ => .inl ⟨_, List.mem_append_right _ (List.mem_singleton.mpr rfl), rfl⟩

theorem openSerialPort_vigilant (opens : OpenResult) (hconnected : s.connections ≠ [])
    (hs : Consistent s.protocolState) :
    (openSerialPort opens).wp StaysVigilant s o := by
  cases opens with
  | opened =>
    let opened : Port := { s with serialPort := s.serialPort.openPort }
    have hstarted : Running (callProtocolState (handle (.internal .start)) opened).1 :=
      callProtocolState_running hconnected hs fun _ _ => rfl
    have hwrites : Writes (callProtocolState (handle (.internal .start)) opened).1 :=
      callProtocolState_writes hs fun _ _ hbusy => Bool.noConfusion hbusy
    refine wp_andThen.mpr (wp_update.mpr (wp_andThen.mpr (wp_andThen.mpr ?_)))
    exact wp_mono (doRead_vigilant hstarted hwrites) wired_vigilant.propagateSerialPortState
  | failed =>
    refine wp_mono (P := StaysDormant) (wp_andThen.mpr (wp_update.mpr ?_)) fun _ _ h => h.vigilant
    exact dissolve_dormant _ _ ⟨hconnected, hs, fun hreg => Bool.noConfusion hreg⟩
  | notConfigured =>
    refine wp_mono (P := StaysDormant) (wp_andThen.mpr (wp_update.mpr ?_)) fun _ _ h => h.vigilant
    refine wp_andThen.mpr (wp_update.mpr ?_)
    exact dissolve_dormant _ _ ⟨hconnected, hs, fun hreg => Bool.noConfusion hreg⟩

theorem resumeSerialPort_vigilant (opens : OpenResult) : Maintains StaysVigilant (resumeSerialPort opens) := by
  intro s o h
  refine wp_branch (fun _ => ?_) fun _ => wp_skip.mpr h
  refine wp_of_eq (b := if s.serialPortLock.resumeSerialPort.2 = true then
      (emit [.resumed]).andThen (openSerialPort opens) else propagateSerialPortState) rfl ?_
  split_ifs with hlast
  · exact wp_andThen.mpr (wp_emit.mpr (openSerialPort_vigilant opens h.connected h.consistent))
  · have hlocked : Dormant { s with serialPortLock := s.serialPortLock.resumeSerialPort.1 } :=
      ⟨h.connected, h.consistent, fun _ hnbr => hlast (beq_iff_eq.mpr hnbr)⟩
    exact wired_vigilant.propagateSerialPortState _ _ hlocked.vigilant

theorem error_vigilant (hconnected : s.connections ≠ []) (hs : Consistent s.protocolState) :
    (branch (·.serialPortLock.getSerialPortState) skip stop).wp StaysVigilant s o := by
  refine wp_branch (fun hlocked => wp_skip.mpr ?_) fun _ => stop_vigilant hconnected hs
  exact Dormant.vigilant ⟨hconnected, hs, fun _ hnbr => absurd hnbr (bne_iff_ne.mp hlocked)⟩

theorem readHandler_vigilant {i : Nat} (hidle : s.calls = []) (h : Vigilant s) :
    (readHandler i).wp StaysVigilant s o := by
  unfold wp readHandler
  split
  · rename_i r hr
    split
    · rename_i result _
      cases result with
      | error => exact error_vigilant h.connected h.consistent
      | success bytes =>
        have hpushed : Vigilant { s with
            serialPort := { s.serialPort with reads := s.serialPort.reads.eraseIdx i }
            calls := .readHandler r.opening :: s.calls } := by
          refine ⟨⟨h.connected, h.consistent, h.started⟩, fun hreg hnbr => ?_, h.writes⟩
          by_cases hcurrent : r.opening = s.serialPort.openings
          · exact .inr (hcurrent ▸ List.mem_cons_self ..)
          · have hread := (h.reads hreg hnbr).resolve_right (by rw [hidle]; exact List.not_mem_nil)
            exact .inl (hread.eraseIdx hr hcurrent)
        show (onRead r (.success bytes)).wp StaysVigilant _ _
        refine wp_andThen.mpr (wp_update.mpr ?_)
        exact ((wired_vigilant.pushCall (x := .addReceivedRawBytes 0 bytes) trivial).branch .skip) _ _ hpushed
    · exact h
  · exact h

theorem doWrite_vigilant (h : Running s) (hreads : Reads s) : doWrite.wp StaysVigilant s o := by
  refine ⟨⟨h.connected, h.consistent, h.started⟩, hreads, fun _ _ _ => ?_⟩
  show (s.serialPort.asyncWriteSome _).currentWrites ≠ []
  rw [← List.length_pos_iff, SerialPort.currentWrites_asyncWriteSome]
  exact Nat.succ_pos _

theorem onWrite_vigilant {n : Nat} (h : Running s) (hreads : Reads s) :
    (onWrite (.success n)).wp StaysVigilant s o := by
  have hlocked {t : Port} (ht : Running t) (hlocked : t.serialPortLock.getSerialPortState = true) : Vigilant t :=
    Dormant.vigilant ⟨ht.connected, ht.consistent, fun _ => bne_iff_ne.mp hlocked⟩
  have hcounted (offset : Nat) : Running { s with sendBufferOffset := offset } :=
    ⟨h.connected, h.consistent, h.started⟩
  refine wp_andThen.mpr (wp_update.mpr (wp_branch (fun _ => ?_) fun _ => ?_))
  · refine wp_andThen.mpr (wp_update.mpr
      (wp_branch (fun hstate => wp_skip.mpr (hlocked (hcounted 0) hstate)) fun _ => ?_))
    refine wp_andThen.mpr (wp_emit.mpr ?_)
    let next : Port := { s with sendBufferOffset := 0 }
    show Vigilant (callProtocolState (handle (.internal .triggerNextHDLCFrame)) next).1
    have hstays : (prepare (.internal .triggerNextHDLCFrame) s.protocolState).state.started =
        s.protocolState.started := prepare_started _ _
    refine ⟨callProtocolState_running h.connected h.consistent ?_, callProtocolState_reads (s := next) hreads _,
      callProtocolState_writes h.consistent fun hreg hnbr hbusy => ?_⟩
    · show _ → _ → (prepare _ s.protocolState).state.started = true
      rw [hstays]
      exact h.started
    · -- the entity runs, so it is free before it sends
      have hfree : (prepare (.internal .triggerNextHDLCFrame) s.protocolState).state.awaitsNextHDLCFrame = true := by
        rw [prepare, prepareLocal, if_pos (h.started hreg hnbr)]
      exact Bool.noConfusion (hfree.symm.trans hbusy)
  · refine wp_branch (fun hstate => wp_skip.mpr (hlocked (hcounted _) hstate)) fun _ => ?_
    exact doWrite_vigilant (hcounted _) hreads

theorem writeHandler_vigilant {i : Nat} (h : Vigilant s) : (writeHandler i).wp StaysVigilant s o := by
  unfold wp writeHandler
  split
  · split
    · rename_i result _
      cases result with
      | error => exact error_vigilant h.connected h.consistent
      | success n => exact onWrite_vigilant (o := o) ⟨h.connected, h.consistent, h.started⟩ h.reads
    · exact h
  · exact h

theorem writeCompletes_vigilant {i : Nat} {result : WriteResult} (h : Vigilant s)
    (hvalid : s.validWrite i result = true) :
    Vigilant { s with serialPort := s.serialPort.writeCompletes i result } := by
  have hsame : (s.serialPort.writeCompletes i result).currentWrites.length = s.serialPort.currentWrites.length :=
    SerialPort.currentWrites_completes (SerialPort.completes_modify fun _ hw => credible_of_validWrite hvalid hw)
  refine ⟨⟨h.connected, h.consistent, h.started⟩, h.reads, fun hreg hnbr hbusy => ?_⟩
  rw [← List.length_pos_iff]
  exact hsame ▸ List.length_pos_iff.mpr (h.writes hreg hnbr hbusy)

theorem releaseLock_vigilant (c : ClientId) (h : HdlcdServerHandler) (opens : OpenResult) :
    Maintains StaysVigilant (releaseLock c h opens) := by
  unfold releaseLock
  exact ((wired_vigilant.modifyHandler c (setLockedBySelf false)).andThen (resumeSerialPort_vigilant opens)).ite .skip

theorem stop_maintained : Maintains StaysVigilant stop := fun _ _ h => stop_vigilant h.connected h.consistent

theorem timer_vigilant (e : TimerEvent) :
    Maintains StaysVigilant (callProtocolState (ProtocolState.handleLocal e.localEvent)) := by
  intro s o h
  refine Vigilant.event (e := .internal e.localEvent) h ?_
  have hpeaceful (he : (Hdlcd.Event.internal e.localEvent).Peaceful) :
      ((prepare (.internal e.localEvent) s.protocolState).state.started,
        (prepare (.internal e.localEvent) s.protocolState).state.awaitsNextHDLCFrame) =
      (s.protocolState.started, s.protocolState.awaitsNextHDLCFrame) := by
    have hsame := prepare_peaceful he s.protocolState
    simp only [passMembers, Prod.mk.injEq] at hsame
    exact Prod.ext hsame.1 hsame.2.1
  cases e with
  | probeTimerHandler =>
    have hsame := prepare_probe s.protocolState
    simp only [Prod.mk.injEq] at hsame
    exact Prod.ext hsame.1 hsame.2.1
  | _ => exact hpeaceful trivial

theorem step_vigilant {e : Event} (hs : Vigilant s) : (step e).wp StaysVigilant s o := by
  cases e with
  | attach c sap opens => exact wired_vigilant.attach c sap opens s o hs
  | disconnect c opens =>
    exact wired_vigilant.disconnect stop_maintained hs fun h _ _ _ =>
      resumeSerialPort_vigilant opens _ _ (hs.congr rfl)
  | receive c packet opens =>
    exact wired_vigilant.receive stop_maintained suspendSerialPort_vigilant hs fun h _ _ _ =>
      releaseLock_vigilant c h opens _ _ hs
  | endReceiving c => exact wired_vigilant.endReceiving c s o hs
  | proceed =>
    refine wired_vigilant.proceed hs fun g calls hcalls => ?_
    have hrunning : Running { s with calls := calls } := ⟨hs.connected, hs.consistent, hs.started⟩
    refine wp_branch (fun hlocked => wp_skip.mpr ?_) fun _ => doRead_vigilant hrunning hs.writes
    exact Dormant.vigilant ⟨hs.connected, hs.consistent, fun _ => bne_iff_ne.mp hlocked⟩
  | timer e => exact wp_branch (fun _ => timer_vigilant e s o hs) fun _ => wp_skip.mpr hs
  | readCompletes i completion =>
    have hfilled : Maintains StaysVigilant (update (fillReadBuffer completion.bytes)) :=
      .update fun _ _ h => ⟨⟨h.connected, h.consistent, h.started⟩, h.reads, h.writes⟩
    have hcompleted : Maintains StaysVigilant (update fun s =>
        { s with serialPort := s.serialPort.readCompletes i completion.result }) :=
      .update fun _ _ h => ⟨⟨h.connected, h.consistent, h.started⟩,
        fun hreg hnbr => (h.reads hreg hnbr).imp_left fun hread => hread.readCompletes i completion.result, h.writes⟩
    exact (((hfilled.branch .skip).andThen hcompleted).ite .skip) s o hs
  | readHandler i =>
    exact wp_branch (fun hidle => readHandler_vigilant (List.isEmpty_iff.mp hidle) hs) fun _ => wp_skip.mpr hs
  | writeCompletes i result =>
    exact wp_branch (fun hvalid => wp_update.mpr (writeCompletes_vigilant hs hvalid)) fun _ => wp_skip.mpr hs
  | writeHandler i => exact wp_branch (fun _ => writeHandler_vigilant hs) fun _ => wp_skip.mpr hs

end

/-- Whatever its clients and the device do, and however late the handlers of earlier openings run:
while a port with clients is open, a read of this opening is under way or about to be started again,
and if the end of a frame is awaited, a write of this opening has yet to be reported. -/
theorem open_port_vigilant (es : List Event) :
    let s := (run step es initial).1
    s.connections ≠ [] → s.registered = true → s.serialPortLock.nbrOfLocks = 0 →
      (s.serialPort.Reading ∨ .readHandler s.serialPort.openings ∈ s.calls) ∧
      (s.protocolState.awaitsNextHDLCFrame = false → s.serialPort.currentWrites ≠ []) := by
  intro s hconnected hreg hnbr
  have hany : Along step (fun _ _ => True) initial es := along_of_forall step (fun _ _ _ => trivial) _
  have hreached := wired_vigilant.run (fun c h opens => openSerialPort_vigilant opens (List.cons_ne_nil _ _)
    Consistent.initial) (fun _ _ _ _ hs => step_vigilant hs) hany
  rcases hreached with hinitial | hs
  · have hnobody : s = initial := congrArg Prod.fst hinitial
    rw [hnobody] at hconnected
    exact absurd rfl hconnected
  · exact ⟨hs.reads hreg hnbr, hs.writes hreg hnbr⟩

def reopened : List Event :=
  [.attach 0 0x00 .opened, .receive 0 (.portStatus true) .opened, .receive 0 (.portStatus false) .opened]

theorem open_port_vigilant_reopened :
    let s := (run step reopened initial).1
    s.protocolState.awaitsNextHDLCFrame = false ∧ s.serialPort.currentWrites ≠ [] := by
  have hbusy : (run step reopened initial).1.protocolState.awaitsNextHDLCFrame = false := by decide +kernel
  have hvigilant := open_port_vigilant reopened (by decide +kernel) (by decide +kernel) (by decide +kernel)
  exact ⟨hbusy, hvigilant.2 hbusy⟩

end Port
end Hdlcd
