import Hdlcd.Port.ActiveHandlers

/-! A serial port handler that ended has stopped its protocol state and closed its port. A
port that cannot be opened again is covered, as it was closed when it was suspended; only one
that is opened and cannot be configured stays open. -/

namespace Hdlcd.Port
open Reactive Action ProtocolState

/-- What is left of a serial port handler that is not registered any more, where `P` says that
the device was opened and could not be configured. -/
structure Closed (P : Prop) (s : Port) : Prop where
  halted : s.registered = false → s.protocolState.started = false
  ended : s.registered = false → s.serialPort.isOpen = true → P
  unopened : s.connections = [] → s.serialPort.isOpen = false

/-- It is registered, and had a client. -/
structure Serving (s : Port) : Prop where
  registered : s.registered = true
  connected : s.connections ≠ []

def Secured (P : Prop) (s : Port) (o : List Output) : Prop := Locked s o ∧ Closed P s

section
variable {P : Prop} {s t : Port} {o : List Output} {c : ClientId}

theorem Serving.closed (hs : Serving s) : Closed P s where
  halted hended := absurd (hs.registered.symm.trans hended) Bool.noConfusion
  ended hended := absurd (hs.registered.symm.trans hended) Bool.noConfusion
  unopened hnone := absurd hnone hs.connected

theorem Serving.served (hs : Serving s) (h : Served s t) : Serving t :=
  ⟨(congrArg (·.1) h.same).trans hs.registered,
    fun hnone => hs.connected ((congrArg (·.2.2.2.2.1) h.same).symm.trans hnone)⟩

theorem Serving.call (hs : Serving s) (a : ProtocolState.Act) : Serving (callProtocolState a s).1 :=
  Serving.served (s := { s with protocolState := (a s.protocolState).1 }) ⟨hs.registered, hs.connected⟩
    (callProtocolState_done a s).served

theorem Closed.congr (hs : Closed P s) (hsame : (t.registered, t.protocolState.started, t.connections,
    t.serialPort.isOpen) = (s.registered, s.protocolState.started, s.connections, s.serialPort.isOpen)) :
    Closed P t := by
  simp only [Prod.mk.injEq] at hsame
  obtain ⟨hreg, hstarted, hconnections, hopen⟩ := hsame
  constructor
  · rw [hreg, hstarted]
    exact hs.halted
  · rw [hreg, hopen]
    exact hs.ended
  · rw [hconnections, hopen]
    exact hs.unopened

theorem Closed.served (hs : Closed P s) (h : Served s t) : Closed P t := by
  have hsame := h.same
  simp only [servedMembers, Prod.mk.injEq] at hsame
  obtain ⟨hreg, hps, _, _, hconnections, hopen, _⟩ := hsame
  exact hs.congr (by rw [hreg, hps, hconnections, hopen])

theorem secured_calm : Calm (Secured P) where
  consistent h := locked_calm.consistent h.1
  members h hps hsame := by
    refine ⟨locked_calm.members h.1 hps hsame, h.2.congr ?_⟩
    simp only [lockMembers, Prod.mk.injEq] at hsame
    obtain ⟨hreg, hstarted, _, _, _, hconnections, hopen⟩ := hsame
    rw [hreg, hstarted, hconnections, hopen]
  aside h hxs := ⟨locked_calm.aside h.1 hxs, h.2⟩
  modify c hf h := ⟨locked_calm.modify c hf h.1, h.2.congr rfl⟩
  rebuild h := ⟨locked_calm.rebuild h.1, h.2.served (rebuildSubscriptions_served _)⟩
  propagate s o h := ⟨locked_calm.propagate s o h.1, h.2.served (propagateSerialPortState_served s)⟩

theorem dissolve_closed (hps : Consistent s.protocolState) (hopen : s.serialPort.isOpen = true → P)
    (hunopened : s.connections = [] → s.serialPort.isOpen = false) : Closed P (dissolve s).1 := by
  have hdone := callProtocolState_done (handle (.internal .shutdown)) s
  have hstopped : (handle (.internal .shutdown) s.protocolState).1.started = false :=
    handle_started hps (.internal .shutdown)
  have hrest := rebuildSubscriptions_served (callProtocolState (handle (.internal .shutdown)) s).1
  have hsame := (hdone.served.trans hrest).same
  simp only [servedMembers, Prod.mk.injEq] at hsame
  obtain ⟨_, hps', _, _, hconnections, hopen', _⟩ := hsame
  exact {
    halted := fun _ => (congrArg (·.started) hps').trans hstopped
    ended := fun _ hleft => hopen (hopen'.symm.trans hleft)
    unopened := fun hnone => hopen'.trans (hunopened (hconnections.symm.trans hnone)) }

theorem stop_closed (hs : Closed P s) (hps : Consistent s.protocolState) : Closed P (stop s).1 := by
  cases hreg : s.registered with
  | false =>
    rw [stop_dissolved hreg]
    exact hs
  | true =>
    have hstopped : (stop s).1 = (dissolve { s with registered := false, serialPort := s.serialPort.close }).1 := by
      unfold stop closeSerialPort unregister branch
      cases hopen : s.serialPort.isOpen <;>
        simp only [andThen_apply, emit, hreg, hopen, if_true, if_false, update, skip, Bool.false_eq_true]
    rw [hstopped]
    exact dissolve_closed (s := { s with registered := false, serialPort := s.serialPort.close }) hps
      (fun hopen => absurd hopen Bool.false_ne_true) fun _ => rfl

theorem secured_stop : Maintains (Secured P) stop := fun s o h =>
  ⟨locked_stop s o h.1, stop_closed h.2 h.1.enrolled.consistent⟩

theorem openSerialPort_closed {opens : OpenResult} (hopens : opens = .notConfigured → P) (hs : Serving s)
    (hps : Consistent s.protocolState) (hopen : s.serialPort.isOpen = false) :
    Closed P (openSerialPort opens s).1 := by
  cases opens with
  | opened =>
    have hopened : Serving { s with serialPort := s.serialPort.openPort } := ⟨hs.registered, hs.connected⟩
    have hstarted := hopened.call ProtocolState.start
    have hread : Serving (doRead (callProtocolState ProtocolState.start
        { s with serialPort := s.serialPort.openPort }).1).1 := ⟨hstarted.registered, hstarted.connected⟩
    exact (hread.served (propagateSerialPortState_served _)).closed
  | failed =>
    exact dissolve_closed (s := { s with registered := false }) hps
      (fun hopened => absurd (hopen.symm.trans hopened) Bool.false_ne_true) fun _ => hopen
  | notConfigured =>
    exact dissolve_closed (s := { s with registered := false, serialPort := s.serialPort.openPort }) hps
      (fun _ => hopens rfl) fun hnone => absurd hnone hs.connected

theorem Closed.suspendSerialPort (hs : Serving s) : Closed P (suspendSerialPort s).1 := by
  have hclosed : Maintains (Always Serving) ((Action.emit [Output.suspended]).andThen
      ((callProtocolState ProtocolState.stop).andThen closeSerialPort)) := by
    have hstopped : Maintains (Always Serving) (callProtocolState ProtocolState.stop) := fun t _ ht =>
      Serving.call ht ProtocolState.stop
    have hclose : Maintains (Always Serving) closeSerialPort := fun t _ ht =>
      wp_closeSerialPort ⟨ht.registered, ht.connected⟩
    exact (always_emit _).andThen (hstopped.andThen hclose)
  have hpropagated : Maintains (Always Serving) propagateSerialPortState := fun t _ ht =>
    Serving.served ht (propagateSerialPortState_served t)
  have hlocked : Serving { s with serialPortLock := s.serialPortLock.suspendSerialPort.1 } :=
    ⟨hs.registered, hs.connected⟩
  have hsuspended := ((hclosed.ite (p := s.serialPortLock.suspendSerialPort.2 = true) .skip).andThen hpropagated)
    _ ([] : List Output) hlocked
  unfold Port.suspendSerialPort branch
  rw [if_pos hs.registered]
  exact Serving.closed hsuspended

theorem Closed.resumeSerialPort {opens : OpenResult} (hopens : opens = .notConfigured → P) (hs : Serving s)
    (hps : Consistent s.protocolState) (hopen : s.serialPort.isOpen = false) :
    Closed P (resumeSerialPort opens s).1 := by
  have hunlocked : Serving { s with serialPortLock := s.serialPortLock.resumeSerialPort.1 } :=
    ⟨hs.registered, hs.connected⟩
  unfold Port.resumeSerialPort branch
  rw [if_pos hs.registered]
  simp only [andThen_apply, update]
  split_ifs
  · exact openSerialPort_closed hopens hunlocked hps hopen
  · exact (hunlocked.served (propagateSerialPortState_served _)).closed

theorem Locked.serving (h : Locked s o) {hh : HdlcdServerHandler} (hc : s.handlers c = some hh) : Serving s :=
  ⟨h.registered hc, h.connected hc⟩

theorem Locked.isOpen_of_holder (h : Locked s o) {hh : HdlcdServerHandler} (hc : s.handlers c = some hh)
    (hself : hh.lockGuard.lockedBySelf = true) : s.serialPort.isOpen = false := by
  have hbalanced := h.balanced (h.registered hc)
  have hholder : 0 < s.nbrOfHolders := by
    refine List.countP_pos_iff.mpr ⟨c, h.enrolled.listed c (Option.isSome_of_eq_some hc), ?_⟩
    rw [holds_eq hc, hself]
  refine Bool.eq_false_of_not_eq_true fun hopen => ?_
  have hzero := (hbalanced.opened (h.connected hc)).2.mp hopen
  rw [hbalanced.counted] at hzero
  exact absurd hzero hholder.ne'

theorem acquireLock_secured {h : HdlcdServerHandler} (hc : s.handlers c = some h) (hs : Secured P s o) :
    (acquireLock c h).wp (Secured P) s o := by
  refine ⟨acquireLock_locked hc hs.1, ?_⟩
  have hserving := hs.1.serving hc
  unfold acquireLock
  split_ifs
  · exact hs.2
  · exact Closed.suspendSerialPort (s := modifyHandler c (setLockedBySelf true) s)
      ⟨hserving.registered, hserving.connected⟩

theorem releaseLock_secured {opens : OpenResult} (hopens : opens = .notConfigured → P) {h : HdlcdServerHandler}
    (hc : s.handlers c = some h) (hs : Secured P s o) : (releaseLock c h opens).wp (Secured P) s o := by
  refine ⟨releaseLock_locked hc hs.1, ?_⟩
  have hserving := hs.1.serving hc
  unfold releaseLock
  split_ifs with hself
  · exact Closed.resumeSerialPort (s := modifyHandler c (setLockedBySelf false) s) hopens
      ⟨hserving.registered, hserving.connected⟩ hs.1.enrolled.consistent (hs.1.isOpen_of_holder hc hself)
  · exact hs.2

theorem leave_closed (hs : Closed P s) (hps : Consistent s.protocolState) :
    Closed P (branch (fun s => s.live.isEmpty) stop skip s).1 := by
  unfold branch
  split_ifs
  · exact stop_closed hs hps
  · exact hs

theorem disconnect_secured {opens : OpenResult} (hopens : opens = .notConfigured → P) (c : ClientId) :
    Maintains (Secured P) (disconnect c opens) := by
  intro s o hs
  refine ⟨disconnect_locked c opens s o hs.1, ?_⟩
  unfold disconnect
  split
  · exact hs.2
  · rename_i h hc
    by_cases hidle : s.calls.isEmpty = true
    · rw [if_pos hidle]
      have hserving := hs.1.serving hc
      have herased : Serving (eraseHandler c s) := ⟨hserving.registered, hserving.connected⟩
      have hps : Consistent (eraseHandler c s).protocolState := hs.1.enrolled.consistent
      have hreleased : Closed P ((if h.lockGuard.lockedBySelf then resumeSerialPort opens else skip)
          (eraseHandler c s)).1 := by
        split_ifs with hself
        · exact Closed.resumeSerialPort hopens herased hps (hs.1.isOpen_of_holder hc hself)
        · exact herased.closed
      have hconsistent : Consistent ((if h.lockGuard.lockedBySelf then resumeSerialPort opens else skip)
          (eraseHandler c s)).1.protocolState :=
        ((consistent_regular.resumeSerialPort opens).ite (p := h.lockGuard.lockedBySelf = true) .skip)
          (eraseHandler c s) ([] : List Output) hps
      exact leave_closed hreleased hconsistent
    · rw [if_neg hidle]
      exact hs.2

theorem initLockGuard_closed (hs : Closed P s) (c : ClientId) : Closed P (initLockGuard c s).1 := by
  unfold initLockGuard
  split
  · exact hs
  · exact hs.served (propagateSerialPortState_served s)

theorem attach_secured {opens : OpenResult} (hopens : opens = .notConfigured → P) (c : ClientId) (sap : UInt8) :
    Maintains (Secured P) (attach c sap opens) := by
  intro s o hs
  refine ⟨attach_locked c sap opens s o hs.1, ?_⟩
  unfold attach
  split
  · exact hs.2
  · rename_i h _
    by_cases hcond : (s.registered && s.calls.isEmpty && !s.connections.contains c) = true
    · rw [if_pos hcond]
      simp only [Bool.and_eq_true] at hcond
      have hadded : Serving (withHandler c h s) :=
        ⟨hcond.1.1, List.append_ne_nil_of_right_ne_nil _ (List.cons_ne_nil c [])⟩
      have htold : Serving (addHdlcdServerHandler c h s).1 ∧
          servedMembers (addHdlcdServerHandler c h s).1 = servedMembers (withHandler c h s) := by
        show Serving (branch (·.protocolState.started) propagateSerialPortState skip (withHandler c h s)).1 ∧
          servedMembers (branch (·.protocolState.started) propagateSerialPortState skip (withHandler c h s)).1 = _
        unfold branch
        split_ifs
        · exact ⟨hadded.served (propagateSerialPortState_served _), (propagateSerialPortState_served _).same⟩
        · exact ⟨hadded, rfl⟩
      refine initLockGuard_closed ?_ c
      by_cases hfirst : s.connections.isEmpty = true
      · rw [if_pos hfirst]
        have hsame := htold.2
        simp only [servedMembers, Prod.mk.injEq] at hsame
        obtain ⟨_, hps, _, _, _, hopen, _⟩ := hsame
        refine openSerialPort_closed hopens htold.1 (hps ▸ hs.1.enrolled.consistent) (hopen.trans ?_)
        exact hs.2.unopened (List.isEmpty_iff.mp hfirst)
      · rw [if_neg hfirst]
        exact htold.1.closed
    · rw [if_neg hcond]
      exact hs.2

theorem step_secured {e : Event} (he : e.opening = .notConfigured → P) : Maintains (Secured P) (step e) :=
  secured_calm.step secured_stop (attach_secured he) (disconnect_secured he) acquireLock_secured
    (releaseLock_secured he)

theorem run_secured {es : List Event} (hes : ∀ e ∈ es, e.opening = .notConfigured → P) :
    Secured P (run step es initial).1 (run step es initial).2 := by
  refine wp_run (fun e he => step_secured (hes e he)) (o := []) ⟨.initial, ?_⟩
  exact ⟨fun hended => absurd hended Bool.noConfusion, fun hended => absurd hended Bool.noConfusion, fun _ => rfl⟩

end
end Hdlcd.Port
