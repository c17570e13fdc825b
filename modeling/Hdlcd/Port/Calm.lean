import Hdlcd.Port.Sessions

/-! Assertions that do not care about data packets, operations and frames: what is left are
the clients, the locks, and what the clients were told about them. -/

namespace Hdlcd

def HdlcdServerHandler.guards (h : HdlcdServerHandler) := (h.deliverInitialState, h.aliveGuard, h.lockGuard)

namespace Port
open Reactive Action Desks ProtocolState

def lockMembers (s : Port) :=
  (s.registered, s.protocolState.started, s.serialPortLock, s.handlers, s.handlerList, s.connections,
    s.serialPort.isOpen)

/-- Neither a port status nor the end of a client nor a failed assertion of
`LockGuard::Init`. -/
def Output.Aside : Output → Prop
  | .portStatus .. | .stopClient _ | .fault .lockGuardInit => False
  | _ => True

theorem Output.Aloof.aside {y : Output} (hy : y.Aloof) : y.Aside := by
  cases y with
  | portStatus | stopClient => exact hy
  | fault f => cases f <;> exact hy
  | _ => trivial

theorem guards_of_session {h h' : HdlcdServerHandler} (hsame : h'.session = h.session) : h'.guards = h.guards := by
  simp only [HdlcdServerHandler.session, Prod.mk.injEq] at hsame
  unfold HdlcdServerHandler.guards
  rw [hsame.1, hsame.2.1, hsame.2.2.1]

structure Calm (Q : Assertion Port Output) : Prop where
  consistent : ∀ {s o}, Q s o → Consistent s.protocolState
  members : ∀ {s t o}, Q s o → Consistent t.protocolState → lockMembers t = lockMembers s → Q t o
  aside : ∀ {s o xs}, Q s o → (∀ y ∈ xs, y.Aside) → Q s (o ++ xs)
  modify : ∀ {s o} {f : HdlcdServerHandler → HdlcdServerHandler} (c : ClientId),
    (∀ h, (f h).guards = h.guards) → Q s o → Q (modifyHandler c f s) o
  rebuild : ∀ {s o}, Q s o → Q s.rebuildSubscriptions o
  propagate : Maintains Q propagateSerialPortState

namespace Calm

variable {Q : Assertion Port Output} {s t : Port} {o : List Output} {a b : Act} {c : ClientId}

section
variable (hQ : Calm Q)
include hQ

theorem emit {xs : List Output} (hxs : ∀ y ∈ xs, y.Aside) : Maintains Q (emit xs) :=
  .emit fun _ _ hs => hQ.aside hs hxs

theorem update {f : Port → Port} (hps : ∀ s, (f s).protocolState = s.protocolState)
    (hf : ∀ s, lockMembers (f s) = lockMembers s) : Maintains Q (update f) :=
  .update fun s _ hs => hQ.members hs (hps s ▸ hQ.consistent hs) (hf s)

theorem deliverBufferToClients (bufferType : BufferType) (payload : Payload)
    (reliable invalid wasSent : Bool) :
    Maintains Q (deliverBufferToClients bufferType payload reliable invalid wasSent) := by
  intro s o hs
  have hrebuilt := hQ.rebuild hs
  have hps := hQ.consistent hrebuilt
  refine hQ.aside (hQ.members hrebuilt hps ?_) fun y hy => ?_
  · have hsame (c : ClientId) :
        (if c ∈ s.live then (s.handlers c).map fun h => h else s.handlers c) = s.rebuildSubscriptions.handlers c := by
      rw [rebuildSubscriptions_handlers]
      split_ifs
      · exact Option.map_id'
      · rfl
    exact congrArg (fun f : ClientId → Option HdlcdServerHandler => (s.rebuildSubscriptions.registered,
      s.rebuildSubscriptions.protocolState.started, s.rebuildSubscriptions.serialPortLock, f,
      s.rebuildSubscriptions.handlerList, s.rebuildSubscriptions.connections,
      s.rebuildSubscriptions.serialPort.isOpen)) (funext hsame)
  · obtain ⟨c, rfl⟩ := deliverBufferToClients_outputs hy
    trivial

theorem doWrite : Maintains Q doWrite := by
  intro s o hs
  have hps := hQ.consistent hs
  refine hQ.aside (hQ.members hs hps rfl) fun y hy => ?_
  have hy' : y ∈ (if s.sendBuffer.length < s.sendBufferOffset then
      [.doWrite, .fault .lengthUnderflow] else [.doWrite]) ++ [] := hy
  rw [List.append_nil] at hy'
  split_ifs at hy'
  · rcases List.mem_pair.mp hy' with rfl | rfl <;> trivial
  · rw [List.mem_singleton.mp hy']
    trivial

theorem pushCall (c : Call) : Maintains Q (pushCall c) := hQ.update (fun _ => rfl) fun _ => rfl

theorem assertion {f : Port → Bool} {x : Fault} (hx : (Output.fault x).Aside) :
    Maintains Q (Action.branch f Action.skip (Action.emit [.fault x])) :=
  Maintains.skip.branch (hQ.emit fun y hy => by rw [List.mem_singleton.mp hy]; exact hx)

theorem effect (x : Effect) : Maintains Q (effect x) := by
  cases x with
  | deliverIfRequired => exact (hQ.deliverBufferToClients _ _ _ _ _).branch .skip
  | deliverBufferToClients => exact hQ.deliverBufferToClients _ _ _ _ _
  | changeBaudRate =>
    have htoggled : Maintains Q (Action.update fun s => { s with baudRate := s.baudRate.toggleBaudRate }) :=
      hQ.update (fun _ => rfl) fun _ => rfl
    exact (htoggled.andThen (hQ.assertion (x := .portClosed) trivial)).branch .skip
  | propagateSerialPortState => exact hQ.propagate
  | transmitHDLCFrame f buffer =>
    have hbuffer : Maintains Q (Action.update fun s =>
        { s with sendBuffer := FrameGenerator.escapeFrame buffer }) :=
      hQ.update (fun _ => rfl) fun _ => rfl
    have hsuspended : Maintains Q (Action.branch (·.serialPortLock.getSerialPortState)
        (Action.emit [.fault .suspended]) Action.skip) :=
      (hQ.emit (by simp [Output.Aside])).branch .skip
    exact (hQ.emit (by simp [Output.Aside])).andThen
      ((hQ.assertion (x := .sendBufferOffset) trivial).andThen (hsuspended.andThen (hbuffer.andThen hQ.doWrite)))
  | queryForPayload => exact hQ.pushCall _
  | popFrontReliable => exact .skip
  | fault f => exact hQ.emit (by simp [Output.Aside])

theorem effects (xs : List Effect) : Maintains Q (run Port.effect xs) := .run fun x _ => hQ.effect x

theorem callProtocolState_of {e : Hdlcd.Event} {s : Port} {o : List Output}
    (hchanged : Q { s with protocolState := (handle e s.protocolState).1 } o) :
    (callProtocolState (handle e)).wp Q s o := hQ.effects _ _ _ hchanged

theorem callProtocolState {e : Hdlcd.Event} (he : ∀ s : ProtocolState, startedAfter s e = s.started) :
    Maintains Q (callProtocolState (handle e)) := by
  intro s o hs
  have hconsistent := hQ.consistent hs
  have hstarted : (handle e s.protocolState).1.started = s.protocolState.started :=
    (handle_started hconsistent e).trans (he s.protocolState)
  have hchanged : Q { s with protocolState := (handle e s.protocolState).1 } o := by
    refine hQ.members hs (hconsistent.handle e) ?_
    unfold lockMembers
    rw [hstarted]
  exact hQ.callProtocolState_of hchanged

theorem attentive : Attentive Q where
  members hs hsame := by
    simp only [sessionMembers, Prod.mk.injEq] at hsame
    obtain ⟨hreg, hps, hlock, hhandlers, hlist, hconnections, hopen, _⟩ := hsame
    refine hQ.members hs (hps ▸ hQ.consistent hs) ?_
    unfold lockMembers
    rw [hreg, hps, hlock, hhandlers, hlist, hconnections, hopen]
  parser _ hs := hQ.members hs ((hQ.consistent hs).congr rfl) rfl
  aloof hs hxs := hQ.aside hs fun y hy => (hxs y hy).aside
  modify c hf hs := hQ.modify c (fun h => guards_of_session (hf h)) hs
  rebuild hs := hQ.rebuild hs
  inward {e} he := hQ.callProtocolState fun s => by
    cases e with
    | frame => exact he.elim
    | internal e =>
      cases e with
      | sendPayload | triggerNextHDLCFrame => rfl
      | _ => exact he.elim

theorem step {e : Event} (hstop : Maintains Q stop)
    (hattach : ∀ c sap, Maintains Q (attach c sap e.opening))
    (hdisconnect : ∀ c, Maintains Q (disconnect c e.opening))
    (hacquire : ∀ {s o c h}, s.handlers c = some h → Q s o → (acquireLock c h).wp Q s o)
    (hrelease : ∀ {s o c h}, s.handlers c = some h → Q s o → (releaseLock c h e.opening).wp Q s o) :
    Maintains Q (step e) := by
  intro s o hs
  have hQ' := hQ.attentive
  refine hQ'.step hstop hattach hdisconnect hacquire hrelease hs (fun x _ => ?_) fun _ offset bytes calls _ => ?_
  · refine ((hQ.callProtocolState (e := .internal x.localEvent) fun s => ?_).branch .skip) s o hs
    cases x <;> rfl
  · have hframe (buffer : List UInt8) (messageInvalid : Bool) :
        Maintains Q (Port.callProtocolState (handle (.frame buffer messageInvalid))) :=
      hQ.callProtocolState fun _ => rfl
    have hpopped : Q { s with calls := calls } o := hQ'.members hs rfl
    exact hQ'.addChunk hframe offset (bytes + 1) _ _ hpopped

end
end Calm

def clientMembers (s : Port) := (s.handlers, s.handlerList, s.connections)

/-- Assertions that do not care about the state of the port and the holders of locks either. -/
structure Indifferent (Q : Assertion Port Output) : Prop extends Calm Q where
  control : ∀ {s t o}, Q s o → Consistent t.protocolState → clientMembers t = clientMembers s → Q t o
  stopClients : Maintains Q stopClients
  hold : ∀ {s o} (c : ClientId) (lockedBySelf : Bool), Q s o →
    Q (modifyHandler c (setLockedBySelf lockedBySelf) s) o

namespace Indifferent

variable {Q : Assertion Port Output}

section
variable (hQ : Indifferent Q)
include hQ

theorem lockless : Lockless Q where
  toAttentive := hQ.attentive
  control hs hsame := by
    simp only [audienceMembers, Prod.mk.injEq] at hsame
    obtain ⟨hps, hhandlers, hlist, hconnections, _⟩ := hsame
    refine hQ.control hs (hps ▸ hQ.consistent hs) ?_
    unfold clientMembers
    rw [hhandlers, hlist, hconnections]
  stopClients := hQ.stopClients
  hold c lockedBySelf hs := hQ.hold c lockedBySelf hs
  propagate := hQ.propagate
  internal e := fun s o hs => hQ.callProtocolState_of (hQ.control hs ((hQ.consistent hs).handle _) rfl)

theorem step (hattach : ∀ c sap opens, Maintains Q (attach c sap opens))
    (herase : ∀ c, Maintains Q (Action.update (eraseHandler c))) (e : Event) : Maintains Q (step e) :=
  hQ.toCalm.step hQ.lockless.stop (fun c sap => hattach c sap _) (fun c => hQ.lockless.disconnect (herase c) _)
    (fun _ hs => hQ.lockless.acquireLock _ _ _ _ hs) fun _ hs => hQ.lockless.releaseLock _ _ _ _ _ hs

end
end Indifferent
end Port
end Hdlcd
