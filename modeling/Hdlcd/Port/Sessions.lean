import Hdlcd.Port.Refinement
import Hdlcd.Protocol.Occupation

/-! Assertions about the clients and the protocol state. The packets that the clients hand
over, the operations of the port and the calls that are left to do do not matter, what is
left are the calls of the protocol state. -/

namespace Hdlcd

def HdlcdServerHandler.session (h : HdlcdServerHandler) :=
  (h.deliverInitialState, h.aliveGuard, h.lockGuard, h.bufferType, h.deliverSent, h.deliverRcvd,
    h.deliverInvalidData)

def Event.Inward : Event → Prop
  | .internal (.sendPayload ..) | .internal .triggerNextHDLCFrame => True
  | _ => False

namespace Port
open Reactive Action Desks ProtocolState

def sessionMembers (s : Port) :=
  (s.registered, s.protocolState, s.serialPortLock, s.handlers, s.handlerList, s.connections,
    s.serialPort.isOpen, s.bufferTypeSubscribers)

/-- What comes of opening the device in the event, if that is tried. -/
def Event.opening : Event → OpenResult
  | .attach _ _ opens | .disconnect _ opens | .receive _ _ opens => opens
  | _ => .opened

def Output.Aloof : Output → Prop
  | .portStatus .. | .dataPacket .. | .transmitHDLCFrame _ | .stopClient _ | .fault .lockGuardInit => False
  | _ => True

structure Attentive (Q : Assertion Port Output) : Prop where
  members : ∀ {s t o}, Q s o → sessionMembers t = sessionMembers s → Q t o
  parser : ∀ {s o} (p : FrameParser), Q s o →
    Q { s with protocolState := { s.protocolState with frameParser := p } } o
  aloof : ∀ {s o xs}, Q s o → (∀ y ∈ xs, y.Aloof) → Q s (o ++ xs)
  modify : ∀ {s o} {f : HdlcdServerHandler → HdlcdServerHandler} (c : ClientId),
    (∀ h, (f h).session = h.session) → Q s o → Q (modifyHandler c f s) o
  rebuild : ∀ {s o}, Q s o → Q s.rebuildSubscriptions o
  inward : ∀ {e : Hdlcd.Event}, e.Inward → Maintains Q (callProtocolState (handle e))

namespace Attentive

variable {Q : Assertion Port Output} {s t : Port} {o : List Output} {c : ClientId}

section
variable (hQ : Attentive Q)
include hQ

theorem emit {xs : List Output} (hxs : ∀ y ∈ xs, y.Aloof) : Maintains Q (emit xs) :=
  .emit fun _ _ hs => hQ.aloof hs hxs

theorem update {f : Port → Port} (hf : ∀ s, sessionMembers (f s) = sessionMembers s) :
    Maintains Q (update f) := .update fun s _ hs => hQ.members hs (hf s)

theorem doWrite : Maintains Q doWrite := by
  intro s o hs
  refine hQ.aloof (hQ.members hs rfl) fun y hy => ?_
  have hy' : y ∈ (if s.sendBuffer.length < s.sendBufferOffset then
      [.doWrite, .fault .lengthUnderflow] else [.doWrite]) ++ [] := hy
  rw [List.append_nil] at hy'
  split_ifs at hy'
  · rcases List.mem_pair.mp hy' with rfl | rfl <;> trivial
  · rw [List.mem_singleton.mp hy']
    trivial

theorem doRead : Maintains Q doRead := (hQ.emit (by simp [Output.Aloof])).andThen (hQ.update fun _ => rfl)

theorem pushCall (c : Call) : Maintains Q (pushCall c) := hQ.update fun _ => rfl

theorem deliverPayloadToHDLC (c : ClientId) (p : PacketData) : Maintains Q (deliverPayloadToHDLC c p) :=
  (hQ.emit (by simp [Output.Aloof])).andThen (hQ.inward (e := submit p) trivial)

theorem modifyHandler {f : HdlcdServerHandler → HdlcdServerHandler} (c : ClientId)
    (hf : ∀ h, (f h).session = h.session) : Maintains Q (Action.update (modifyHandler c f)) :=
  .update fun _ _ hs => hQ.modify c hf hs

theorem onDataReceived (c : ClientId) (h : HdlcdServerHandler) (p : PacketData) :
    Maintains Q (onDataReceived c h p) := by
  have hstalled : Maintains Q (stall c) := by
    intro s o hs
    have hmodified := hQ.modify c (f := fun h => { h with stalled := true }) (fun _ => rfl) hs
    exact wp_update.mpr (hQ.members hmodified rfl)
  have haccepted := (hQ.modifyHandler (f := fun h => { h with serialPortHandlerAwaitsPacket := false }) c
    fun _ => rfl).andThen ((hQ.pushCall (.packetDelivery c)).andThen (hQ.deliverPayloadToHDLC c p))
  have hpending : Maintains Q (if h.pendingIncomingPacketData.isSome then
      Action.emit [.fault .pendingPacket] else Action.skip) :=
    (hQ.emit (by simp [Output.Aloof])).ite .skip
  exact (hQ.emit (by simp [Output.Aloof])).andThen (hpending.andThen
    ((hQ.modifyHandler (f := fun h => { h with pendingIncomingPacketData := some p }) c fun _ => rfl).andThen
      (haccepted.ite hstalled)))

theorem triggerNextDataPacket (c : ClientId) : Maintains Q (triggerNextDataPacket c) := by
  intro s o hs
  unfold wp Port.triggerNextDataPacket
  split
  · exact hQ.aloof hs (by simp [Output.Aloof])
  · rename_i h _
    split_ifs
    · exact ((hQ.modifyHandler (f := fun h => { h with stalled := false }) c fun _ => rfl).andThen
        (hQ.pushCall (.receiving c))) s o hs
    · exact (List.append_nil o).symm ▸ hs

theorem queryClient (r u : Bool) (c : ClientId) : Maintains Q (queryClient r u c) := by
  intro s o hs
  unfold wp Port.queryClient
  split
  · exact (List.append_nil o).symm ▸ hs
  · split
    · rename_i p _
      split_ifs
      · exact ((hQ.pushCall (.pendingDelivery c)).andThen (hQ.deliverPayloadToHDLC c p)) s o hs
      · exact (List.append_nil o).symm ▸ hs
    · exact ((hQ.modifyHandler (f := fun h => { h with serialPortHandlerAwaitsPacket := true }) c
        fun _ => rfl).andThen (hQ.triggerNextDataPacket c)) s o hs

theorem addChunk (hframe : ∀ buffer messageInvalid,
      Maintains Q (callProtocolState (handle (.frame buffer messageInvalid)))) (offset bytes : Nat) :
    Maintains Q (addChunk offset bytes) := by
  intro s o hs
  have hparsed : Q (parsed offset bytes s.calls s) o := hQ.members (hQ.parser _ hs) rfl
  have hframes : Maintains Q (run interpret
      (s.protocolState.frameParser.addChunk (s.readBytes offset bytes)).2.1) := by
    refine .run fun x hx => ?_
    rw [interpret, addChunk_call hx]
    exact hframe x.payload x.messageInvalid
  have hresult := addChunk_eq offset bytes s.calls s
  unfold wp
  rw [show Port.addChunk offset bytes s = _ from hresult]
  exact hframes _ _ hparsed

theorem clearPending (c : ClientId) : Maintains Q (clearPending c) := hQ.modifyHandler c fun _ => rfl

theorem proceed (hs : Q s o)
    (hchunk : ∀ offset bytes calls, s.calls = .addReceivedRawBytes offset (bytes + 1) :: calls →
      (Port.addChunk offset (bytes + 1)).wp Q { s with calls := calls } o) : proceed.wp Q s o := by
  unfold wp Port.proceed
  split
  · exact (List.append_nil o).symm ▸ hs
  · rename_i x calls hcalls
    have hpopped : Q { s with calls := calls } o := hQ.members hs rfl
    show (resumeCall x).wp Q { s with calls := calls } o
    cases x with
    | queryForPayload r u => exact wp_update.mpr (hQ.members (hQ.rebuild hpopped) rfl)
    | forEach r u clients =>
      cases clients with
      | nil => exact wp_skip.mpr hpopped
      | cons c clients =>
        exact ((hQ.pushCall (.forEach r u clients)).andThen (hQ.queryClient r u c)) _ _ hpopped
    | pendingDelivery c => exact ((hQ.clearPending c).andThen (hQ.triggerNextDataPacket c)) _ _ hpopped
    | packetDelivery c => exact hQ.clearPending c _ _ hpopped
    | receiving c => exact hQ.pushCall _ _ _ hpopped
    | addReceivedRawBytes offset bytes =>
      cases bytes with
      | zero => exact wp_skip.mpr hpopped
      | succ bytes => exact hchunk offset bytes calls hcalls
    | readHandler opening => exact (Maintains.skip.branch hQ.doRead) _ _ hpopped

theorem onRead (hstop : Maintains Q stop) (r : ReadOperation) (result : ReadResult) :
    Maintains Q (onRead r result) := by
  cases result with
  | success bytesRead => exact (hQ.pushCall _).andThen ((hQ.pushCall _).branch .skip)
  | error => exact Maintains.skip.branch hstop

theorem onWrite (hstop : Maintains Q stop) (result : WriteResult) : Maintains Q (onWrite result) := by
  cases result with
  | success bytesSent =>
    have hoffset (n : Port → Nat) : Maintains Q (Action.update fun s => { s with sendBufferOffset := n s }) :=
      hQ.update fun _ => rfl
    have hemitted : Maintains Q (Action.emit [.triggerNextHDLCFrame]) := hQ.emit (by simp [Output.Aloof])
    have htriggered := hemitted.andThen (hQ.inward (e := .internal .triggerNextHDLCFrame) trivial)
    exact (hoffset fun s => s.sendBufferOffset + bytesSent).andThen
      (((hoffset fun _ => 0).andThen (Maintains.skip.branch htriggered)).branch
        (Maintains.skip.branch hQ.doWrite))
  | error => exact Maintains.skip.branch hstop

theorem readHandler (hstop : Maintains Q stop) (i : Nat) : Maintains Q (readHandler i) := by
  intro s o hs
  unfold wp Port.readHandler
  split
  · split
    · exact hQ.onRead hstop _ _ _ _ (hQ.members hs rfl)
    · exact (List.append_nil o).symm ▸ hs
  · exact (List.append_nil o).symm ▸ hs

theorem writeHandler (hstop : Maintains Q stop) (i : Nat) : Maintains Q (writeHandler i) := by
  intro s o hs
  unfold wp Port.writeHandler
  split
  · split
    · exact hQ.onWrite hstop _ _ _ (hQ.members hs rfl)
    · exact (List.append_nil o).symm ▸ hs
  · exact (List.append_nil o).symm ▸ hs

theorem receive {opens : OpenResult} (hstop : Maintains Q stop)
    (hacquire : ∀ {s o c h}, s.handlers c = some h → Q s o → (acquireLock c h).wp Q s o)
    (hrelease : ∀ {s o c h}, s.handlers c = some h → Q s o → (releaseLock c h opens).wp Q s o)
    (c : ClientId) (packet : Packet) : Maintains Q (receive c packet opens) := by
  intro s o hs
  unfold wp Port.receive
  split
  · exact (List.append_nil o).symm ▸ hs
  · rename_i h hc
    split_ifs
    · split
      · exact hQ.onDataReceived c h _ s o hs
      · rename_i packet' hpacket
        cases packet with
        | data p => exact absurd rfl (hpacket p)
        | keepAlive => exact (List.append_nil o).symm ▸ hs
        | echo =>
          have hecho : ∀ y ∈ [Output.echo c], y.Aloof := by simp [Output.Aloof]
          exact hQ.aloof hs hecho
        | portKill => exact hstop s o hs
        | portStatus lock =>
          cases lock with
          | true => exact hacquire hc hs
          | false => exact hrelease hc hs
    · exact (List.append_nil o).symm ▸ hs

/-- Every event maintains an attentive assertion that survives the events about clients,
locks, timers and received frames. -/
theorem step {e : Event} (hstop : Maintains Q stop)
    (hattach : ∀ c sap, Maintains Q (attach c sap e.opening))
    (hdisconnect : ∀ c, Maintains Q (disconnect c e.opening))
    (hacquire : ∀ {s o c h}, s.handlers c = some h → Q s o → (acquireLock c h).wp Q s o)
    (hrelease : ∀ {s o c h}, s.handlers c = some h → Q s o → (releaseLock c h e.opening).wp Q s o)
    (hs : Q s o)
    (htimer : ∀ x, e = .timer x → (Port.step (.timer x)).wp Q s o)
    (hproceed : e = .proceed → ∀ offset bytes calls, s.calls = .addReceivedRawBytes offset (bytes + 1) :: calls →
      (Port.addChunk offset (bytes + 1)).wp Q { s with calls := calls } o) : (step e).wp Q s o := by
  cases e with
  | attach c sap opens => exact hattach c sap s o hs
  | disconnect c opens => exact hdisconnect c s o hs
  | receive c packet opens => exact hQ.receive hstop hacquire hrelease c packet s o hs
  | endReceiving c =>
    have htail : Maintains Q (Action.update fun s => { s with calls := s.calls.tail }) :=
      hQ.update fun _ => rfl
    exact (htail.branch .skip) s o hs
  | proceed => exact hQ.proceed hs (hproceed rfl)
  | timer e => exact htimer e rfl
  | readCompletes i completion =>
    have hfilled : Maintains Q (Action.update (fillReadBuffer completion.bytes)) := hQ.update fun _ => rfl
    have hcompleted : Maintains Q (readCompletes i completion) :=
      (hfilled.branch .skip).andThen (hQ.update fun _ => rfl)
    exact (hcompleted.ite .skip) s o hs
  | writeCompletes i result =>
    have hcompleted : Maintains Q (Action.update fun s =>
        { s with serialPort := s.serialPort.writeCompletes i result }) :=
      hQ.update fun _ => rfl
    exact (hcompleted.branch .skip) s o hs
  | readHandler i => exact ((hQ.readHandler hstop i).branch .skip) s o hs
  | writeHandler i => exact ((hQ.writeHandler hstop i).branch .skip) s o hs

end
end Attentive

def audienceMembers (s : Port) :=
  (s.protocolState, s.handlers, s.handlerList, s.connections, s.bufferTypeSubscribers)

theorem audience_of_session {s t : Port} (hsame : sessionMembers t = sessionMembers s) :
    audienceMembers t = audienceMembers s := by
  simp only [sessionMembers, Prod.mk.injEq] at hsame
  obtain ⟨_, hps, _, hhandlers, hlist, hconnections, _, hsubscribers⟩ := hsame
  unfold audienceMembers
  rw [hps, hhandlers, hlist, hconnections, hsubscribers]

section
variable {Q : Assertion Port Output}
  (hleave : ∀ {s o} (gone : ClientId → Bool), Q s o →
    Q { s with handlers := fun c => if gone c then none else s.handlers c } o)
include hleave

theorem eraseHandler_maintains (c : ClientId) : Maintains Q (Action.update (eraseHandler c)) := by
  refine .update fun s o hs => ?_
  have hleft := hleave (fun d => decide (d = c)) hs
  simp only [decide_eq_true_eq] at hleft
  exact hleft

theorem stopClients_maintains (hrebuild : ∀ {s o}, Q s o → Q s.rebuildSubscriptions o)
    (hstopped : ∀ {s o xs}, Q s o → (∀ y ∈ xs, ∃ c, y = .stopClient c) → Q s (o ++ xs)) :
    Maintains Q stopClients := by
  intro s o hs
  have hleft := hleave (fun c => decide (c ∈ s.live)) (hrebuild hs)
  rw [rebuildSubscriptions_handlers] at hleft
  simp only [decide_eq_true_eq] at hleft
  refine hstopped (s := (stopClients s).1) hleft fun y hy => ?_
  obtain ⟨c, -, rfl⟩ := List.mem_map.mp hy
  exact ⟨c, rfl⟩

end

structure Lockless (Q : Assertion Port Output) : Prop extends Attentive Q where
  control : ∀ {s t o}, Q s o → audienceMembers t = audienceMembers s → Q t o
  stopClients : Maintains Q stopClients
  hold : ∀ {s o} (c : ClientId) (lockedBySelf : Bool), Q s o →
    Q (modifyHandler c (setLockedBySelf lockedBySelf) s) o
  propagate : Maintains Q propagateSerialPortState
  internal : ∀ e : LocalEvent, Maintains Q (callProtocolState (handle (.internal e)))

namespace Lockless

variable {Q : Assertion Port Output} {s t : Port} {o : List Output}

section
variable (hQ : Lockless Q)
include hQ

theorem update {f : Port → Port} (hf : ∀ s, audienceMembers (f s) = audienceMembers s) :
    Maintains Q (update f) := .update fun s _ hs => hQ.control hs (hf s)

theorem dissolve : Maintains Q dissolve := (hQ.internal .shutdown).andThen hQ.stopClients

theorem closeSerialPort : Maintains Q closeSerialPort := by
  have hthrown : Maintains Q (emit [Output.fault .cancelClosed]) := hQ.emit (by simp [Output.Aloof])
  exact (Maintains.skip.branch hthrown).andThen (hQ.update fun _ => rfl)

theorem unregister : Maintains Q unregister := hQ.update fun _ => rfl

theorem stop : Maintains Q stop := by
  have hstopped : Maintains Q (emit [Output.stop]) := hQ.emit (by simp [Output.Aloof])
  exact hstopped.andThen ((hQ.unregister.andThen (hQ.closeSerialPort.andThen hQ.dissolve)).branch .skip)

theorem openSerialPort (opens : OpenResult) : Maintains Q (openSerialPort opens) := by
  have hopened : Maintains Q openPort := hQ.update fun _ => rfl
  cases opens with
  | opened => exact hopened.andThen ((hQ.internal .start).andThen (hQ.doRead.andThen hQ.propagate))
  | failed => exact hQ.unregister.andThen hQ.dissolve
  | notConfigured => exact hopened.andThen (hQ.unregister.andThen hQ.dissolve)

theorem suspendSerialPort : Maintains Q suspendSerialPort := by
  have hemitted : Maintains Q (emit [Output.suspended]) := hQ.emit (by simp [Output.Aloof])
  have hsuspended := hemitted.andThen ((hQ.internal .stop).andThen hQ.closeSerialPort)
  refine Maintains.branch (fun s o hs => ?_) .skip
  have hlocked : Maintains Q (Action.update fun t =>
      { t with serialPortLock := s.serialPortLock.suspendSerialPort.1 }) :=
    hQ.update fun _ => rfl
  exact (hlocked.andThen ((hsuspended.ite (p := s.serialPortLock.suspendSerialPort.2 = true) .skip).andThen
    hQ.propagate)) s o hs

theorem resumeSerialPort (opens : OpenResult) : Maintains Q (resumeSerialPort opens) := by
  have hemitted : Maintains Q (emit [Output.resumed]) := hQ.emit (by simp [Output.Aloof])
  refine Maintains.branch (fun s o hs => ?_) .skip
  have hunlocked : Maintains Q (Action.update fun t =>
      { t with serialPortLock := s.serialPortLock.resumeSerialPort.1 }) :=
    hQ.update fun _ => rfl
  exact (hunlocked.andThen ((hemitted.andThen (hQ.openSerialPort opens)).ite
    (p := s.serialPortLock.resumeSerialPort.2 = true) hQ.propagate)) s o hs

theorem acquireLock (c : ClientId) (h : HdlcdServerHandler) : Maintains Q (acquireLock c h) := by
  have hset : Maintains Q (Action.update (Port.modifyHandler c (setLockedBySelf true))) :=
    .update fun _ _ hs => hQ.hold c true hs
  exact Maintains.skip.ite (hset.andThen hQ.suspendSerialPort)

theorem releaseLock (c : ClientId) (h : HdlcdServerHandler) (opens : OpenResult) :
    Maintains Q (releaseLock c h opens) := by
  have hset : Maintains Q (Action.update (Port.modifyHandler c (setLockedBySelf false))) :=
    .update fun _ _ hs => hQ.hold c false hs
  exact (hset.andThen (hQ.resumeSerialPort opens)).ite .skip

theorem disconnect {c : ClientId} (herase : Maintains Q (Action.update (eraseHandler c))) (opens : OpenResult) :
    Maintains Q (disconnect c opens) := by
  intro s o hs
  unfold wp Port.disconnect
  split
  · exact (List.append_nil o).symm ▸ hs
  · rename_i h _
    by_cases hidle : s.calls.isEmpty = true
    · rw [if_pos hidle]
      exact (herase.andThen (((hQ.resumeSerialPort opens).ite
        (p := h.lockGuard.lockedBySelf = true) .skip).andThen (hQ.stop.branch .skip))) s o hs
    · rw [if_neg hidle]
      exact (List.append_nil o).symm ▸ hs

/-- Every event maintains an assertion that the locks do not concern, if it survives clients
that come and go and received frames. -/
theorem step (hattach : ∀ c sap opens, Maintains Q (attach c sap opens))
    (herase : ∀ c, Maintains Q (Action.update (eraseHandler c))) {e : Event} (hs : Q s o)
    (hproceed : e = .proceed → ∀ offset bytes calls, s.calls = .addReceivedRawBytes offset (bytes + 1) :: calls →
      (Port.addChunk offset (bytes + 1)).wp Q { s with calls := calls } o) : (step e).wp Q s o :=
  hQ.toAttentive.step hQ.stop (fun c sap => hattach c sap _) (fun c => hQ.disconnect (herase c) _)
    (fun _ hs => hQ.acquireLock _ _ _ _ hs) (fun _ hs => hQ.releaseLock _ _ _ _ _ hs) hs
    (fun x _ => ((hQ.internal x.localEvent).branch .skip) s o hs) hproceed

end
end Lockless

section
variable {Q : Assertion Port Output} (hpropagate : Maintains Q propagateSerialPortState)
  (hinit : ∀ {s o}, Q s o → Q s (o ++ [.fault .lockGuardInit]))
include hpropagate hinit

theorem initLockGuard_maintains (c : ClientId) : Maintains Q (initLockGuard c) := by
  intro s o hs
  unfold wp initLockGuard
  split
  · exact (List.append_nil o).symm ▸ hs
  · rename_i h _
    refine ((Maintains.emit fun s o hs => ?_).andThen hpropagate) s o hs
    split_ifs
    · exact hinit hs
    · exact (List.append_nil o).symm ▸ hs

variable (hopen : ∀ opens, Maintains Q (openSerialPort opens))
include hopen

theorem attach_added {s : Port} {o : List Output} {c : ClientId} {sap : UInt8} {h : HdlcdServerHandler}
    (hsap : HdlcdServerHandler.onFrame sap = some h)
    (hcond : (s.registered && s.calls.isEmpty && !s.connections.contains c) = true)
    (hadded : Q (withHandler c h s) o) (opens : OpenResult) : (attach c sap opens).wp Q s o := by
  have htold : (addHdlcdServerHandler c h).wp Q s o :=
    wp_andThen.mpr (wp_update.mpr ((hpropagate.branch .skip) _ _ hadded))
  have hopened := (hopen opens).ite (p := s.connections.isEmpty = true) .skip
  unfold wp attach
  rw [hsap]
  dsimp only
  rw [if_pos hcond]
  exact wp_andThen.mpr (wp_mono htold (hopened.andThen (initLockGuard_maintains hpropagate hinit c)))

theorem attach_maintains
    (hadd : ∀ {s o c sap h}, HdlcdServerHandler.onFrame sap = some h → c ∉ s.connections → Q s o →
      Q (withHandler c h s) o) (c : ClientId) (sap : UInt8) (opens : OpenResult) :
    Maintains Q (attach c sap opens) := by
  intro s o hs
  cases hsap : HdlcdServerHandler.onFrame sap with
  | none =>
    unfold wp attach
    rw [hsap, List.append_nil]
    exact hs
  | some h =>
    by_cases hcond : (s.registered && s.calls.isEmpty && !s.connections.contains c) = true
    · refine attach_added hpropagate hinit hopen hsap hcond (hadd hsap ?_ hs) opens
      simp only [Bool.and_eq_true, Bool.not_eq_true', List.contains_eq_mem, decide_eq_false_iff_not] at hcond
      exact hcond.2
    · unfold wp attach
      rw [hsap]
      dsimp only
      rw [if_neg hcond, List.append_nil]
      exact hs

end

section
variable {s t : Port} {o : List Output}

def tenureMembers (s : Port) :=
  (s.registered, s.protocolState.serialPortHandler, (fun c => (s.handlers c).isSome), s.connections)

def Always (I : Port → Prop) : Assertion Port Output := fun s _ => I s

/-- An invariant that asks nothing of a serial port handler once it is not registered. -/
structure Regular (I : Port → Prop) : Prop where
  consistent : ∀ {s}, I s → Consistent s.protocolState
  retired : ∀ {s}, Consistent s.protocolState → s.registered = false → I s
  members : ∀ {s t}, I s → Consistent t.protocolState → tenureMembers t = tenureMembers s → I t
  enroll : ∀ {s} (c : ClientId) (h : HdlcdServerHandler), I s → I (withHandler c h s)

theorem Served.tenure (h : Served s t) : tenureMembers t = tenureMembers s := by
  have hsame := h.same
  simp only [servedMembers, Prod.mk.injEq] at hsame
  obtain ⟨hreg, hps, _, _, hconnections, _⟩ := hsame
  unfold tenureMembers
  rw [hreg, hps, hconnections, funext h.isSome]

theorem modifyHandler_isSome (c : ClientId) (f : HdlcdServerHandler → HdlcdServerHandler) (s : Port) (d : ClientId) :
    ((modifyHandler c f s).handlers d).isSome = (s.handlers d).isSome := by
  unfold modifyHandler
  dsimp only
  split_ifs
  · exact Option.isSome_map
  · rfl

theorem modifyHandler_tenure (c : ClientId) (f : HdlcdServerHandler → HdlcdServerHandler) (s : Port) :
    tenureMembers (modifyHandler c f s) = tenureMembers s := by
  have hsame := funext (modifyHandler_isSome c f s)
  unfold tenureMembers
  rw [hsame]
  rfl

theorem always_emit {I : Port → Prop} (xs : List Output) : Maintains (Always I) (emit xs) := .emit fun _ _ hs => hs

namespace Regular

section
variable {I : Port → Prop} (hI : Regular I)
include hI

theorem served (hs : I s) (h : Served s t) : I t := by
  have hps : t.protocolState = s.protocolState := congrArg (·.2.1) h.same
  exact hI.members hs (hps ▸ hI.consistent hs) h.tenure

theorem call {e : Hdlcd.Event} (he : e ≠ .internal .shutdown) :
    Maintains (Always I) (callProtocolState (handle e)) := by
  intro s o hs
  have hcalled : I { s with protocolState := (handle e s.protocolState).1 } := by
    apply hI.members hs ((hI.consistent hs).handle e)
    unfold tenureMembers
    rw [handle_serialPortHandler (hI.consistent hs) he]
  exact hI.served hcalled (callProtocolState_done (handle e) s).served

theorem update {f : Port → Port} (hps : ∀ s, (f s).protocolState = s.protocolState)
    (hf : ∀ s, tenureMembers (f s) = tenureMembers s) : Maintains (Always I) (update f) :=
  .update fun s _ hs => hI.members hs (by rw [hps]; exact hI.consistent hs) (hf s)

theorem attentive : Attentive (Always I) where
  members {s t o} hs hsame := by
    simp only [sessionMembers, Prod.mk.injEq] at hsame
    obtain ⟨hreg, hps, _, hhandlers, _, hconnections, _⟩ := hsame
    apply hI.members hs (hps ▸ hI.consistent hs)
    unfold tenureMembers
    rw [hreg, hps, hhandlers, hconnections]
  parser _ hs := hI.members hs ((hI.consistent hs).congr rfl) rfl
  aloof hs _ := hs
  modify {s _ f} c _ hs := hI.members (s := s) hs (hI.consistent (s := s) hs) (modifyHandler_tenure c f s)
  rebuild {s _} hs := hI.served hs (rebuildSubscriptions_served s)
  inward {e} he := hI.call fun hshutdown => by
    rw [hshutdown] at he
    exact he

theorem propagate : Maintains (Always I) propagateSerialPortState := fun s _ hs =>
  hI.served hs (propagateSerialPortState_served s)

theorem setLockedBySelf (c : ClientId) (lockedBySelf : Bool) :
    Maintains (Always I) (Action.update (modifyHandler c (Port.setLockedBySelf lockedBySelf))) :=
  hI.update (fun _ => rfl) fun s => modifyHandler_tenure c _ s

theorem dissolve (hps : Consistent s.protocolState) (hreg : s.registered = false) :
    dissolve.wp (Always I) s o := by
  have hsame := (callProtocolState_done ProtocolState.shutdown s).served.same
  simp only [servedMembers, Prod.mk.injEq] at hsame
  have hrebuilt := (rebuildSubscriptions_served (callProtocolState ProtocolState.shutdown s).1).same
  simp only [servedMembers, Prod.mk.injEq] at hrebuilt
  have hcalled : Consistent (handle (.internal .shutdown) s.protocolState).1 := hps.handle _
  apply hI.retired
  · show Consistent (callProtocolState ProtocolState.shutdown s).1.rebuildSubscriptions.protocolState
    rw [hrebuilt.2.1, hsame.2.1]
    exact hcalled
  · exact hrebuilt.1.trans (hsame.1.trans hreg)

theorem stop_from (hps : Consistent s.protocolState) : stop.wp (Always I) s o := by
  refine wp_andThen.mpr (wp_emit.mpr (wp_branch (fun _ => ?_) fun hreg => wp_skip.mpr (hI.retired hps hreg)))
  exact wp_andThen.mpr (wp_update.mpr (wp_andThen.mpr (wp_closeSerialPort (hI.dissolve hps rfl))))

theorem stop : Maintains (Always I) stop := fun s _ hs => hI.stop_from (hI.consistent (s := s) hs)

theorem openSerialPort (opens : OpenResult) : Maintains (Always I) (openSerialPort opens) := by
  have hopened : Maintains (Always I) openPort := hI.update (fun _ => rfl) fun _ => rfl
  have hfailed : Maintains (Always I) (unregister.andThen Port.dissolve) := fun s o hs =>
    wp_andThen.mpr (wp_update.mpr (hI.dissolve (hI.consistent (s := s) hs) rfl))
  cases opens with
  | opened =>
    have hstart := hI.call (e := .internal .start) (by simp)
    exact hopened.andThen (hstart.andThen (hI.attentive.doRead.andThen hI.propagate))
  | failed => exact hfailed
  | notConfigured => exact hopened.andThen hfailed

theorem suspendSerialPort : Maintains (Always I) suspendSerialPort := by
  have hclosed : Maintains (Always I) closeSerialPort := fun s _ hs =>
    wp_closeSerialPort (hI.members (s := s) hs (hI.consistent (s := s) hs) rfl)
  have hsuspended := (always_emit [.suspended]).andThen ((hI.call (e := .internal .stop) (by simp)).andThen hclosed)
  refine Maintains.branch (fun s o hs => ?_) .skip
  have hlocked := hI.update (f := fun t => { t with serialPortLock := s.serialPortLock.suspendSerialPort.1 })
    (fun _ => rfl) fun _ => rfl
  exact (hlocked.andThen ((hsuspended.ite (p := s.serialPortLock.suspendSerialPort.2 = true) .skip).andThen
    hI.propagate)) s o hs

theorem resumeSerialPort (opens : OpenResult) : Maintains (Always I) (resumeSerialPort opens) := by
  refine Maintains.branch (fun s o hs => ?_) .skip
  have hunlocked := hI.update (f := fun t => { t with serialPortLock := s.serialPortLock.resumeSerialPort.1 })
    (fun _ => rfl) fun _ => rfl
  exact (hunlocked.andThen (((always_emit [.resumed]).andThen (hI.openSerialPort opens)).ite
    (p := s.serialPortLock.resumeSerialPort.2 = true) hI.propagate)) s o hs

theorem attach_added {c : ClientId} {sap : UInt8} {h : HdlcdServerHandler}
    (hsap : HdlcdServerHandler.onFrame sap = some h)
    (hcond : (s.registered && s.calls.isEmpty && !s.connections.contains c) = true) (hadded : I (withHandler c h s))
    (opens : OpenResult) : (Port.attach c sap opens).wp (Always I) s o :=
  Port.attach_added hI.propagate (fun hs => hs) hI.openSerialPort hsap hcond hadded opens

theorem attach (c : ClientId) (sap : UInt8) (opens : OpenResult) : Maintains (Always I) (attach c sap opens) :=
  attach_maintains hI.propagate (fun hs => hs) hI.openSerialPort (fun _ _ hs => hI.enroll _ _ hs) c sap opens

theorem disconnect (herase : ∀ {s c}, I s → I (eraseHandler c s))
    (c : ClientId) (opens : OpenResult) : Maintains (Always I) (disconnect c opens) := by
  intro s o hs
  unfold wp Port.disconnect
  split
  · exact hs
  · rename_i h _
    have hreleased := (hI.resumeSerialPort opens).ite (p := h.lockGuard.lockedBySelf = true) .skip
    by_cases hidle : s.calls.isEmpty = true
    · rw [if_pos hidle]
      exact (hreleased.andThen (hI.stop.branch .skip)) _ o (herase hs)
    · rw [if_neg hidle]
      exact hs

theorem step (hdisconnect : ∀ c opens, Maintains (Always I) (Port.disconnect c opens)) (e : Event) :
    Maintains (Always I) (step e) := by
  intro s o hs
  refine hI.attentive.step hI.stop (fun c sap => hI.attach c sap _) (fun c => hdisconnect c _)
    (fun {s o c h} _ hs => ?_) (fun {s o c h} _ hs => ?_) hs (fun x _ => ?_) fun _ offset bytes calls _ => ?_
  · exact (Maintains.skip.ite ((hI.setLockedBySelf c true).andThen hI.suspendSerialPort)) s o hs
  · exact (((hI.setLockedBySelf c false).andThen (hI.resumeSerialPort e.opening)).ite .skip) s o hs
  · have hcalled := hI.call (e := .internal x.localEvent) (by cases x <;> simp [TimerEvent.localEvent])
    exact (hcalled.branch .skip) s o hs
  · exact hI.attentive.addChunk (fun buffer messageInvalid => hI.call (by simp)) offset (bytes + 1) _ _
      (hI.attentive.members (o := o) (t := { s with calls := calls }) hs rfl)

end
end Regular

/-- The protocol state of a registered serial port handler can call it. -/
structure Supplied (s : Port) : Prop where
  consistent : Consistent s.protocolState
  set : s.registered = true → s.protocolState.serialPortHandler = true

theorem supplied_regular : Regular Supplied where
  consistent hs := hs.consistent
  retired hps hreg := ⟨hps, fun ht => absurd (hreg.symm.trans ht) Bool.false_ne_true⟩
  members hs hps hsame := by
    simp only [tenureMembers, Prod.mk.injEq] at hsame
    refine ⟨hps, fun ht => ?_⟩
    rw [hsame.2.1]
    exact hs.set (hsame.1 ▸ ht)
  enroll _ _ hs := ⟨hs.consistent, hs.set⟩

theorem step_supplied (e : Event) : Maintains (Always Supplied) (step e) :=
  supplied_regular.step (supplied_regular.disconnect fun hs => ⟨hs.consistent, hs.set⟩) e

theorem run_supplied (es : List Event) : Supplied (run step es initial).1 :=
  wp_run (P := Always Supplied) (fun e _ => step_supplied e) (o := []) ⟨.initial, fun _ => rfl⟩

end
end Port
end Hdlcd
