import Hdlcd.SerialPort.Operations
import Hdlcd.Port.Line
import Hdlcd.Port.Sessions

/-! Assertions about the protocol state, the bytes that its parser still gets, the packets
that are passed to it and the frames that it hands over. Clients, locks and writes do not
matter. -/

namespace Hdlcd

def Call.unread (s : Port) : Call → List UInt8
  | .addReceivedRawBytes offset bytes => s.readBytes offset bytes
  | _ => []

def LocalEvent.Unsolicited : LocalEvent → Prop
  | .sendPayload .. => False
  | _ => True

namespace Port
open Reactive Action ProtocolState

def unread (s : Port) : List UInt8 := s.calls.flatMap (Call.unread s)

def bytesFound (s : Port) (r : ReadOperation) : Option (List UInt8) :=
  match r.result with
  | some (.success bytesRead) => some (s.readBytes 0 bytesRead)
  | _ => none

def unhandled (s : Port) : List (List UInt8) := s.serialPort.reads.filterMap s.bytesFound

def input (s : Port) := (s.unread, s.unhandled)

def Output.Incidental : Output → Prop
  | .transmitHDLCFrame _ | .sendPayload .. => False
  | _ => True

structure Confined (Q : Assertion Port Output) : Prop where
  members : ∀ {s t o}, Q s o → t.protocolState = s.protocolState → t.input = s.input → Q t o
  incidental : ∀ {s o xs}, Q s o → (∀ y ∈ xs, y.Incidental) → Q s (o ++ xs)
  event : ∀ {e : LocalEvent}, e.Unsolicited → Maintains Q (callProtocolState (handle (.internal e)))
  submit : ∀ c p, Maintains Q (deliverPayloadToHDLC c p)

section
variable {s : Port} {c : ClientId}

theorem input_of_calls {t : Port} (h : t.calls = s.calls) (hbuffer : t.readBuffer = s.readBuffer)
    (hreads : t.serialPort.reads = s.serialPort.reads) : t.input = s.input := by
  unfold input unread unhandled Call.unread bytesFound readBytes
  rw [h, hbuffer, hreads]

theorem Served.input {t : Port} (h : Served s t) (hcalls : t.calls = s.calls) : t.input = s.input :=
  input_of_calls hcalls (congrArg (·.2.2.2.2.2.2.2.2) h.same) (congrArg (·.2.2.2.2.2.2.2.1) h.same)

theorem unread_pop {x : Call} {calls : List Call} (hcalls : s.calls = x :: calls) :
    s.unread = x.unread s ++ unread { s with calls := calls } := by
  unfold unread
  rw [hcalls, List.flatMap_cons]
  rfl

theorem input_pop {x : Call} {calls : List Call} (hcalls : s.calls = x :: calls) (hx : x.unread s = []) :
    input { s with calls := calls } = s.input := by
  unfold input
  rw [unread_pop hcalls, hx]
  rfl

theorem input_push {x : Call} (hx : x.unread s = []) : input { s with calls := x :: s.calls } = s.input :=
  (input_pop (s := { s with calls := x :: s.calls }) rfl hx).symm

theorem input_leave (h : s.calls.head? = some (.receiving c)) :
    input { s with calls := s.calls.tail } = s.input := input_pop (tail_of_head? h) rfl

theorem bytesFound_failed (s : Port) (r : ReadOperation) : s.bytesFound (r.complete .error) = s.bytesFound r := by
  unfold ReadOperation.complete
  split
  · rename_i hnone
    unfold bytesFound
    rw [hnone]
  · rfl

theorem input_close (s : Port) : input { s with serialPort := s.serialPort.close } = s.input := by
  refine congrArg (Prod.mk s.unread) ?_
  show (s.serialPort.reads.map (.complete .error)).filterMap s.bytesFound = s.unhandled
  rw [List.filterMap_map]
  exact List.filterMap_congr fun r _ => bytesFound_failed s r

theorem input_failed (i : Nat) (s : Port) :
    input { s with serialPort := s.serialPort.readCompletes i .error } = s.input := by
  refine congrArg (Prod.mk s.unread) ?_
  show (s.serialPort.reads.modify i (.complete .error)).filterMap s.bytesFound = s.unhandled
  unfold unhandled
  induction s.serialPort.reads generalizing i with
  | nil => rw [List.modify_nil]
  | cons r rs ih =>
    cases i with
    | zero =>
      rw [List.modify_zero_cons, List.filterMap_cons, List.filterMap_cons, bytesFound_failed]
    | succ i => rw [List.modify_succ_cons, List.filterMap_cons, List.filterMap_cons, ih]

theorem input_asyncReadSome (s : Port) : input { s with serialPort := s.serialPort.asyncReadSome } = s.input := by
  refine congrArg (Prod.mk s.unread) ?_
  show (s.serialPort.reads ++
      [(⟨_, if s.serialPort.isOpen then none else some .error⟩ : ReadOperation)]).filterMap s.bytesFound =
    s.unhandled
  rw [List.filterMap_append]
  split_ifs <;> exact List.append_nil _

theorem input_eraseIdx {i : Nat} {r : ReadOperation} (hr : s.serialPort.reads[i]? = some r)
    (hnone : s.bytesFound r = none) :
    input { s with serialPort := { s.serialPort with reads := s.serialPort.reads.eraseIdx i } } = s.input := by
  obtain ⟨hi, rfl⟩ := List.getElem?_eq_some_iff.mp hr
  refine congrArg (Prod.mk s.unread) ?_
  show (s.serialPort.reads.eraseIdx i).filterMap s.bytesFound = s.unhandled
  unfold unhandled
  conv_rhs => rw [← List.take_append_drop i s.serialPort.reads, List.drop_eq_getElem_cons hi]
  rw [List.eraseIdx_eq_take_drop_succ, List.filterMap_append, List.filterMap_append, List.filterMap_cons_none hnone]

end

namespace Confined

variable {Q : Assertion Port Output} {s : Port} {o : List Output} {c : ClientId}

section
variable (hQ : Confined Q)
include hQ

theorem emit {xs : List Output} (hxs : ∀ y ∈ xs, y.Incidental) : Maintains Q (emit xs) :=
  .emit fun _ _ hs => hQ.incidental hs hxs

theorem update {f : Port → Port} (hps : ∀ s, (f s).protocolState = s.protocolState)
    (hinput : ∀ s, (f s).input = s.input) : Maintains Q (update f) :=
  .update fun s _ hs => hQ.members hs (hps s) (hinput s)

theorem forEach {f : ClientId → HdlcdServerHandler → HdlcdServerHandler × List Output}
    (hf : ∀ c h, ∀ y ∈ (f c h).2, y.Incidental) : Maintains Q (forEachHdlcdServerHandler f) := by
  intro s o hs
  have hserved := rebuildSubscriptions_served s
  have hps : s.rebuildSubscriptions.protocolState = s.protocolState := congrArg (·.2.1) hserved.same
  have hinput := hserved.input (rebuildSubscriptions_calls s)
  refine hQ.incidental (hQ.members hs hps hinput) fun y hy => ?_
  obtain ⟨c, h, hy⟩ := forEach_outputs hy
  exact hf c h y hy

theorem propagateSerialPortState : Maintains Q propagateSerialPortState := by
  intro s
  refine hQ.forEach (fun c h y hy => ?_) s
  dsimp only at hy
  split_ifs at hy
  · rw [List.mem_singleton.mp hy]
    trivial
  · exact absurd hy List.not_mem_nil

theorem doRead : Maintains Q doRead :=
  (hQ.emit (by simp [Output.Incidental])).andThen (hQ.update (fun _ => rfl) input_asyncReadSome)

theorem doWrite : Maintains Q doWrite := by
  intro s o hs
  refine hQ.incidental (hQ.members hs rfl rfl) fun y hy => ?_
  have hy' : y ∈ (if s.sendBuffer.length < s.sendBufferOffset then
      [.doWrite, .fault .lengthUnderflow] else [.doWrite]) ++ [] := hy
  rw [List.append_nil] at hy'
  split_ifs at hy'
  · rcases List.mem_pair.mp hy' with rfl | rfl <;> trivial
  · rw [List.mem_singleton.mp hy']
    trivial

theorem pushCall {x : Call} (hx : ∀ s, x.unread s = []) : Maintains Q (pushCall x) :=
  hQ.update (fun _ => rfl) fun s => input_push (hx s)

theorem modifyHandler (c : ClientId) (f : HdlcdServerHandler → HdlcdServerHandler) :
    Maintains Q (Action.update (modifyHandler c f)) := hQ.update (fun _ => rfl) fun _ => rfl

theorem stopClients : Maintains Q stopClients := by
  intro s o hs
  have hserved := rebuildSubscriptions_served s
  have hps : s.rebuildSubscriptions.protocolState = s.protocolState := congrArg (·.2.1) hserved.same
  have hinput := hserved.input (rebuildSubscriptions_calls s)
  refine hQ.incidental (hQ.members hs hps hinput) fun y hy => ?_
  obtain ⟨c, -, rfl⟩ := List.mem_map.mp hy
  trivial

theorem dissolve : Maintains Q dissolve := (hQ.event (e := .shutdown) trivial).andThen hQ.stopClients

theorem unregister : Maintains Q unregister := hQ.update (fun _ => rfl) fun _ => rfl

theorem closeSerialPort : Maintains Q closeSerialPort := by
  have hthrown : Maintains Q (Action.emit [Output.fault .cancelClosed]) :=
    hQ.emit (by simp [Output.Incidental])
  exact (Maintains.skip.branch hthrown).andThen (hQ.update (fun _ => rfl) input_close)

theorem stop : Maintains Q stop := by
  have hstopped : Maintains Q (Action.emit [Output.stop]) := hQ.emit (by simp [Output.Incidental])
  exact hstopped.andThen ((hQ.unregister.andThen (hQ.closeSerialPort.andThen hQ.dissolve)).branch .skip)

theorem openSerialPort (opens : OpenResult) : Maintains Q (openSerialPort opens) := by
  have hopened : Maintains Q openPort := hQ.update (fun _ => rfl) fun _ => rfl
  cases opens with
  | opened =>
    exact hopened.andThen ((hQ.event (e := .start) trivial).andThen
      (hQ.doRead.andThen hQ.propagateSerialPortState))
  | failed => exact hQ.unregister.andThen hQ.dissolve
  | notConfigured => exact hopened.andThen (hQ.unregister.andThen hQ.dissolve)

theorem suspendSerialPort : Maintains Q suspendSerialPort := by
  have hemitted : Maintains Q (Action.emit [Output.suspended]) := hQ.emit (by simp [Output.Incidental])
  have hsuspended := hemitted.andThen ((hQ.event (e := .stop) trivial).andThen hQ.closeSerialPort)
  refine Maintains.branch (fun s o hs => ?_) .skip
  have hlocked : Maintains Q (Action.update fun t =>
      { t with serialPortLock := s.serialPortLock.suspendSerialPort.1 }) :=
    hQ.update (fun _ => rfl) fun _ => rfl
  exact (hlocked.andThen ((hsuspended.ite (p := s.serialPortLock.suspendSerialPort.2 = true) .skip).andThen
    hQ.propagateSerialPortState)) s o hs

theorem resumeSerialPort (opens : OpenResult) : Maintains Q (resumeSerialPort opens) := by
  have hemitted : Maintains Q (Action.emit [Output.resumed]) := hQ.emit (by simp [Output.Incidental])
  refine Maintains.branch (fun s o hs => ?_) .skip
  have hunlocked : Maintains Q (Action.update fun t =>
      { t with serialPortLock := s.serialPortLock.resumeSerialPort.1 }) :=
    hQ.update (fun _ => rfl) fun _ => rfl
  exact (hunlocked.andThen ((hemitted.andThen (hQ.openSerialPort opens)).ite
    (p := s.serialPortLock.resumeSerialPort.2 = true) hQ.propagateSerialPortState)) s o hs

theorem stall (c : ClientId) : Maintains Q (stall c) := by
  refine .update fun s o hs => ?_
  have hleft : input { s with calls := if s.calls.head? = some (.receiving c) then s.calls.tail else s.calls } =
      s.input := by
    split_ifs with hhead
    · exact input_leave hhead
    · rfl
  exact hQ.members hs rfl hleft

theorem onDataReceived (c : ClientId) (h : HdlcdServerHandler) (p : PacketData) :
    Maintains Q (onDataReceived c h p) := by
  have haccepted := (hQ.modifyHandler c fun h => { h with serialPortHandlerAwaitsPacket := false }).andThen
    ((hQ.pushCall (x := .packetDelivery c) fun _ => rfl).andThen (hQ.submit c p))
  have hpending : Maintains Q (if h.pendingIncomingPacketData.isSome then
      Action.emit [.fault .pendingPacket] else Action.skip) :=
    (hQ.emit (by simp [Output.Incidental])).ite .skip
  exact (hQ.emit (by simp [Output.Incidental])).andThen (hpending.andThen
    ((hQ.modifyHandler c fun h => { h with pendingIncomingPacketData := some p }).andThen
      (haccepted.ite (hQ.stall c))))

theorem onCtrlReceived (c : ClientId) (h : HdlcdServerHandler) (opens : OpenResult) (packet : Packet) :
    Maintains Q (onCtrlReceived c h opens packet) := by
  cases packet with
  | data | keepAlive => exact .skip
  | echo => exact hQ.emit (by simp [Output.Incidental])
  | portKill => exact hQ.stop
  | portStatus lock =>
    cases lock with
    | true => exact Maintains.skip.ite ((hQ.modifyHandler c (setLockedBySelf true)).andThen hQ.suspendSerialPort)
    | false =>
      exact ((hQ.modifyHandler c (setLockedBySelf false)).andThen (hQ.resumeSerialPort opens)).ite .skip

theorem receive (c : ClientId) (packet : Packet) (opens : OpenResult) : Maintains Q (receive c packet opens) := by
  intro s o hs
  unfold wp Port.receive
  split
  · exact (List.append_nil o).symm ▸ hs
  · rename_i h _
    split_ifs
    · split
      · exact hQ.onDataReceived c h _ s o hs
      · exact hQ.onCtrlReceived c h opens packet s o hs
    · exact (List.append_nil o).symm ▸ hs

theorem endReceiving (c : ClientId) : Maintains Q (endReceiving c) := by
  intro s o hs
  refine wp_branch (fun hhead => wp_update.mpr ?_) fun _ => wp_skip.mpr hs
  exact hQ.members hs rfl (input_leave (beq_iff_eq.mp hhead))

theorem triggerNextDataPacket (c : ClientId) : Maintains Q (triggerNextDataPacket c) := by
  intro s o hs
  unfold wp Port.triggerNextDataPacket
  split
  · exact hQ.incidental hs (by simp [Output.Incidental])
  · split_ifs
    · exact ((hQ.modifyHandler c fun h => { h with stalled := false }).andThen
        (hQ.pushCall (x := .receiving c) fun _ => rfl)) s o hs
    · exact (List.append_nil o).symm ▸ hs

theorem queryClient (r u : Bool) (c : ClientId) : Maintains Q (queryClient r u c) := by
  intro s o hs
  unfold wp Port.queryClient
  split
  · exact (List.append_nil o).symm ▸ hs
  · split
    · rename_i p _
      split_ifs
      · exact ((hQ.pushCall (x := .pendingDelivery c) fun _ => rfl).andThen (hQ.submit c p)) s o hs
      · exact (List.append_nil o).symm ▸ hs
    · exact ((hQ.modifyHandler c fun h => { h with serialPortHandlerAwaitsPacket := true }).andThen
        (hQ.triggerNextDataPacket c)) s o hs

theorem clearPending (c : ClientId) : Maintains Q (clearPending c) := hQ.modifyHandler c _

theorem proceed (hs : Q s o)
    (hchunk : ∀ offset bytes calls, s.calls = .addReceivedRawBytes offset (bytes + 1) :: calls →
      (Port.addChunk offset (bytes + 1)).wp Q { s with calls := calls } o) : proceed.wp Q s o := by
  unfold wp Port.proceed
  split
  · exact (List.append_nil o).symm ▸ hs
  · rename_i x calls hcalls
    have hpopped (hx : x.unread s = []) : Q { s with calls := calls } o := hQ.members hs rfl (input_pop hcalls hx)
    show (resumeCall x).wp Q { s with calls := calls } o
    cases x with
    | queryForPayload r u =>
      let t : Port := { s with calls := calls }
      have hserved := rebuildSubscriptions_served t
      have hps : t.rebuildSubscriptions.protocolState = t.protocolState := congrArg (·.2.1) hserved.same
      have hrebuilt : Q t.rebuildSubscriptions o :=
        hQ.members (hpopped rfl) hps (hserved.input (rebuildSubscriptions_calls t))
      have hround : input { t.rebuildSubscriptions with calls := .forEach r u t.live :: t.calls } =
          t.rebuildSubscriptions.input := by
        rw [← rebuildSubscriptions_calls t]
        exact input_push rfl
      exact wp_update.mpr (hQ.members hrebuilt rfl hround)
    | forEach r u clients =>
      cases clients with
      | nil => exact wp_skip.mpr (hpopped rfl)
      | cons c clients =>
        exact ((hQ.pushCall (x := .forEach r u clients) fun _ => rfl).andThen (hQ.queryClient r u c)) _ _ (hpopped rfl)
    | pendingDelivery c => exact ((hQ.clearPending c).andThen (hQ.triggerNextDataPacket c)) _ _ (hpopped rfl)
    | packetDelivery c => exact hQ.clearPending c _ _ (hpopped rfl)
    | receiving c => exact hQ.pushCall (x := .receiving c) (fun _ => rfl) _ _ (hpopped rfl)
    | addReceivedRawBytes offset bytes =>
      cases bytes with
      | zero => exact wp_skip.mpr (hpopped rfl)
      | succ bytes => exact hchunk offset bytes calls hcalls
    | readHandler => exact (Maintains.skip.branch hQ.doRead) _ _ (hpopped rfl)

theorem onWrite (result : WriteResult) : Maintains Q (onWrite result) := by
  cases result with
  | success bytesSent =>
    have hoffset (n : Port → Nat) : Maintains Q (Action.update fun s => { s with sendBufferOffset := n s }) :=
      hQ.update (fun _ => rfl) fun _ => rfl
    have hemitted : Maintains Q (Action.emit [.triggerNextHDLCFrame]) := hQ.emit (by simp [Output.Incidental])
    have htriggered := hemitted.andThen (hQ.event (e := .triggerNextHDLCFrame) trivial)
    exact (hoffset fun s => s.sendBufferOffset + bytesSent).andThen
      (((hoffset fun _ => 0).andThen (Maintains.skip.branch htriggered)).branch
        (Maintains.skip.branch hQ.doWrite))
  | error => exact Maintains.skip.branch hQ.stop

theorem readHandler (hs : Q s o) {i : Nat}
    (hread : ∀ r bytesRead, s.serialPort.reads[i]? = some r → r.result = some (.success bytesRead) →
      (onRead r (.success bytesRead)).wp Q
        { s with serialPort := { s.serialPort with reads := s.serialPort.reads.eraseIdx i } } o) :
    (readHandler i).wp Q s o := by
  unfold wp Port.readHandler
  split
  · rename_i r hr
    split
    · rename_i result hresult
      cases result with
      | success bytesRead => exact hread r bytesRead hr hresult
      | error =>
        have hnone : s.bytesFound r = none := by rw [bytesFound, hresult]
        exact (Maintains.skip.branch hQ.stop) _ _ (hQ.members hs rfl (input_eraseIdx hr hnone))
    · exact (List.append_nil o).symm ▸ hs
  · exact (List.append_nil o).symm ▸ hs

theorem readCompletes (hs : Q s o) {i : Nat} {completion : ReadCompletion}
    (hcompletes : ∀ bytes, completion = .success bytes → s.serialPort.readPending i = true →
      (readCompletes i completion).wp Q s o) : (readCompletes i completion).wp Q s o := by
  cases hpending : s.serialPort.readPending i with
  | false =>
    refine wp_andThen.mpr (wp_branch (fun h => absurd (hpending.symm.trans h) Bool.false_ne_true) fun _ => ?_)
    refine wp_skip.mpr (wp_update.mpr (hQ.members hs rfl ?_))
    rw [SerialPort.readCompletes_of_not_pending hpending]
  | true =>
    cases completion with
    | success bytes => exact hcompletes bytes rfl hpending
    | error =>
      have hfilled : Q (fillReadBuffer [] s) o := hQ.members hs rfl rfl
      refine wp_andThen.mpr (wp_branch (fun _ => wp_update.mpr (wp_update.mpr ?_)) fun h =>
        absurd (hpending.symm.trans h) Bool.noConfusion)
      exact hQ.members hfilled rfl (input_failed i _)

theorem writeHandler (i : Nat) : Maintains Q (writeHandler i) := by
  intro s o hs
  unfold wp Port.writeHandler
  split
  · split
    · exact hQ.onWrite _ _ _ (hQ.members hs rfl rfl)
    · exact (List.append_nil o).symm ▸ hs
  · exact (List.append_nil o).symm ▸ hs

theorem attach (c : ClientId) (sap : UInt8) (opens : OpenResult) : Maintains Q (attach c sap opens) :=
  attach_maintains hQ.propagateSerialPortState
    (fun hs => hQ.incidental hs (by simp [Output.Incidental])) hQ.openSerialPort
    (fun _ _ hs => hQ.members hs rfl rfl) c sap opens

theorem disconnect (c : ClientId) (opens : OpenResult) : Maintains Q (disconnect c opens) := by
  intro s o hs
  unfold wp Port.disconnect
  split
  · exact (List.append_nil o).symm ▸ hs
  · rename_i h _
    have herased : Maintains Q (Action.update (eraseHandler c)) := hQ.update (fun _ => rfl) fun _ => rfl
    by_cases hidle : s.calls.isEmpty = true
    · rw [if_pos hidle]
      exact (herased.andThen (((hQ.resumeSerialPort opens).ite
        (p := h.lockGuard.lockedBySelf = true) .skip).andThen (hQ.stop.branch .skip))) s o hs
    · rw [if_neg hidle]
      exact (List.append_nil o).symm ▸ hs

theorem timer (x : TimerEvent) : Maintains Q (Port.step (.timer x)) := by
  have hunsolicited : x.localEvent.Unsolicited := by cases x <;> trivial
  exact (hQ.event hunsolicited).branch .skip

theorem step {e : Event} (hs : Q s o)
    (hcompletes : ∀ i bytes, e = .readCompletes i (.success bytes) → s.serialPort.readPending i = true →
      (Port.readCompletes i (.success bytes)).wp Q s o)
    (hread : ∀ i r bytesRead, e = .readHandler i → s.calls = [] → s.serialPort.reads[i]? = some r →
      r.result = some (.success bytesRead) → (onRead r (.success bytesRead)).wp Q
        { s with serialPort := { s.serialPort with reads := s.serialPort.reads.eraseIdx i } } o)
    (hproceed : e = .proceed → ∀ offset bytes calls, s.calls = .addReceivedRawBytes offset (bytes + 1) :: calls →
      (Port.addChunk offset (bytes + 1)).wp Q { s with calls := calls } o) : (step e).wp Q s o := by
  cases e with
  | attach c sap opens => exact hQ.attach c sap opens s o hs
  | disconnect c opens => exact hQ.disconnect c opens s o hs
  | receive c packet opens => exact hQ.receive c packet opens s o hs
  | endReceiving c => exact hQ.endReceiving c s o hs
  | proceed => exact hQ.proceed hs (hproceed rfl)
  | timer x => exact hQ.timer x s o hs
  | readCompletes i completion =>
    unfold Port.step
    dsimp only
    split_ifs
    · refine hQ.readCompletes hs ?_
      rintro bytes rfl hpending
      exact hcompletes i bytes rfl hpending
    · exact wp_skip.mpr hs
  | writeCompletes i result =>
    have hcompleted : Maintains Q (Action.update fun s =>
        { s with serialPort := s.serialPort.writeCompletes i result }) :=
      hQ.update (fun _ => rfl) fun _ => rfl
    exact (hcompleted.branch .skip) s o hs
  | readHandler i =>
    refine wp_branch (fun hidle => hQ.readHandler hs fun r bytes => ?_) fun _ => wp_skip.mpr hs
    exact hread i r bytes rfl (List.isEmpty_iff.mp hidle)
  | writeHandler i => exact ((hQ.writeHandler i).branch .skip) s o hs

end
end Confined
end Port
end Hdlcd
