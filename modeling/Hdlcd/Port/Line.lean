import Hdlcd.Port.Refinement
import Hdlcd.Protocol.Occupation

/-! Assertions about the line to the device: its operations, frames and locks. What the
clients were told, and the packets they hand over, do not matter. -/

namespace Hdlcd

def Call.Inner : Call → Prop
  | .readHandler _ => False
  | _ => True

namespace Port
open Reactive Action ProtocolState

def lineMembers (s : Port) :=
  (s.registered, s.serialPort, s.protocolState, s.sendBuffer, s.sendBufferOffset, s.serialPortLock,
    s.connections.isEmpty, s.calls)

def Output.Foreign : Output → Prop
  | .portStatus .. | .dataPacket .. | .echo _ | .onDataReceived .. | .sendPayload .. | .stopClient _
  | .fault .lockGuardInit | .fault .pendingPacket | .fault .nullPacketEndpoint | .fault .cancelClosed => True
  | _ => False

/-- Assertions about a line that was opened once. -/
structure Wired (Q : Assertion Port Output) : Prop where
  connected : ∀ {s o}, Q s o → s.connections ≠ []
  members : ∀ {s t o}, Q s o → lineMembers t = lineMembers s → Q t o
  foreign : ∀ {s o xs}, Q s o → (∀ y ∈ xs, y.Foreign) → Q s (o ++ xs)
  parser : ∀ {s o} (p : FrameParser), Q s o →
    Q { s with protocolState := { s.protocolState with frameParser := p } } o
  push : ∀ {s o} (x : Call), x.Inner → Q s o → Q { s with calls := x :: s.calls } o
  pop : ∀ {s o x calls}, s.calls = x :: calls → x.Inner → Q s o → Q { s with calls := calls } o
  event : ∀ {e : Hdlcd.Event}, e.Peaceful → Maintains Q (callProtocolState (handle e))

section
variable {s : Port} {c : ClientId}

theorem rebuildSubscriptions_line (s : Port) : lineMembers s.rebuildSubscriptions = lineMembers s := by
  unfold rebuildSubscriptions
  split_ifs <;> rfl

theorem stopClients_line (s : Port) : lineMembers (stopClients s).1 = lineMembers s := by
  show lineMembers s.rebuildSubscriptions = _
  exact rebuildSubscriptions_line s

theorem tail_of_head? {x : Call} (h : s.calls.head? = some x) : s.calls = x :: s.calls.tail := by
  obtain ⟨calls, hcalls⟩ := List.head?_eq_some_iff.mp h
  rw [hcalls]
  rfl

end

namespace Wired

variable {Q : Assertion Port Output} {s : Port} {o : List Output} {c : ClientId}

section
variable (hQ : Wired Q)
include hQ

theorem emit {xs : List Output} (hxs : ∀ y ∈ xs, y.Foreign) : Maintains Q (emit xs) :=
  .emit fun _ _ hs => hQ.foreign hs hxs

theorem update {f : Port → Port} (hf : ∀ s, lineMembers (f s) = lineMembers s) : Maintains Q (update f) :=
  .update fun s _ hs => hQ.members hs (hf s)

theorem forEach {f : ClientId → HdlcdServerHandler → HdlcdServerHandler × List Output}
    (hf : ∀ c h, ∀ y ∈ (f c h).2, y.Foreign) : Maintains Q (forEachHdlcdServerHandler f) := by
  intro s o hs
  have hrebuilt := hQ.members hs (rebuildSubscriptions_line s)
  refine hQ.foreign (hQ.members hrebuilt rfl) fun y hy => ?_
  obtain ⟨c, h, hy⟩ := forEach_outputs hy
  exact hf c h y hy

theorem stopClients : Maintains Q stopClients := by
  intro s o hs
  refine hQ.foreign (hQ.members hs (stopClients_line s)) fun y hy => ?_
  obtain ⟨c, -, rfl⟩ := List.mem_map.mp hy
  trivial

theorem propagateSerialPortState : Maintains Q propagateSerialPortState := by
  intro s
  refine hQ.forEach (fun c h y hy => ?_) s
  dsimp only at hy
  split_ifs at hy
  · rw [List.mem_singleton.mp hy]
    trivial
  · exact absurd hy List.not_mem_nil

theorem initLockGuard (c : ClientId) : Maintains Q (initLockGuard c) := by
  intro s o hs
  unfold wp Port.initLockGuard
  split
  · exact (List.append_nil o).symm ▸ hs
  · refine ((hQ.emit fun y hy => ?_).andThen hQ.propagateSerialPortState) s o hs
    split_ifs at hy
    · rw [List.mem_singleton.mp hy]
      trivial
    · exact absurd hy List.not_mem_nil

theorem pushCall {x : Call} (hx : x.Inner) : Maintains Q (pushCall x) := .update fun _ _ hs => hQ.push x hx hs

theorem modifyHandler (c : ClientId) (f : HdlcdServerHandler → HdlcdServerHandler) :
    Maintains Q (Action.update (modifyHandler c f)) := hQ.update fun _ => rfl

theorem deliverPayloadToHDLC (c : ClientId) (p : PacketData) : Maintains Q (deliverPayloadToHDLC c p) := by
  have hsent : Maintains Q (Action.emit [Output.sendPayload c p]) := hQ.emit (by simp [Output.Foreign])
  exact hsent.andThen (hQ.event (e := .internal (.sendPayload p.data p.reliable)) trivial)

theorem leave (hs : Q s o) (c : ClientId) :
    Q { s with calls := if s.calls.head? = some (.receiving c) then s.calls.tail else s.calls } o := by
  split_ifs with hhead
  · exact hQ.pop (tail_of_head? hhead) trivial hs
  · exact hs

theorem onDataReceived (c : ClientId) (h : HdlcdServerHandler) (p : PacketData) :
    Maintains Q (onDataReceived c h p) := by
  have hstalled : Maintains Q (stall c) := by
    intro s o hs
    have hleft := hQ.leave hs c
    exact wp_update.mpr (hQ.members hleft rfl)
  have haccepted := (hQ.modifyHandler c fun h => { h with serialPortHandlerAwaitsPacket := false }).andThen
    ((hQ.pushCall (x := .packetDelivery c) trivial).andThen (hQ.deliverPayloadToHDLC c p))
  have hpending : Maintains Q (if h.pendingIncomingPacketData.isSome then
      Action.emit [.fault .pendingPacket] else Action.skip) :=
    (hQ.emit (by simp [Output.Foreign])).ite .skip
  exact (hQ.emit (by simp [Output.Foreign])).andThen (hpending.andThen
    ((hQ.modifyHandler c fun h => { h with pendingIncomingPacketData := some p }).andThen
      (haccepted.ite hstalled)))

theorem acquireLock (hsuspend : Maintains Q suspendSerialPort) (c : ClientId) (h : HdlcdServerHandler) :
    Maintains Q (acquireLock c h) := by
  unfold Port.acquireLock
  exact Maintains.skip.ite ((hQ.modifyHandler c (setLockedBySelf true)).andThen hsuspend)

theorem receive (hstop : Maintains Q stop) (hsuspend : Maintains Q suspendSerialPort) {packet : Packet}
    {opens : OpenResult} (hs : Q s o)
    (hrelease : ∀ h, s.handlers c = some h → s.receives c h = true → packet = .portStatus false →
      (releaseLock c h opens).wp Q s o) : (receive c packet opens).wp Q s o := by
  unfold wp Port.receive
  split
  · exact (List.append_nil o).symm ▸ hs
  · rename_i h hc
    split_ifs with hreceives
    · split
      · exact hQ.onDataReceived c h _ s o hs
      · rename_i packet' hpacket
        cases packet with
        | data p => exact absurd rfl (hpacket p)
        | keepAlive => exact (List.append_nil o).symm ▸ hs
        | echo =>
          have hecho : ∀ y ∈ [Output.echo c], y.Foreign := by simp [Output.Foreign]
          exact hQ.foreign hs hecho
        | portKill => exact hstop s o hs
        | portStatus lock =>
          cases lock with
          | true => exact hQ.acquireLock hsuspend c h s o hs
          | false => exact hrelease h hc hreceives rfl
    · exact (List.append_nil o).symm ▸ hs

theorem endReceiving (c : ClientId) : Maintains Q (endReceiving c) := by
  intro s o hs
  refine wp_branch (fun hhead => wp_update.mpr ?_) fun _ => wp_skip.mpr hs
  exact hQ.pop (tail_of_head? (beq_iff_eq.mp hhead)) trivial hs

theorem triggerNextDataPacket (c : ClientId) : Maintains Q (triggerNextDataPacket c) := by
  intro s o hs
  unfold wp Port.triggerNextDataPacket
  split
  · exact hQ.foreign hs (by simp [Output.Foreign])
  · split_ifs
    · exact ((hQ.modifyHandler c fun h => { h with stalled := false }).andThen
        (hQ.pushCall (x := .receiving c) trivial)) s o hs
    · exact (List.append_nil o).symm ▸ hs

theorem queryClient (r u : Bool) (c : ClientId) : Maintains Q (queryClient r u c) := by
  intro s o hs
  unfold wp Port.queryClient
  split
  · exact (List.append_nil o).symm ▸ hs
  · split
    · rename_i p _
      split_ifs
      · exact ((hQ.pushCall (x := .pendingDelivery c) trivial).andThen (hQ.deliverPayloadToHDLC c p)) s o hs
      · exact (List.append_nil o).symm ▸ hs
    · exact ((hQ.modifyHandler c fun h => { h with serialPortHandlerAwaitsPacket := true }).andThen
        (hQ.triggerNextDataPacket c)) s o hs

theorem addChunk (offset bytes : Nat) : Maintains Q (addChunk offset bytes) := by
  intro s o hs
  let chunk := s.protocolState.frameParser.addChunk (s.readBytes offset bytes)
  have hparsed : Q (parsed offset bytes s.calls s) o :=
    hQ.push (.addReceivedRawBytes (offset + chunk.2.2) (bytes - chunk.2.2)) trivial (hQ.parser chunk.1 hs)
  have hframes : Maintains Q (run interpret
      (s.protocolState.frameParser.addChunk (s.readBytes offset bytes)).2.1) := by
    refine .run fun x hx => ?_
    rw [interpret, addChunk_call hx]
    exact hQ.event (e := .frame x.payload x.messageInvalid) trivial
  have hresult := addChunk_eq offset bytes s.calls s
  unfold wp
  rw [show Port.addChunk offset bytes s = _ from hresult]
  exact hframes _ _ hparsed

theorem proceed (hs : Q s o)
    (hread : ∀ g calls, s.calls = .readHandler g :: calls →
      (resumeCall (.readHandler g)).wp Q { s with calls := calls } o) : proceed.wp Q s o := by
  unfold wp Port.proceed
  split
  · exact (List.append_nil o).symm ▸ hs
  · rename_i x calls hcalls
    have hpopped (hx : x.Inner) : Q { s with calls := calls } o := hQ.pop hcalls hx hs
    show (resumeCall x).wp Q { s with calls := calls } o
    cases x with
    | queryForPayload r u =>
      have hround := hQ.push (.forEach r u { s with calls := calls }.live) trivial (hpopped trivial)
      have hrebuilt := rebuildSubscriptions_line { s with calls := calls }
      refine wp_update.mpr (hQ.members hround ?_)
      simp only [lineMembers, Prod.mk.injEq] at hrebuilt ⊢
      obtain ⟨hregistered, hport, hps, hbuffer, hoffset, hlock, hconnections, _⟩ := hrebuilt
      exact ⟨hregistered, hport, hps, hbuffer, hoffset, hlock, hconnections, trivial⟩
    | forEach r u clients =>
      cases clients with
      | nil => exact wp_skip.mpr (hpopped trivial)
      | cons c clients =>
        exact ((hQ.pushCall (x := .forEach r u clients) trivial).andThen (hQ.queryClient r u c)) _ _
          (hpopped trivial)
    | pendingDelivery c =>
      exact ((hQ.modifyHandler c fun h => { h with pendingIncomingPacketData := none }).andThen
        (hQ.triggerNextDataPacket c)) _ _ (hpopped trivial)
    | packetDelivery c =>
      exact hQ.modifyHandler c (fun h => { h with pendingIncomingPacketData := none }) _ _ (hpopped trivial)
    | receiving c => exact hQ.pushCall (x := .receiving c) trivial _ _ (hpopped trivial)
    | addReceivedRawBytes offset bytes =>
      cases bytes with
      | zero => exact wp_skip.mpr (hpopped trivial)
      | succ bytes => exact hQ.addChunk offset (bytes + 1) _ _ (hpopped trivial)
    | readHandler g => exact hread g calls hcalls

theorem attach (c : ClientId) (sap : UInt8) (opens : OpenResult) : Maintains Q (attach c sap opens) := by
  intro s o hs
  have hconnected := hQ.connected hs
  unfold wp Port.attach
  split
  · exact (List.append_nil o).symm ▸ hs
  · rename_i h _
    by_cases hcond : (s.registered && s.calls.isEmpty && !s.connections.contains c) = true
    · rw [if_pos hcond, addClient, if_neg (fun hempty => hconnected (List.isEmpty_iff.mp hempty))]
      have hadded : Q (withHandler c h s) o := by
        have hempty : (withHandler c h s).connections.isEmpty = s.connections.isEmpty := by
          rw [List.isEmpty_eq_false_iff.mpr hconnected]
          exact List.isEmpty_eq_false_iff.mpr (List.append_ne_nil_of_left_ne_nil hconnected [c])
        refine hQ.members hs ?_
        unfold lineMembers
        rw [hempty]
        rfl
      refine wp_andThen.mpr (wp_andThen.mpr (wp_update.mpr ?_))
      refine wp_mono ((hQ.propagateSerialPortState.branch .skip) _ _ hadded) fun t o ht => ?_
      exact (Maintains.skip.andThen (hQ.initLockGuard c)) t o ht
    · rw [if_neg hcond]
      exact (List.append_nil o).symm ▸ hs

theorem disconnect {opens : OpenResult} (hstop : Maintains Q stop) (hs : Q s o)
    (hresume : ∀ h, s.handlers c = some h → s.calls = [] → h.lockGuard.lockedBySelf = true →
      (resumeSerialPort opens).wp Q (eraseHandler c s) o) : (disconnect c opens).wp Q s o := by
  unfold wp Port.disconnect
  split
  · exact (List.append_nil o).symm ▸ hs
  · rename_i h hc
    by_cases hidle : s.calls.isEmpty = true
    · rw [if_pos hidle]
      have hleft : Q (eraseHandler c s) o := hQ.members hs rfl
      have hreleased : (if h.lockGuard.lockedBySelf = true then resumeSerialPort opens else Action.skip).wp Q
          (eraseHandler c s) o := by
        split_ifs with hself
        · exact hresume h hc (List.isEmpty_iff.mp hidle) hself
        · exact wp_skip.mpr hleft
      exact wp_andThen.mpr (wp_update.mpr (wp_andThen.mpr (wp_mono hreleased (hstop.branch .skip))))
    · rw [if_neg hidle]
      exact (List.append_nil o).symm ▸ hs

end

theorem step_initial (e : Event) : (∃ c sap opens, e = .attach c sap opens) ∨ step e initial = (initial, []) := by
  cases e with
  | attach c sap opens => exact .inl ⟨c, sap, opens, rfl⟩
  | disconnect | receive | endReceiving | proceed | readHandler | writeHandler => exact .inr rfl
  | timer e => cases e <;> exact .inr rfl
  | readCompletes i completion =>
    refine .inr ?_
    unfold step
    dsimp only
    split_ifs
    · show ({ initial with serialPort := initial.serialPort.readCompletes i completion.result }, _) = _
      unfold SerialPort.readCompletes
      rw [show initial.serialPort.reads = [] from rfl, List.modify_nil]
      rfl
    · rfl
  | writeCompletes i result =>
    refine .inr ?_
    unfold step
    dsimp only
    unfold branch
    split_ifs
    · show ({ initial with serialPort := initial.serialPort.writeCompletes i result }, _) = _
      unfold SerialPort.writeCompletes
      rw [show initial.serialPort.writes = [] from rfl, List.modify_nil]
      rfl
    · rfl

theorem attach_first (hQ : Wired Q) (hopen : ∀ c h opens, (openSerialPort opens).wp Q (withHandler c h initial) [])
    (c : ClientId) (sap : UInt8) (opens : OpenResult) :
    Port.attach c sap opens initial = (initial, []) ∨ (Port.attach c sap opens).wp Q initial [] := by
  unfold wp Port.attach
  split
  · exact .inl rfl
  · rename_i h _
    have haccepted : (initial.registered && initial.calls.isEmpty && !initial.connections.contains c) = true := rfl
    have hfirst : initial.connections.isEmpty = true := rfl
    rw [if_pos haccepted, addClient, if_pos hfirst]
    refine .inr (wp_andThen.mpr (wp_andThen.mpr (wp_update.mpr (wp_branch (fun hstarted => ?_) fun _ => ?_))))
    · exact Bool.noConfusion hstarted
    · exact wp_skip.mpr (wp_andThen.mpr (wp_mono (hopen c h opens) (hQ.initLockGuard c)))

theorem next (hQ : Wired Q) (hopen : ∀ c h opens, (openSerialPort opens).wp Q (withHandler c h initial) [])
    {e : Event} (hs : (s, o) = (initial, []) ∨ Q s o) (hstep : Q s o → (step e).wp Q s o) :
    ((step e s).1, o ++ (step e s).2) = (initial, []) ∨ (step e).wp Q s o := by
  rcases hs with hs | hs
  · obtain ⟨rfl, rfl⟩ := Prod.mk.inj hs
    rcases step_initial e with ⟨c, sap, opens, rfl⟩ | hnone
    · exact hQ.attach_first hopen c sap opens
    · exact .inl hnone
  · exact .inr (hstep hs)

theorem run (hQ : Wired Q) {C : Port → Event → Prop}
    (hopen : ∀ c h opens, (openSerialPort opens).wp Q (withHandler c h initial) [])
    (hstep : ∀ s o e, C s e → Q s o → (step e).wp Q s o) {es : List Event} (hC : Along step C initial es) :
    run step es initial = (initial, []) ∨ Q (run step es initial).1 (run step es initial).2 := by
  have hrun := wp_along (P := fun s o => (s, o) = (initial, []) ∨ Q s o)
    (fun s o e he hs => hQ.next hopen hs (hstep s o e he)) (.inl rfl) hC (o := [])
  exact hrun

end Wired
end Port
end Hdlcd
