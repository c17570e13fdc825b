import Hdlcd.SerialPort.SerialPortHandler
import Hdlcd.Protocol.Preparation

/-! What the calls of the protocol state do to the port: they write, and tell the clients
about the port. -/

namespace Hdlcd

def HdlcdServerHandler.untold (h : HdlcdServerHandler) : HdlcdServerHandler :=
  { h with
    deliverInitialState := true
    aliveGuard := {}
    lockGuard := { lockedBySelf := h.lockGuard.lockedBySelf } }

theorem HdlcdServerHandler.untold_updateSerialPortState (alive : Bool) (lockHolders : Nat)
    (h : HdlcdServerHandler) : (h.updateSerialPortState alive lockHolders).1.untold = h.untold := by
  unfold updateSerialPortState LockGuard.updateSerialPortState
  dsimp only
  split_ifs <;> rfl

namespace Port
open Reactive Action

def servedMembers (s : Port) :=
  (s.registered, s.protocolState, s.sendBufferOffset, s.serialPortLock, s.connections,
    s.serialPort.isOpen, s.serialPort.openings, s.serialPort.reads, s.readBuffer)

structure Served (s t : Port) : Prop where
  same : servedMembers t = servedMembers s
  handlers : ∀ c, (t.handlers c).map HdlcdServerHandler.untold =
    (s.handlers c).map HdlcdServerHandler.untold
  list : t.handlerList = s.handlerList ∨ t.handlerList = s.live

def Output.Indirect : Output → Prop
  | .portStatus .. | .dataPacket .. | .transmitHDLCFrame .. | .doWrite => True
  | .fault .lockGuardInit | .fault .pendingPacket | .fault .nullPacketEndpoint | .fault .cancelClosed => False
  | .fault _ => True
  | _ => False

namespace Served

variable {s t u : Port}

theorem refl (s : Port) : Served s s := ⟨rfl, fun _ => rfl, .inl rfl⟩

theorem isSome (h : Served s t) (c : ClientId) : (t.handlers c).isSome = (s.handlers c).isSome := by
  have hc := congrArg Option.isSome (h.handlers c)
  rwa [Option.isSome_map, Option.isSome_map] at hc

theorem live (h : Served s t) : t.live = s.live := by
  unfold Port.live
  rw [funext h.isSome]
  rcases h.list with hlist | hlist
  · rw [hlist]
  · rw [hlist, Port.live, List.filter_filter]
    simp only [Bool.and_self]

theorem trans (h : Served s t) (h' : Served t u) : Served s u := by
  refine ⟨h'.same.trans h.same, fun c => (h'.handlers c).trans (h.handlers c), ?_⟩
  rcases h'.list with hlist | hlist
  · rw [hlist]
    exact h.list
  · exact .inr (hlist.trans h.live)

end Served

section
variable {s : Port}

theorem wp_closeSerialPort {Q : Assertion Port Output} {o : List Output}
    (h : Q { s with serialPort := s.serialPort.close }
      (o ++ if s.serialPort.isOpen then [] else [.fault .cancelClosed])) : closeSerialPort.wp Q s o := by
  refine wp_andThen.mpr (wp_branch (fun hopen => ?_) fun hclosed => ?_)
  · rw [if_pos hopen, List.append_nil] at h
    exact wp_skip.mpr (wp_update.mpr h)
  · rw [if_neg (by rw [hclosed]; exact Bool.false_ne_true)] at h
    exact wp_emit.mpr (wp_update.mpr h)

theorem rebuildSubscriptions_served (s : Port) : Served s s.rebuildSubscriptions := by
  unfold rebuildSubscriptions
  split_ifs
  · exact .refl s
  · exact ⟨rfl, fun _ => rfl, .inr rfl⟩

theorem rebuildSubscriptions_calls (s : Port) : s.rebuildSubscriptions.calls = s.calls := by
  unfold rebuildSubscriptions
  split_ifs <;> rfl

theorem rebuildSubscriptions_handlers (s : Port) : s.rebuildSubscriptions.handlers = s.handlers := by
  unfold rebuildSubscriptions
  split_ifs <;> rfl

theorem forEach_served {f : ClientId → HdlcdServerHandler → HdlcdServerHandler × List Output}
    (hf : ∀ c h, (f c h).1.untold = h.untold) (s : Port) :
    Served s (forEachHdlcdServerHandler f s).1 := by
  have hrebuilt := rebuildSubscriptions_served s
  refine ⟨hrebuilt.same, fun c => ?_, hrebuilt.list⟩
  show (if c ∈ s.live then (s.handlers c).map fun h => (f c h).1 else s.handlers c).map _ = _
  split_ifs
  · rw [Option.map_map]
    exact congrArg (fun g => (s.handlers c).map g) (funext (hf c))
  · rfl

theorem forEach_outputs {f : ClientId → HdlcdServerHandler → HdlcdServerHandler × List Output}
    {x : Output} (hx : x ∈ (forEachHdlcdServerHandler f s).2) : ∃ c h, x ∈ (f c h).2 := by
  obtain ⟨c, _, hx⟩ := List.mem_flatMap.mp hx
  cases hc : s.handlers c with
  | none => simp [hc] at hx
  | some h =>
    rw [hc] at hx
    exact ⟨c, h, hx⟩

theorem propagateSerialPortState_served (s : Port) : Served s (propagateSerialPortState s).1 :=
  forEach_served (fun _ => HdlcdServerHandler.untold_updateSerialPortState _ _) s

theorem deliverBufferToClients_served (bufferType : BufferType) (payload : Payload)
    (reliable invalid wasSent : Bool) (s : Port) :
    Served s (deliverBufferToClients bufferType payload reliable invalid wasSent s).1 :=
  forEach_served (fun _ _ => rfl) s

theorem propagateSerialPortState_outputs {x : Output} (hx : x ∈ (propagateSerialPortState s).2) :
    ∃ c alive others self, x = .portStatus c alive others self := by
  obtain ⟨c, h, hx⟩ := forEach_outputs hx
  dsimp only at hx
  split_ifs at hx
  · exact ⟨_, _, _, _, List.mem_singleton.mp hx⟩
  · exact absurd hx List.not_mem_nil

theorem deliverBufferToClients_outputs {bufferType : BufferType} {payload : Payload}
    {reliable invalid wasSent : Bool} {x : Output}
    (hx : x ∈ (deliverBufferToClients bufferType payload reliable invalid wasSent s).2) :
    ∃ c, x = .dataPacket c payload reliable invalid wasSent := by
  obtain ⟨c, h, hx⟩ := forEach_outputs hx
  dsimp only at hx
  split_ifs at hx
  · exact ⟨_, List.mem_singleton.mp hx⟩
  · exact absurd hx List.not_mem_nil

def queryCall : Effect → List Call
  | .queryForPayload queryReliable queryUnreliable => [.queryForPayload queryReliable queryUnreliable]
  | _ => []

/-- What holds after calls of the protocol state that left `calls` to do. -/
structure Done (calls : List Call) (s t : Port) (o : List Output) : Prop where
  served : Served s t
  calls : t.calls = calls ++ s.calls
  outputs : ∀ y ∈ o, y.Indirect

theorem Done.skip (s : Port) : Done [] s s [] := ⟨.refl s, rfl, by simp⟩

theorem Done.trans {calls calls' : List Call} {t u : Port} {o o' : List Output}
    (h : Done calls s t o) (h' : Done calls' t u o') : Done (calls' ++ calls) s u (o ++ o') where
  served := h.served.trans h'.served
  calls := by rw [h'.calls, h.calls, List.append_assoc]
  outputs y hy := (List.mem_append.mp hy).elim (h.outputs y) (h'.outputs y)

theorem propagateSerialPortState_done (s : Port) :
    Done [] s (propagateSerialPortState s).1 (propagateSerialPortState s).2 where
  served := propagateSerialPortState_served s
  calls := rebuildSubscriptions_calls s
  outputs y hy := by
    obtain ⟨c, alive, others, self, rfl⟩ := propagateSerialPortState_outputs hy
    trivial

theorem deliverBufferToClients_done (bufferType : BufferType) (payload : Payload)
    (reliable invalid wasSent : Bool) (s : Port) :
    Done [] s (deliverBufferToClients bufferType payload reliable invalid wasSent s).1
      (deliverBufferToClients bufferType payload reliable invalid wasSent s).2 where
  served := deliverBufferToClients_served ..
  calls := rebuildSubscriptions_calls s
  outputs y hy := by
    obtain ⟨c, rfl⟩ := deliverBufferToClients_outputs hy
    trivial

theorem Done.direct {t : Port} {o : List Output} (hsame : servedMembers t = servedMembers s)
    (hclients : (t.handlers, t.handlerList, t.calls) = (s.handlers, s.handlerList, s.calls))
    (ho : ∀ y ∈ o, y.Indirect) : Done [] s t o := by
  simp only [Prod.mk.injEq] at hclients
  obtain ⟨hhandlers, hlist, hcalls⟩ := hclients
  exact ⟨⟨hsame, fun c => by rw [hhandlers], .inl hlist⟩, hcalls, ho⟩

theorem doWrite_done (s : Port) : Done [] s (doWrite s).1 (doWrite s).2 := by
  refine .direct rfl rfl fun y hy => ?_
  have hy' : y ∈ (if s.sendBuffer.length < s.sendBufferOffset then
      [.doWrite, .fault .lengthUnderflow] else [.doWrite]) ++ [] := hy
  rw [List.append_nil] at hy'
  split_ifs at hy'
  · rcases List.mem_pair.mp hy' with rfl | rfl <;> trivial
  · rw [List.mem_singleton.mp hy']
    trivial

theorem assertion_done (c : Port → Bool) {f : Fault} (hf : (Output.fault f).Indirect) (s : Port) :
    Done [] s (branch c (skip : Act) (emit [.fault f]) s).1
      (branch c (skip : Act) (emit [.fault f]) s).2 := by
  unfold branch
  split_ifs
  · exact .skip s
  · refine .direct rfl rfl fun y hy => ?_
    rw [List.mem_singleton.mp hy]
    exact hf

theorem suspended_done (s : Port) : Done [] s
    (branch (·.serialPortLock.getSerialPortState) (emit [.fault .suspended]) (skip : Act) s).1
    (branch (·.serialPortLock.getSerialPortState) (emit [.fault .suspended]) (skip : Act) s).2 := by
  have hassert := assertion_done (fun s => !s.serialPortLock.getSerialPortState)
    (f := .suspended) trivial s
  unfold branch at hassert ⊢
  cases hlock : s.serialPortLock.getSerialPortState <;> simpa [hlock] using hassert

theorem transmitHDLCFrame_done (f : HdlcFrame) (buffer : List UInt8) (s : Port) :
    Done [] s (transmitHDLCFrame f buffer s).1 (transmitHDLCFrame f buffer s).2 := by
  have hframe : Done [] s s [.transmitHDLCFrame f] := .direct rfl rfl (by simp [Output.Indirect])
  have hoffset := assertion_done (·.sendBufferOffset == 0) (f := .sendBufferOffset) trivial s
  have hwritten (t : Port) : Done [] t ((update fun s => { s with sendBuffer := buffer }).andThen doWrite t).1
      ((update fun s => { s with sendBuffer := buffer }).andThen doWrite t).2 := by
    have hbuffer : Done [] t { t with sendBuffer := buffer } [] := .direct rfl rfl (by simp)
    exact hbuffer.trans (doWrite_done _)
  exact hframe.trans (hoffset.trans ((suspended_done _).trans (hwritten _)))

theorem changeBaudRate_done (s : Port) : Done [] s (changeBaudRate s).1 (changeBaudRate s).2 := by
  unfold changeBaudRate
  rw [branch]
  split_ifs
  · have htoggled : Done [] s { s with baudRate := s.baudRate.toggleBaudRate } [] :=
      .direct rfl rfl (by simp)
    exact htoggled.trans (assertion_done (·.serialPort.isOpen) (f := .portClosed) trivial _)
  · exact .skip s

theorem effect_done (x : Effect) (s : Port) : Done (queryCall x) s (effect x s).1 (effect x s).2 := by
  cases x with
  | deliverIfRequired bufferType payload reliable invalid wasSent =>
    rw [effect, branch]
    split_ifs
    · exact deliverBufferToClients_done ..
    · exact .skip s
  | deliverBufferToClients => exact deliverBufferToClients_done ..
  | changeBaudRate => exact changeBaudRate_done s
  | propagateSerialPortState => exact propagateSerialPortState_done s
  | transmitHDLCFrame f buffer => exact transmitHDLCFrame_done f _ s
  | queryForPayload =>
    exact ⟨⟨rfl, fun _ => rfl, .inl rfl⟩, rfl, by simp [effect, pushCall, update]⟩
  | popFrontReliable => exact .skip s
  | fault fault => exact .direct rfl rfl (by simp [effect, emit, Output.Indirect])

def queryCalls : List Effect → List Call
  | [] => []
  | x :: xs => queryCalls xs ++ queryCall x

theorem effects_done (xs : List Effect) (s : Port) :
    Done (queryCalls xs) s (run effect xs s).1 (run effect xs s).2 := by
  induction xs generalizing s with
  | nil => exact .skip s
  | cons x xs ih => exact (effect_done x s).trans (ih _)

theorem callProtocolState_done (a : ProtocolState.Act) (s : Port) :
    Done (queryCalls (a s.protocolState).2) { s with protocolState := (a s.protocolState).1 }
      (callProtocolState a s).1 (callProtocolState a s).2 := effects_done _ _

def rosterMembers (s : Port) := (s.handlers, s.handlerList, s.connections, s.bufferTypeSubscribers)

def Notifies : Effect → Prop
  | .deliverIfRequired .. | .deliverBufferToClients .. | .propagateSerialPortState => True
  | _ => False

def Output.OnLine : Output → Prop
  | .transmitHDLCFrame _ | .doWrite | .fault _ => True
  | _ => False

def Untold (s : Port) : Assertion Port Output := fun t o =>
  rosterMembers t = rosterMembers s ∧ ∀ y ∈ o, y.OnLine

theorem untold_emit {xs : List Output} (hxs : ∀ y ∈ xs, y.OnLine) : Maintains (Untold s) (emit xs) :=
  .emit fun _ _ h => ⟨h.1, fun y hy => (List.mem_append.mp hy).elim (h.2 y) (hxs y)⟩

theorem untold_update {f : Port → Port} (hf : ∀ t, rosterMembers (f t) = rosterMembers t) :
    Maintains (Untold s) (update f) := .update fun t _ h => ⟨(hf t).trans h.1, h.2⟩

theorem untold_doWrite : Maintains (Untold s) doWrite := by
  intro t o h
  refine ⟨h.1, fun y hy => ?_⟩
  have hy' : y ∈ o ++ ((if t.sendBuffer.length < t.sendBufferOffset then
      [.doWrite, .fault .lengthUnderflow] else [.doWrite]) ++ []) := hy
  rw [List.append_nil] at hy'
  rcases List.mem_append.mp hy' with hold | hnew
  · exact h.2 y hold
  · split_ifs at hnew
    · rcases List.mem_pair.mp hnew with rfl | rfl <;> trivial
    · rw [List.mem_singleton.mp hnew]
      trivial

theorem effect_untold {x : Effect} (hx : ¬ Notifies x) (s : Port) :
    rosterMembers (effect x s).1 = rosterMembers s ∧ ∀ y ∈ (effect x s).2, y.OnLine := by
  have hfault (f : Fault) : Maintains (Untold s) (emit [.fault f]) := untold_emit (by simp [Output.OnLine])
  have heffect : Maintains (Untold s) (effect x) := by
    cases x with
    | deliverIfRequired | deliverBufferToClients | propagateSerialPortState => exact absurd trivial hx
    | changeBaudRate =>
      have htoggled : Maintains (Untold s) (update fun s => { s with baudRate := s.baudRate.toggleBaudRate }) :=
        untold_update fun _ => rfl
      exact (htoggled.andThen (Maintains.skip.branch (hfault _))).branch .skip
    | transmitHDLCFrame f buffer =>
      have hframe : Maintains (Untold s) (emit [Output.transmitHDLCFrame f]) :=
        untold_emit (by simp [Output.OnLine])
      have hbuffer : Maintains (Untold s) (update fun s =>
          { s with sendBuffer := FrameGenerator.escapeFrame buffer }) := untold_update fun _ => rfl
      exact hframe.andThen ((Maintains.skip.branch (hfault _)).andThen
        (((hfault _).branch .skip).andThen (hbuffer.andThen untold_doWrite)))
    | queryForPayload => exact untold_update fun _ => rfl
    | popFrontReliable => exact .skip
    | fault => exact hfault _
  exact heffect s [] ⟨rfl, fun y hy => absurd hy List.not_mem_nil⟩

end
end Port
end Hdlcd
