import Hdlcd.Library.Coupling
import Hdlcd.Port.Frames

/-! Two ports side by side: in the second one, clients never do what they have no permission
to. Whatever the serial port handler does for the others, it does in both of them. -/

namespace Hdlcd

/-- What a client may do: hand over data packets, and ask for locks. -/
structure Permissions where
  data : Bool
  portStatus : Bool
  deriving DecidableEq, Repr

namespace HdlcdServerHandler

def claims (p : Permissions) (h : HdlcdServerHandler) :=
  (h.serialPortHandlerAwaitsPacket, h.pendingIncomingPacketData, h.stalled, p.portStatus && h.lockGuard.lockedBySelf)

/-- The same members of a client that only did what it may do: it holds no other lock, and its packets
are awaited if it has none. -/
def rights (p : Permissions) (h : HdlcdServerHandler) :=
  (!p.data || h.serialPortHandlerAwaitsPacket, h.pendingIncomingPacketData, h.stalled, h.lockGuard.lockedBySelf)

end HdlcdServerHandler

namespace Port
open Reactive Action ProtocolState

def payloads (o : List Output) : List PacketData :=
  o.filterMap fun
    | .sendPayload _ p => some p
    | _ => none

def suspensions (o : List Output) : List Bool :=
  o.filterMap fun
    | .suspended => some true
    | .resumed => some false
    | _ => none

def Unchanged (o o' : List Output) : Prop := payloads o = payloads o' ∧ suspensions o = suspensions o'

def Output.Unseen : Output → Prop
  | .sendPayload .. | .suspended | .resumed => False
  | _ => True

/-- The ports differ only in what was done without permission. -/
structure Alike (p : ClientId → Permissions) (s t : Port) : Prop where
  registered : s.registered = t.registered
  serialPort : s.serialPort = t.serialPort
  protocolState : s.protocolState = t.protocolState
  readBuffer : s.readBuffer = t.readBuffer
  sendBuffer : s.sendBuffer = t.sendBuffer
  offset : s.sendBufferOffset = t.sendBufferOffset
  locked : s.serialPortLock.getSerialPortState = t.serialPortLock.getSerialPortState
  live : s.live = t.live
  connections : s.connections = t.connections
  calls : s.calls = t.calls
  handlers : ∀ c, (s.handlers c).map (HdlcdServerHandler.claims (p c)) =
    (t.handlers c).map (HdlcdServerHandler.rights (p c))

section
variable {p : ClientId → Permissions} {s t s' t' : Port} {o o' : List Output} {c : ClientId}

theorem payloads_append (o o' : List Output) : payloads (o ++ o') = payloads o ++ payloads o' :=
  List.filterMap_append ..

theorem suspensions_append (o o' : List Output) : suspensions (o ++ o') = suspensions o ++ suspensions o' :=
  List.filterMap_append ..

theorem unchanged_piecewise : Piecewise Unchanged where
  nil := ⟨rfl, rfl⟩
  append {o o' x x'} h := by
    unfold Unchanged
    rw [payloads_append, payloads_append, suspensions_append, suspensions_append, h.1, h.2,
      List.append_cancel_left_eq, List.append_cancel_left_eq]

theorem Unchanged.refl (o : List Output) : Unchanged o o := ⟨rfl, rfl⟩

theorem unseen (ho : ∀ y ∈ o, y.Unseen) : payloads o = [] ∧ suspensions o = [] := by
  refine ⟨List.filterMap_eq_nil_iff.mpr fun y hy => ?_, List.filterMap_eq_nil_iff.mpr fun y hy => ?_⟩
  all_goals
    have hunseen := ho y hy
    cases y with
    | sendPayload | suspended | resumed => exact hunseen.elim
    | _ => rfl

theorem unchanged_unseen (ho : ∀ y ∈ o, y.Unseen) (ho' : ∀ y ∈ o', y.Unseen) : Unchanged o o' := by
  obtain ⟨hpayloads, hsuspensions⟩ := unseen ho
  obtain ⟨hpayloads', hsuspensions'⟩ := unseen ho'
  exact ⟨hpayloads.trans hpayloads'.symm, hsuspensions.trans hsuspensions'.symm⟩

theorem Output.Indirect.unseen {y : Output} (h : y.Indirect) : y.Unseen := by
  cases y with
  | sendPayload | suspended | resumed => exact h.elim
  | _ => trivial

theorem unseen_ite {q : Prop} [Decidable q] {y : Output} (hy : y.Unseen) :
    ∀ x ∈ (if q then [y] else []), x.Unseen := by
  intro x hx
  split_ifs at hx
  · rw [List.mem_singleton.mp hx]
    exact hy
  · exact absurd hx List.not_mem_nil

namespace Alike

theorem cases (h : Alike p s t) (c : ClientId) : (s.handlers c = none ∧ t.handlers c = none) ∨
    ∃ g k, s.handlers c = some g ∧ t.handlers c = some k ∧ g.claims (p c) = k.rights (p c) := by
  have hc := h.handlers c
  cases hs : s.handlers c with
  | none =>
    rw [hs] at hc
    exact .inl ⟨rfl, Option.map_eq_none_iff.mp hc.symm⟩
  | some g =>
    rw [hs] at hc
    obtain ⟨k, hk, hsame⟩ := Option.map_eq_some_iff.mp hc.symm
    exact .inr ⟨g, k, rfl, hk, hsame.symm⟩

theorem served (h : Alike p s t) (hs : Served s s') (hsame : lineMembers s' = lineMembers s) (ht : Served t t')
    (hsame' : lineMembers t' = lineMembers t) : Alike p s' t' := by
  have hconnections : s'.connections = s.connections := congrArg (·.2.2.2.2.1) hs.same
  have hconnections' : t'.connections = t.connections := congrArg (·.2.2.2.2.1) ht.same
  have hread : s'.readBuffer = s.readBuffer := congrArg (·.2.2.2.2.2.2.2.2) hs.same
  have hread' : t'.readBuffer = t.readBuffer := congrArg (·.2.2.2.2.2.2.2.2) ht.same
  simp only [lineMembers, Prod.mk.injEq] at hsame hsame'
  obtain ⟨hregistered, hport, hps, hbuffer, hoffset, hlock, _, hcalls⟩ := hsame
  obtain ⟨hregistered', hport', hps', hbuffer', hoffset', hlock', _, hcalls'⟩ := hsame'
  constructor
  · rw [hregistered, hregistered', h.registered]
  · rw [hport, hport', h.serialPort]
  · rw [hps, hps', h.protocolState]
  · rw [hread, hread', h.readBuffer]
  · rw [hbuffer, hbuffer', h.sendBuffer]
  · rw [hoffset, hoffset', h.offset]
  · rw [hlock, hlock', h.locked]
  · rw [hs.live, ht.live, h.live]
  · rw [hconnections, hconnections', h.connections]
  · rw [hcalls, hcalls', h.calls]
  · intro c
    have hclaims := congrArg (Option.map (HdlcdServerHandler.claims (p c))) (hs.handlers c)
    have hrights := congrArg (Option.map (HdlcdServerHandler.rights (p c))) (ht.handlers c)
    rw [Option.map_map, Option.map_map] at hclaims hrights
    exact hclaims.trans ((h.handlers c).trans hrights.symm)

end Alike

/-- What the protocol state does besides writing, and the serial port handler besides locking, does not
matter. -/
theorem quiet_alike {a b : Act} (hs : Done [] s (a s).1 (a s).2) (hsame : frameMembers (a s).1 = frameMembers s)
    (ht : Done [] t (b t).1 (b t).2) (hsame' : frameMembers (b t).1 = frameMembers t) (h : Alike p s t) :
    Coupled Unchanged (Alike p) a b s t := by
  have hline {u v : Port} {o : List Output} (hdone : Done [] u v o) (hframe : frameMembers v = frameMembers u) :
      lineMembers v = lineMembers u := by
    have hserved := hdone.served.same
    simp only [servedMembers, Prod.mk.injEq] at hserved
    obtain ⟨hregistered, _, _, hlock, _⟩ := hserved
    simp only [frameMembers, Prod.mk.injEq] at hframe
    obtain ⟨hbuffer, hoffset, hport, hps, hconnections⟩ := hframe
    unfold lineMembers
    rw [hregistered, hport, hps, hbuffer, hoffset, hlock, hconnections, hdone.calls]
    rfl
  refine ⟨h.served hs.served (hline hs hsame) ht.served (hline ht hsame'), ?_⟩
  exact unchanged_unseen (fun y hy => (hs.outputs y hy).unseen) fun y hy => (ht.outputs y hy).unseen

theorem propagateSerialPortState_alike : Respects Unchanged (Alike p) propagateSerialPortState :=
  fun s t => quiet_alike (propagateSerialPortState_done s) (forEach_frame _ s) (propagateSerialPortState_done t)
    (forEach_frame _ t)

theorem pushCall_alike (x : Call) : Respects Unchanged (Alike p) (pushCall x) :=
  .update unchanged_piecewise fun _ _ h => { h with calls := congrArg (x :: ·) h.calls }

theorem doWrite_alike : Respects Unchanged (Alike p) doWrite := by
  intro s t h
  have hport : s.serialPort.asyncWriteSome (s.sendBuffer.drop s.sendBufferOffset) =
      t.serialPort.asyncWriteSome (t.sendBuffer.drop t.sendBufferOffset) := by
    rw [h.serialPort, h.sendBuffer, h.offset]
  refine ⟨{ h with serialPort := hport }, ?_⟩
  exact unchanged_unseen (fun y hy => ((doWrite_done s).outputs y hy).unseen)
    fun y hy => ((doWrite_done t).outputs y hy).unseen

theorem transmitHDLCFrame_alike (f : HdlcFrame) (buffer : List UInt8) :
    Respects Unchanged (Alike p) (transmitHDLCFrame f buffer) := by
  have hE := unchanged_piecewise
  have hwritten : Respects Unchanged (Alike p) (update fun s => { s with sendBuffer := buffer }) :=
    .update hE fun _ _ h => { h with sendBuffer := rfl }
  have hemitted (x : Output) : Respects Unchanged (Alike p) (emit [x]) := .emit (Unchanged.refl _)
  refine (hemitted _).andThen hE (.andThen hE ?_ (.andThen hE ?_ (hwritten.andThen hE doWrite_alike)))
  · exact .branch (fun s t h => congrArg (· == 0) h.offset) (.skip hE) (hemitted _)
  · exact .branch (fun s t h => h.locked) (hemitted _) (.skip hE)

theorem effect_alike (x : Effect) : Respects Unchanged (Alike p) (effect x) := by
  have hquiet (hx : NoFrame x) (hnone : queryCall x = []) : Respects Unchanged (Alike p) (effect x) := by
    intro s t
    have hs := effect_done x s
    have ht := effect_done x t
    rw [hnone] at hs ht
    exact quiet_alike hs (effect_noFrame hx s).1 ht (effect_noFrame hx t).1
  cases x with
  | transmitHDLCFrame f buffer => exact transmitHDLCFrame_alike f _
  | queryForPayload r u => exact pushCall_alike _
  | _ => exact hquiet trivial rfl

theorem callProtocolState_alike (a : ProtocolState.Act) : Respects Unchanged (Alike p) (callProtocolState a) := by
  intro s t h
  have heffects : (a s.protocolState).2 = (a t.protocolState).2 := by rw [h.protocolState]
  have hstate : (a s.protocolState).1 = (a t.protocolState).1 := by rw [h.protocolState]
  have hhandled : Alike p { s with protocolState := (a s.protocolState).1 }
      { t with protocolState := (a t.protocolState).1 } := { h with protocolState := hstate }
  have hrun := Respects.run unchanged_piecewise effect_alike (a s.protocolState).2 _ _ hhandled
  unfold Coupled callProtocolState
  rw [← heffects]
  exact hrun

theorem doRead_alike : Respects Unchanged (Alike p) doRead := by
  have hE := unchanged_piecewise
  refine .andThen hE (.emit (Unchanged.refl _)) (.update hE fun s t h => ?_)
  exact { h with serialPort := congrArg SerialPort.asyncReadSome h.serialPort }

theorem stopClients_live (s : Port) : (stopClients s).1.live = [] := by
  have hlist : ∀ c ∈ s.rebuildSubscriptions.handlerList, c ∈ s.handlerList := by
    intro c hc
    unfold rebuildSubscriptions at hc
    split_ifs at hc
    · exact hc
    · exact (mem_live.mp hc).1
  refine List.filter_eq_nil_iff.mpr fun c hc hsome => ?_
  have hgone : (stopClients s).1.handlers c = if c ∈ s.live then none else s.handlers c := rfl
  rw [hgone] at hsome
  split_ifs at hsome with hlive
  · exact absurd hsome Bool.false_ne_true
  · exact hlive (mem_live.mpr ⟨hlist c hc, hsome⟩)

theorem stopClients_alike : Respects Unchanged (Alike p) stopClients := by
  intro s t h
  have hs := stopClients_line s
  have ht := stopClients_line t
  simp only [lineMembers, Prod.mk.injEq] at hs ht
  obtain ⟨hregistered, hport, hps, hbuffer, hoffset, hlock, _, hcalls⟩ := hs
  obtain ⟨hregistered', hport', hps', hbuffer', hoffset', hlock', _, hcalls'⟩ := ht
  have hconnections (u : Port) : (stopClients u).1.connections = u.connections :=
    congrArg (·.2.2.2.2.1) (rebuildSubscriptions_served u).same
  have hread (u : Port) : (stopClients u).1.readBuffer = u.readBuffer :=
    congrArg (·.2.2.2.2.2.2.2.2) (rebuildSubscriptions_served u).same
  have hunseen (u : Port) : ∀ y ∈ (stopClients u).2, y.Unseen := by
    intro y hy
    obtain ⟨c, -, rfl⟩ := List.mem_map.mp hy
    trivial
  refine ⟨⟨?_, ?_, ?_, ?_, ?_, ?_, ?_, ?_, ?_, ?_, fun c => ?_⟩, unchanged_unseen (hunseen s) (hunseen t)⟩
  · rw [hregistered, hregistered', h.registered]
  · rw [hport, hport', h.serialPort]
  · rw [hps, hps', h.protocolState]
  · rw [hread, hread, h.readBuffer]
  · rw [hbuffer, hbuffer', h.sendBuffer]
  · rw [hoffset, hoffset', h.offset]
  · rw [hlock, hlock', h.locked]
  · rw [stopClients_live, stopClients_live]
  · rw [hconnections, hconnections, h.connections]
  · rw [hcalls, hcalls', h.calls]
  · show (if c ∈ s.live then none else s.handlers c).map _ = (if c ∈ t.live then none else t.handlers c).map _
    rw [h.live]
    split_ifs
    · rfl
    · exact h.handlers c

theorem emit_alike (o : List Output) : Respects Unchanged (Alike p) (emit o) := .emit (Unchanged.refl o)

theorem closeSerialPort_alike : Respects Unchanged (Alike p) closeSerialPort := by
  have hE := unchanged_piecewise
  refine .andThen hE (.branch (fun _ _ h => by rw [h.serialPort]) (.skip hE) (emit_alike _)) ?_
  exact .update hE fun _ _ h => { h with serialPort := congrArg SerialPort.close h.serialPort }

theorem unregister_alike : Respects Unchanged (Alike p) unregister :=
  .update unchanged_piecewise fun _ _ h => { h with registered := rfl }

theorem dissolve_alike : Respects Unchanged (Alike p) dissolve :=
  (callProtocolState_alike ProtocolState.shutdown).andThen unchanged_piecewise stopClients_alike

theorem stop_alike : Respects Unchanged (Alike p) stop := by
  have hE := unchanged_piecewise
  have hstopped := unregister_alike.andThen hE ((closeSerialPort_alike (p := p)).andThen hE dissolve_alike)
  exact (emit_alike [.stop]).andThen hE (.branch (fun _ _ h => h.registered) hstopped (.skip hE))

theorem openSerialPort_alike (opens : OpenResult) : Respects Unchanged (Alike p) (openSerialPort opens) := by
  have hE := unchanged_piecewise
  have hopened : Respects Unchanged (Alike p) openPort :=
    .update hE fun _ _ h => { h with serialPort := congrArg SerialPort.openPort h.serialPort }
  have hfailed := unregister_alike.andThen hE (dissolve_alike (p := p))
  cases opens with
  | opened =>
    have hread := (doRead_alike (p := p)).andThen hE propagateSerialPortState_alike
    exact hopened.andThen hE ((callProtocolState_alike ProtocolState.start).andThen hE hread)
  | failed => exact hfailed
  | notConfigured => exact hopened.andThen hE hfailed

theorem suspendSerialPort_alike : Respects Unchanged (Alike p) suspendSerialPort := by
  have hE := unchanged_piecewise
  intro s t h
  refine .branch h.registered (fun _ => ?_) fun _ => .skip hE h
  have hfirst (l : SerialPortLock) : l.suspendSerialPort.2 = !l.getSerialPortState := by
    unfold SerialPortLock.suspendSerialPort SerialPortLock.getSerialPortState
    cases l.nbrOfLocks <;> rfl
  have hsame : s.serialPortLock.suspendSerialPort.2 = t.serialPortLock.suspendSerialPort.2 := by
    rw [hfirst, hfirst, h.locked]
  have hlocked : Alike p { s with serialPortLock := s.serialPortLock.suspendSerialPort.1 }
      { t with serialPortLock := t.serialPortLock.suspendSerialPort.1 } := { h with locked := rfl }
  refine .update_andThen hE ?_
  rw [hsame]
  have hsuspended := (emit_alike (p := p) [.suspended]).andThen hE
    ((callProtocolState_alike ProtocolState.stop).andThen hE closeSerialPort_alike)
  exact ((hsuspended.ite (.skip hE)).andThen hE propagateSerialPortState_alike) _ _ hlocked

theorem resumeSerialPort_alike (opens : OpenResult) (h : Alike p s t)
    (hlast : s.registered = true → s.serialPortLock.resumeSerialPort.2 = t.serialPortLock.resumeSerialPort.2) :
    Coupled Unchanged (Alike p) (resumeSerialPort opens) (resumeSerialPort opens) s t := by
  have hE := unchanged_piecewise
  refine .branch h.registered (fun hreg => ?_) fun _ => .skip hE h
  have hstate (l : SerialPortLock) : l.resumeSerialPort.1.getSerialPortState = !l.resumeSerialPort.2 := rfl
  have hunlocked : Alike p { s with serialPortLock := s.serialPortLock.resumeSerialPort.1 }
      { t with serialPortLock := t.serialPortLock.resumeSerialPort.1 } :=
    { h with locked := by rw [hstate, hstate, hlast hreg] }
  refine .update_andThen hE ?_
  rw [hlast hreg]
  have hresumed := (emit_alike (p := p) [.resumed]).andThen hE (openSerialPort_alike opens)
  exact (hresumed.ite propagateSerialPortState_alike) _ _ hunlocked

theorem claims_eq {q : Permissions} {g k : HdlcdServerHandler} (h : g.claims q = k.rights q) :
    g.serialPortHandlerAwaitsPacket = (!q.data || k.serialPortHandlerAwaitsPacket) ∧
      g.pendingIncomingPacketData = k.pendingIncomingPacketData ∧ g.stalled = k.stalled ∧
      (q.portStatus && g.lockGuard.lockedBySelf) = k.lockGuard.lockedBySelf := by
  simpa only [HdlcdServerHandler.claims, HdlcdServerHandler.rights, Prod.mk.injEq] using h

theorem modifyHandler_live (c : ClientId) (f : HdlcdServerHandler → HdlcdServerHandler) (s : Port) :
    (modifyHandler c f s).live = s.live := by
  refine List.filter_congr fun d _ => ?_
  show (if d = c then (s.handlers d).map f else s.handlers d).isSome = _
  split_ifs
  · exact Option.isSome_map ..
  · rfl

theorem Alike.modifyHandler {f : HdlcdServerHandler → HdlcdServerHandler} (h : Alike p s t)
    (hf : ∀ g k, g.claims (p c) = k.rights (p c) → (f g).claims (p c) = (f k).rights (p c)) :
    Alike p (modifyHandler c f s) (modifyHandler c f t) := by
  refine { h with live := ?_, handlers := fun d => ?_ }
  · rw [modifyHandler_live, modifyHandler_live, h.live]
  · show (if d = c then (s.handlers d).map f else s.handlers d).map _ =
      (if d = c then (t.handlers d).map f else t.handlers d).map _
    split_ifs with hd
    · subst hd
      rcases h.cases d with ⟨hs, ht⟩ | ⟨g, k, hs, ht, hsame⟩
      · rw [hs, ht]
        rfl
      · rw [hs, ht]
        exact congrArg some (hf g k hsame)
    · exact h.handlers d

theorem modifyHandler_alike {f : HdlcdServerHandler → HdlcdServerHandler}
    (hf : ∀ g k, g.claims (p c) = k.rights (p c) → (f g).claims (p c) = (f k).rights (p c)) :
    Respects Unchanged (Alike p) (update (modifyHandler c f)) :=
  .update unchanged_piecewise fun _ _ h => h.modifyHandler hf

theorem deliverPayloadToHDLC_alike (c : ClientId) (d : PacketData) :
    Respects Unchanged (Alike p) (deliverPayloadToHDLC c d) :=
  (emit_alike [.sendPayload c d]).andThen unchanged_piecewise (callProtocolState_alike _)

theorem pending_alike (c : ClientId) (d : Option PacketData) : Respects Unchanged (Alike p)
    (update (modifyHandler c fun h => { h with pendingIncomingPacketData := d })) :=
  modifyHandler_alike fun g k hsame => by
    obtain ⟨hawaits, _, hstalled, hlock⟩ := claims_eq hsame
    simp only [HdlcdServerHandler.claims, HdlcdServerHandler.rights, hawaits, hstalled, hlock]

theorem stall_alike (c : ClientId) : Respects Unchanged (Alike p) (stall c) := by
  refine .update unchanged_piecewise fun s t h => ?_
  have hstalled := h.modifyHandler (c := c) (f := fun h => { h with stalled := true }) fun g k hsame => by
    obtain ⟨hawaits, hpending, _, hlock⟩ := claims_eq hsame
    simp only [HdlcdServerHandler.claims, HdlcdServerHandler.rights, hawaits, hpending, hlock]
  exact { hstalled with calls := by rw [h.calls] }

theorem onDataReceived_alike {g k : HdlcdServerHandler} (d : PacketData) (hdata : (p c).data = true)
    (hsame : g.claims (p c) = k.rights (p c)) (h : Alike p s t) :
    Coupled Unchanged (Alike p) (onDataReceived c g d) (onDataReceived c k d) s t := by
  have hE := unchanged_piecewise
  obtain ⟨hawaits, hpending, _, _⟩ := claims_eq hsame
  rw [hdata, Bool.not_true, Bool.false_or] at hawaits
  have hnotAwaited : Respects Unchanged (Alike p)
      (update (modifyHandler c fun h => { h with serialPortHandlerAwaitsPacket := false })) :=
    modifyHandler_alike fun g k hsame => by
      obtain ⟨_, hpending, hstalled, hlock⟩ := claims_eq hsame
      simp only [HdlcdServerHandler.claims, HdlcdServerHandler.rights, hdata, hpending, hstalled, hlock]
      rfl
  have haccepted := hnotAwaited.andThen hE
    ((pushCall_alike (.packetDelivery c)).andThen hE (deliverPayloadToHDLC_alike c d))
  have hasserted : Respects Unchanged (Alike p) (if k.pendingIncomingPacketData.isSome then
      emit [.fault .pendingPacket] else skip) := (emit_alike _).ite (.skip hE)
  have hreceived : Respects Unchanged (Alike p) (onDataReceived c k d) :=
    (emit_alike _).andThen hE (hasserted.andThen hE ((pending_alike c (some d)).andThen hE
      (haccepted.ite (stall_alike c))))
  have hequal : onDataReceived c g d = onDataReceived c k d := by
    unfold onDataReceived
    rw [hawaits, hpending]
  rw [hequal]
  exact hreceived s t h

theorem acquireLock_alike {g k : HdlcdServerHandler} (hstatus : (p c).portStatus = true)
    (hsame : g.claims (p c) = k.rights (p c)) (h : Alike p s t) :
    Coupled Unchanged (Alike p) (acquireLock c g) (acquireLock c k) s t := by
  have hE := unchanged_piecewise
  obtain ⟨_, _, _, hlock⟩ := claims_eq hsame
  rw [hstatus, Bool.true_and] at hlock
  have hset : Respects Unchanged (Alike p) (update (modifyHandler c (setLockedBySelf true))) :=
    modifyHandler_alike fun g k hsame => by
      obtain ⟨hawaits, hpending, hstalled, _⟩ := claims_eq hsame
      simp only [HdlcdServerHandler.claims, HdlcdServerHandler.rights, setLockedBySelf, hawaits, hpending, hstalled,
        hstatus]
      rfl
  unfold acquireLock
  rw [hlock]
  exact (Respects.ite (.skip hE) (hset.andThen hE suspendSerialPort_alike)) s t h

theorem unlocked_alike (h : Alike p s t) :
    Alike p (modifyHandler c (setLockedBySelf false) s) (modifyHandler c (setLockedBySelf false) t) :=
  h.modifyHandler fun g k hsame => by
    obtain ⟨hawaits, hpending, hstalled, _⟩ := claims_eq hsame
    simp only [HdlcdServerHandler.claims, HdlcdServerHandler.rights, setLockedBySelf, hawaits, hpending, hstalled,
      Bool.and_false]

theorem releaseLock_alike {g k : HdlcdServerHandler} (opens : OpenResult) (hstatus : (p c).portStatus = true)
    (hsame : g.claims (p c) = k.rights (p c)) (h : Alike p s t)
    (hlast : s.registered = true → g.lockGuard.lockedBySelf = true →
      s.serialPortLock.resumeSerialPort.2 = t.serialPortLock.resumeSerialPort.2) :
    Coupled Unchanged (Alike p) (releaseLock c g opens) (releaseLock c k opens) s t := by
  obtain ⟨_, _, _, hlock⟩ := claims_eq hsame
  rw [hstatus, Bool.true_and] at hlock
  unfold releaseLock
  rw [← hlock]
  split_ifs with hself
  · exact .update_andThen unchanged_piecewise
      (resumeSerialPort_alike opens (unlocked_alike h) fun hreg => hlast hreg hself)
  · exact .skip unchanged_piecewise h

theorem receives_alike {g k : HdlcdServerHandler} (hsame : g.claims (p c) = k.rights (p c)) (h : Alike p s t) :
    s.receives c g = t.receives c k := by
  obtain ⟨_, _, hstalled, _⟩ := claims_eq hsame
  unfold receives
  rw [hstalled, h.calls]

theorem endReceiving_alike (c : ClientId) : Respects Unchanged (Alike p) (endReceiving c) := by
  have hE := unchanged_piecewise
  refine .branch (fun s t h => by rw [h.calls]) (.update hE fun s t h => ?_) (.skip hE)
  exact { h with calls := congrArg List.tail h.calls }

theorem triggerNextDataPacket_alike (c : ClientId) : Respects Unchanged (Alike p) (triggerNextDataPacket c) := by
  have hE := unchanged_piecewise
  have hgoesOn : Respects Unchanged (Alike p) (update (modifyHandler c fun h => { h with stalled := false })) :=
    modifyHandler_alike fun g k hsame => by
      obtain ⟨hawaits, hpending, _, hlock⟩ := claims_eq hsame
      simp only [HdlcdServerHandler.claims, HdlcdServerHandler.rights, hawaits, hpending, hlock]
  have hreceiving := hgoesOn.andThen hE (pushCall_alike (.receiving c))
  intro s t h
  unfold Coupled triggerNextDataPacket
  rcases h.cases c with ⟨hs, ht⟩ | ⟨g, k, hs, ht, hsame⟩
  · rw [hs, ht]
    exact emit_alike [.fault .nullPacketEndpoint] s t h
  · rw [hs, ht]
    dsimp only
    rw [(claims_eq hsame).2.2.1]
    split_ifs
    · exact hreceiving s t h
    · exact Coupled.skip hE h

theorem queryClient_alike (r u : Bool) (c : ClientId) : Respects Unchanged (Alike p) (queryClient r u c) := by
  have hE := unchanged_piecewise
  have hawaited : Respects Unchanged (Alike p)
      (update (modifyHandler c fun h => { h with serialPortHandlerAwaitsPacket := true })) :=
    modifyHandler_alike fun g k hsame => by
      obtain ⟨_, hpending, hstalled, hlock⟩ := claims_eq hsame
      simp only [HdlcdServerHandler.claims, HdlcdServerHandler.rights, hpending, hstalled, hlock, Bool.or_true]
  have hdelivered (d : PacketData) := (pushCall_alike (p := p) (.pendingDelivery c)).andThen hE
    (deliverPayloadToHDLC_alike c d)
  intro s t h
  unfold Coupled queryClient
  rcases h.cases c with ⟨hs, ht⟩ | ⟨g, k, hs, ht, hsame⟩
  · rw [hs, ht]
    exact Coupled.skip hE h
  · rw [hs, ht]
    dsimp only
    rw [(claims_eq hsame).2.1]
    cases k.pendingIncomingPacketData with
    | none => exact (hawaited.andThen hE (triggerNextDataPacket_alike c)) s t h
    | some d =>
      dsimp only
      split_ifs
      · exact hdelivered d s t h
      · exact Coupled.skip hE h

theorem addChunk_alike (offset bytes : Nat) : Respects Unchanged (Alike p) (addChunk offset bytes) := by
  intro s t h
  have hbytes : s.readBytes offset bytes = t.readBytes offset bytes := by rw [readBytes, h.readBuffer, readBytes]
  have hparsed : Alike p (parsed offset bytes s.calls s) (parsed offset bytes t.calls t) := by
    refine { h with protocolState := ?_, calls := ?_ }
    · unfold parsed
      rw [h.protocolState, hbytes]
    · unfold parsed
      rw [h.calls, h.protocolState, hbytes]
  have hframes := Respects.run unchanged_piecewise (fun x => callProtocolState_alike (interpretDeserializedFrame
    x.payload x.hdlcFrame x.messageInvalid)) (s.protocolState.frameParser.addChunk (s.readBytes offset bytes)).2.1
    _ _ hparsed
  have hs := addChunk_eq offset bytes s.calls s
  have ht := addChunk_eq offset bytes t.calls t
  unfold Coupled
  rw [show addChunk offset bytes s = _ from hs, show addChunk offset bytes t = _ from ht, ← h.protocolState, ← hbytes]
  exact hframes

theorem rebuildSubscriptions_alike (h : Alike p s t) : Alike p s.rebuildSubscriptions t.rebuildSubscriptions :=
  h.served (rebuildSubscriptions_served s) (rebuildSubscriptions_line s) (rebuildSubscriptions_served t)
    (rebuildSubscriptions_line t)

theorem resumeCall_alike (x : Call) : Respects Unchanged (Alike p) (resumeCall x) := by
  have hE := unchanged_piecewise
  cases x with
  | queryForPayload r u =>
    intro s t h
    refine ⟨{ rebuildSubscriptions_alike h with calls := ?_ }, Unchanged.refl []⟩
    show Call.forEach r u s.live :: s.calls = Call.forEach r u t.live :: t.calls
    rw [h.live, h.calls]
  | forEach r u clients =>
    cases clients with
    | nil => exact .skip hE
    | cons c clients => exact (pushCall_alike _).andThen hE (queryClient_alike r u c)
  | pendingDelivery c => exact (pending_alike c none).andThen hE (triggerNextDataPacket_alike c)
  | packetDelivery c => exact pending_alike c none
  | receiving c => exact pushCall_alike _
  | addReceivedRawBytes offset bytes =>
    cases bytes with
    | zero => exact .skip hE
    | succ bytes => exact addChunk_alike offset (bytes + 1)
  | readHandler g => exact .branch (fun s t h => h.locked) (.skip hE) doRead_alike

theorem proceed_alike : Respects Unchanged (Alike p) proceed := by
  intro s t h
  unfold Coupled proceed
  rw [← h.calls]
  cases hcalls : s.calls with
  | nil => exact Coupled.skip unchanged_piecewise h
  | cons x calls => exact resumeCall_alike x _ _ { h with calls := rfl }

theorem error_alike : Respects Unchanged (Alike p) (branch (·.serialPortLock.getSerialPortState) skip stop) :=
  .branch (fun _ _ h => h.locked) (.skip unchanged_piecewise) stop_alike

theorem onRead_alike (r : ReadOperation) (result : ReadResult) : Respects Unchanged (Alike p) (onRead r result) := by
  have hE := unchanged_piecewise
  cases result with
  | success bytesRead =>
    exact (pushCall_alike _).andThen hE
      (.branch (fun _ _ h => by rw [h.protocolState]) (pushCall_alike _) (.skip hE))
  | error => exact error_alike

theorem onWrite_alike (result : WriteResult) : Respects Unchanged (Alike p) (onWrite result) := by
  have hE := unchanged_piecewise
  cases result with
  | success n =>
    have hcounted : Respects Unchanged (Alike p)
        (update fun s => { s with sendBufferOffset := s.sendBufferOffset + n }) :=
      .update hE fun _ _ h => { h with offset := congrArg (· + n) h.offset }
    have hreset : Respects Unchanged (Alike p) (update fun s => { s with sendBufferOffset := 0 }) :=
      .update hE fun _ _ h => { h with offset := rfl }
    have htriggered := (emit_alike (p := p) [.triggerNextHDLCFrame]).andThen hE
      (callProtocolState_alike ProtocolState.triggerNextHDLCFrame)
    refine hcounted.andThen hE (.branch (fun _ _ h => by rw [h.offset, h.sendBuffer]) (hreset.andThen hE ?_) ?_)
    · exact .branch (fun _ _ h => h.locked) (.skip hE) htriggered
    · exact .branch (fun _ _ h => h.locked) (.skip hE) doWrite_alike
  | error => exact error_alike

theorem readHandler_alike (i : Nat) : Respects Unchanged (Alike p) (readHandler i) := by
  intro s t h
  unfold Coupled readHandler
  rw [← h.serialPort]
  cases s.serialPort.reads[i]? with
  | none => exact Coupled.skip unchanged_piecewise h
  | some r =>
    dsimp only
    cases r.result with
    | none => exact Coupled.skip unchanged_piecewise h
    | some result => exact onRead_alike r result _ _ { h with serialPort := rfl }

theorem writeHandler_alike (i : Nat) : Respects Unchanged (Alike p) (writeHandler i) := by
  intro s t h
  unfold Coupled writeHandler
  rw [← h.serialPort]
  cases s.serialPort.writes[i]? with
  | none => exact Coupled.skip unchanged_piecewise h
  | some w =>
    dsimp only
    cases w.result with
    | none => exact Coupled.skip unchanged_piecewise h
    | some result => exact onWrite_alike result _ _ { h with serialPort := rfl }

end
end Port
end Hdlcd
