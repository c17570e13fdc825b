import Hdlcd.Port.Desks
import Hdlcd.Protocol.Reception

/-! Every event of a port is a sequence of turns at the desks. -/

namespace Hdlcd.Port
open Reactive Action Desks ProtocolState

structure Refines (s t : Port) (o : List Output) : Prop where
  enrolled : Enrolled t
  turns : Turns s.desks t.desks (handovers o)

def Simulates (a : Act) : Prop := ∀ s, Enrolled s → Refines s (a s).1 (a s).2

def enrolledMembers (s : Port) :=
  (s.protocolState, fun c => (s.handlers c).isSome, s.handlerList, s.connections)

section
variable {s t u : Port} {o o' : List Output} {a b : Act} {c : ClientId}

theorem handovers_append (o o' : List Output) : handovers (o ++ o') = handovers o ++ handovers o' :=
  List.filter_append ..

theorem handovers_indirect (h : ∀ y ∈ o, y.Indirect) : handovers o = [] := by
  refine List.filter_eq_nil_iff.mpr fun y hy => ?_
  have hindirect := h y hy
  cases y with
  | onDataReceived | sendPayload => exact hindirect.elim
  | fault f => cases f <;> first | exact hindirect.elim | exact Bool.false_ne_true
  | _ => exact Bool.false_ne_true

theorem mem_live : c ∈ s.live ↔ c ∈ s.handlerList ∧ (s.handlers c).isSome = true := List.mem_filter

namespace Enrolled

theorem mem_live (h : Enrolled s) : c ∈ s.live ↔ (s.handlers c).isSome = true := by
  rw [Port.mem_live]
  exact ⟨fun hc => hc.2, fun hc => ⟨h.listed c hc, hc⟩⟩

theorem forEach_filterMap (h : Enrolled s) {γ : Type*} {p : Output → Option γ}
    {f : ClientId → HdlcdServerHandler → HdlcdServerHandler × List Output}
    (hother : ∀ d hd, d ≠ c → (f d hd).2.filterMap p = []) :
    (forEachHdlcdServerHandler f s).2.filterMap p = (s.handlers c).elim [] fun hc => (f c hc).2.filterMap p := by
  have hone (l : List ClientId) (hl : l.Nodup) :
      (l.flatMap fun d => (s.handlers d).elim [] fun hd => (f d hd).2).filterMap p =
        if c ∈ l then (s.handlers c).elim [] fun hc => (f c hc).2.filterMap p else [] := by
    induction l with
    | nil => rfl
    | cons d l ih =>
      obtain ⟨hd, hl⟩ := List.nodup_cons.mp hl
      rw [List.flatMap_cons, List.filterMap_append, ih hl]
      by_cases hdc : d = c
      · subst hdc
        rw [if_neg hd, List.append_nil, if_pos (List.mem_cons_self ..)]
        cases s.handlers d <;> rfl
      · have hnone : ((s.handlers d).elim [] fun hd => (f d hd).2).filterMap p = [] := by
          cases s.handlers d with
          | none => rfl
          | some hd => exact hother d hd hdc
        rw [hnone, List.nil_append]
        simp only [List.mem_cons, Ne.symm hdc, false_or]
  refine (hone s.live (h.nodup.sublist List.filter_sublist)).trans ?_
  split_ifs with hc
  · rfl
  · rw [h.mem_live, Bool.not_eq_true, Option.isSome_eq_false_iff, Option.isNone_iff_eq_none] at hc
    rw [hc]
    rfl

theorem stopClients_nobody (h : Enrolled s) (c : ClientId) : (stopClients s).1.handlers c = none := by
  show (if c ∈ s.live then none else s.handlers c) = none
  split_ifs with hc
  · rfl
  · rwa [h.mem_live, Bool.not_eq_true, Option.isSome_eq_false_iff, Option.isNone_iff_eq_none] at hc

theorem congr (h : Enrolled s) (hsame : enrolledMembers t = enrolledMembers s) : Enrolled t := by
  simp only [enrolledMembers, Prod.mk.injEq] at hsame
  obtain ⟨hps, hhandlers, hlist, hconnections⟩ := hsame
  have hsome (c : ClientId) : (t.handlers c).isSome = (s.handlers c).isSome := congrFun hhandlers c
  constructor
  · rw [hps]
    exact h.consistent
  · intro c hc
    rw [hlist]
    exact h.listed c (hsome c ▸ hc)
  · rw [hlist]
    exact h.nodup
  · rw [hlist, hconnections]
    exact h.known
  · rw [hconnections]
    exact h.distinct

theorem protocolState (h : Enrolled s) {ps : ProtocolState} (hps : Consistent ps) :
    Enrolled { s with protocolState := ps } := ⟨hps, h.listed, h.nodup, h.known, h.distinct⟩

theorem served (h : Enrolled s) (hserved : Served s t) : Enrolled t := by
  have hsame := hserved.same
  simp only [servedMembers, Prod.mk.injEq] at hsame
  obtain ⟨_, hps, _, _, hconnections, _⟩ := hsame
  have hsub : t.handlerList.Sublist s.handlerList := by
    rcases hserved.list with hlist | hlist
    · rw [hlist]
    · rw [hlist]
      exact List.filter_sublist
  constructor
  · rw [hps]
    exact h.consistent
  · intro c hc
    rw [hserved.isSome] at hc
    rcases hserved.list with hlist | hlist
    · rw [hlist]
      exact h.listed c hc
    · rw [hlist]
      exact h.mem_live.mpr hc
  · exact h.nodup.sublist hsub
  · intro c hc
    rw [hconnections]
    exact h.known c (hsub.subset hc)
  · rw [hconnections]
    exact h.distinct

theorem leave (h : Enrolled s) (gone : ClientId → Bool) :
    Enrolled { s with handlers := fun c => if gone c then none else s.handlers c } := by
  refine ⟨h.consistent, fun c hc => ?_, h.nodup, h.known, h.distinct⟩
  dsimp only at hc
  split_ifs at hc
  · exact absurd hc (by decide)
  · exact h.listed c hc

theorem modifyHandler (h : Enrolled s) (c : ClientId) (f : HdlcdServerHandler → HdlcdServerHandler) :
    Enrolled (modifyHandler c f s) := by
  refine h.congr ?_
  have hsome (d : ClientId) :
      (if d = c then (s.handlers d).map f else s.handlers d).isSome = (s.handlers d).isSome := by
    split_ifs
    · exact Option.isSome_map ..
    · rfl
  unfold enrolledMembers Port.modifyHandler
  dsimp only
  rw [funext hsome]

theorem initial : Enrolled initial where
  consistent := .initial
  listed _ hc := absurd hc Bool.false_ne_true
  nodup := List.nodup_nil
  known _ hc := absurd hc List.not_mem_nil
  distinct := List.nodup_nil

end Enrolled

namespace Refines

theorem refl (h : Enrolled s) (ho : handovers o = []) : Refines s s o := by
  refine ⟨h, ?_⟩
  rw [ho]
  exact .nil _

theorem of_same (h : Enrolled t) (hdesks : t.desks = s.desks) (ho : handovers o = []) :
    Refines s t o := by
  refine ⟨h, ?_⟩
  rw [ho, hdesks]
  exact .nil _

theorem trans (h : Refines s t o) (h' : Refines t u o') : Refines s u (o ++ o') := by
  refine ⟨h'.enrolled, ?_⟩
  rw [handovers_append]
  exact h.turns.append h'.turns

theorem branch {f : Port → Bool} (ha : Refines s (a s).1 (a s).2) (hb : Refines s (b s).1 (b s).2) :
    Refines s (branch f a b s).1 (branch f a b s).2 := by
  unfold Action.branch
  split_ifs
  · exact ha
  · exact hb

theorem of_turn (h : Enrolled t) (hturn : Turn s.desks t.desks (handovers o)) : Refines s t o :=
  ⟨h, .single hturn⟩

end Refines

namespace Simulates

theorem skip : Simulates skip := fun _ hs => .refl hs rfl

theorem emit {o : List Output} (ho : handovers o = []) : Simulates (emit o) := fun _ hs => .refl hs ho

theorem update {f : Port → Port} (hf : ∀ s, Enrolled s → Enrolled (f s))
    (hdesks : ∀ s, (f s).desks = s.desks) : Simulates (update f) :=
  fun s hs => .of_same (hf s hs) (hdesks s) rfl

theorem andThen (ha : Simulates a) (hb : Simulates b) : Simulates (a.andThen b) :=
  fun s hs => (ha s hs).trans (hb _ (ha s hs).enrolled)

theorem branch {f : Port → Bool} (ha : Simulates a) (hb : Simulates b) : Simulates (branch f a b) := by
  intro s hs
  unfold Action.branch
  split_ifs
  · exact ha s hs
  · exact hb s hs

theorem ite {p : Prop} [Decidable p] (ha : Simulates a) (hb : Simulates b) :
    Simulates (if p then a else b) := by
  split_ifs
  · exact ha
  · exact hb

end Simulates

theorem Served.desk (h : Served s t) (c : ClientId) :
    (t.handlers c).map Port.desk = (s.handlers c).map Port.desk := by
  have hc := congrArg (Option.map Port.desk) (h.handlers c)
  rwa [Option.map_map, Option.map_map] at hc

theorem Served.desks (h : Served s t) : t.desks = { s.desks with calls := t.calls } := by
  have hsame := h.same
  simp only [servedMembers, Prod.mk.injEq] at hsame
  obtain ⟨_, hps, _, _, hconnections, _⟩ := hsame
  unfold Port.desks
  rw [hps, hconnections, funext h.desk]

theorem queryCalls_eq (xs : List Effect) : queryCalls xs = asks (queries xs) := by
  induction xs with
  | nil => rfl
  | cons x xs ih =>
    rw [queryCalls, ih]
    cases x <;> simp [queryCall, asks, queries]

theorem Done.refines (h : Done [] s t o) (hs : Enrolled s) : Refines s t o := by
  refine .of_same (hs.served h.served) ?_ (handovers_indirect h.outputs)
  rw [h.served.desks, h.calls]
  rfl

theorem callProtocolState_desks (e : Hdlcd.Event) (s : Port) :
    (callProtocolState (handle e) s).1.desks = s.desks.call e := by
  have hdone := callProtocolState_done (handle e) s
  rw [hdone.served.desks, hdone.calls, queryCalls_eq]
  rfl

theorem callProtocolState_enrolled (hs : Enrolled s) (e : Hdlcd.Event) :
    Enrolled (callProtocolState (handle e) s).1 :=
  (hs.protocolState (hs.consistent.handle e)).served (callProtocolState_done (handle e) s).served

theorem callProtocolState_handovers (e : Hdlcd.Event) (s : Port) :
    handovers (callProtocolState (handle e) s).2 = [] :=
  handovers_indirect (callProtocolState_done (handle e) s).outputs

theorem control_dead {ps : ProtocolState} (hs : Consistent ps) {e : LocalEvent}
    (he : e = .start ∨ e = .stop ∨ e = .shutdown) :
    (handle (.internal e) ps).1.aliveState.isAlive = false := by
  have hprepared : (prepare (.internal e) ps).state.aliveState.isAlive = false := by
    have hstopped (h : ¬ ps.started = true) : ps.aliveState.isAlive = false :=
      Bool.eq_false_of_not_eq_true fun halive => h (hs.running halive).1
    rcases he with rfl | rfl | rfl
    · rfl
    all_goals
      show (prepareLocal _ ps).state.aliveState.isAlive = false
      rw [prepareLocal]
      split_ifs with hstarted
      · rfl
      · exact hstopped hstarted
  cases handle_concluded hs (.internal e) with
  | opportunity xs hopen hends ho =>
    have halive := congrArg (·.2.2.1.isAlive) hends.1.same
    exact halive.trans hprepared
  | quiet hquiet ht ho =>
    rw [ht]
    exact hprepared

theorem control_simulates {e : LocalEvent} (he : e = .start ∨ e = .stop ∨ e = .shutdown) :
    Simulates (callProtocolState (handleLocal e)) := by
  intro s hs
  refine .of_turn (callProtocolState_enrolled hs (.internal e)) ?_
  have hquiet := asked_dead hs.consistent (control_dead hs.consistent he)
  have hcall : s.desks.call (.internal e) =
      { s.desks with protocolState := (handleLocal e s.protocolState).1 } :=
    congrArg (fun qs => { s.desks.call (.internal e) with calls := asks qs ++ s.calls }) hquiet
  have hturn := callProtocolState_desks (.internal e) s
  have hnone := callProtocolState_handovers (.internal e) s
  show Turn _ (callProtocolState (handle (.internal e)) s).1.desks _
  rw [hturn, hcall]
  show Turn _ _ (handovers (callProtocolState (handle (.internal e)) s).2)
  rw [hnone]
  exact .control e he

theorem event_refines {e : Hdlcd.Event} (he : ∀ payload reliable, e ≠ .internal (.sendPayload payload reliable))
    (hs : Enrolled s)
    (hbase : s.calls = [] ∨ ∃ offset bytes calls, s.calls = .addReceivedRawBytes offset bytes :: calls) :
    Refines s (callProtocolState (handle e) s).1 (callProtocolState (handle e) s).2 := by
  refine .of_turn (callProtocolState_enrolled hs e) ?_
  rw [callProtocolState_handovers, callProtocolState_desks]
  exact .event e he hbase

theorem propagateSerialPortState_simulates : Simulates propagateSerialPortState :=
  fun s hs => (propagateSerialPortState_done s).refines hs

theorem doRead_simulates : Simulates doRead :=
  (Simulates.emit rfl).andThen (.update (fun _ hs => hs.congr rfl) fun _ => rfl)

theorem doWrite_simulates : Simulates doWrite := fun s hs => (doWrite_done s).refines hs

theorem handovers_stopClients (s : Port) : handovers (stopClients s).2 = [] :=
  List.filter_eq_nil_iff.mpr fun x hx => by
    obtain ⟨c, -, rfl⟩ := List.mem_map.mp hx
    exact Bool.false_ne_true

theorem stopClients_simulates : Simulates stopClients := by
  intro s hs
  have hrebuilt := hs.served (rebuildSubscriptions_served s)
  have hleft := hrebuilt.leave fun c => decide (c ∈ s.live)
  have hdesks : (stopClients s).1.desks =
      { s.desks with desk := fun c => if decide (c ∈ s.live) then none else s.desks.desk c } := by
    have hsame := (rebuildSubscriptions_served s).desks
    rw [rebuildSubscriptions_calls] at hsame
    have hmembers : (stopClients s).1.desks = { s.rebuildSubscriptions.desks with
        desk := fun c => if decide (c ∈ s.live) then none else s.desks.desk c } := by
      unfold stopClients Port.desks
      refine congrArg (Desks.mk _ · _ _) (funext fun c => ?_)
      by_cases hc : c ∈ s.live <;> simp [hc]
    rw [hmembers, hsame]
    rfl
  refine .of_turn (hleft.congr ?_) ?_
  · refine congrArg (fun f => (_, f, _, _)) (funext fun c => ?_)
    by_cases hc : c ∈ s.live <;> simp [stopClients, hc, rebuildSubscriptions_handlers]
  · rw [hdesks, handovers_stopClients]
    exact .leave _

theorem unregister_simulates : Simulates unregister := .update (fun _ hs => hs.congr rfl) fun _ => rfl

theorem closeSerialPort_simulates : Simulates closeSerialPort :=
  (Simulates.skip.branch (.emit rfl)).andThen (.update (fun _ hs => hs.congr rfl) fun _ => rfl)

theorem openPort_simulates : Simulates openPort := .update (fun _ hs => hs.congr rfl) fun _ => rfl

theorem dissolve_simulates : Simulates dissolve :=
  (control_simulates (e := .shutdown) (.inr (.inr rfl))).andThen stopClients_simulates

theorem stop_simulates : Simulates stop :=
  (Simulates.emit rfl).andThen
    ((unregister_simulates.andThen (closeSerialPort_simulates.andThen dissolve_simulates)).branch .skip)

theorem openSerialPort_simulates (opens : OpenResult) : Simulates (openSerialPort opens) := by
  have hfailed := unregister_simulates.andThen dissolve_simulates
  cases opens with
  | opened =>
    have hstart := control_simulates (e := .start) (.inl rfl)
    exact openPort_simulates.andThen
      (hstart.andThen (doRead_simulates.andThen propagateSerialPortState_simulates))
  | failed => exact hfailed
  | notConfigured => exact openPort_simulates.andThen hfailed

theorem suspendSerialPort_simulates : Simulates suspendSerialPort := by
  have hstop := control_simulates (e := .stop) (.inr (.inl rfl))
  refine Simulates.branch (fun s hs => ?_) .skip
  have hlocked : Simulates (update fun t => { t with serialPortLock := s.serialPortLock.suspendSerialPort.1 }) :=
    .update (fun _ hs => hs.congr rfl) fun _ => rfl
  have hsuspended := ((Simulates.emit (o := [.suspended]) rfl).andThen (hstop.andThen closeSerialPort_simulates)).ite
    (p := s.serialPortLock.suspendSerialPort.2 = true) .skip
  exact (hlocked.andThen (hsuspended.andThen propagateSerialPortState_simulates)) s hs

theorem resumeSerialPort_simulates (opens : OpenResult) : Simulates (resumeSerialPort opens) := by
  refine Simulates.branch (fun s hs => ?_) .skip
  have hunlocked : Simulates (update fun t => { t with serialPortLock := s.serialPortLock.resumeSerialPort.1 }) :=
    .update (fun _ hs => hs.congr rfl) fun _ => rfl
  have hresumed := ((Simulates.emit (o := [.resumed]) rfl).andThen (openSerialPort_simulates opens)).ite
    (p := s.serialPortLock.resumeSerialPort.2 = true) propagateSerialPortState_simulates
  exact (hunlocked.andThen hresumed) s hs

theorem modifyHandler_desks {h : HdlcdServerHandler} (hc : s.handlers c = some h)
    (f : HdlcdServerHandler → HdlcdServerHandler) :
    (modifyHandler c f s).desks = s.desks.seat c (desk (f h)) := by
  unfold modifyHandler Port.desks seat
  refine congrArg (Desks.mk _ · _ _) (funext fun d => ?_)
  dsimp only
  split_ifs with hd
  · rw [hd, hc]
    rfl
  · rfl

theorem modifyHandler_desks_same {f : HdlcdServerHandler → HdlcdServerHandler}
    (hf : ∀ h, desk (f h) = desk h) (c : ClientId) (s : Port) : (modifyHandler c f s).desks = s.desks := by
  unfold modifyHandler Port.desks
  refine congrArg (Desks.mk _ · _ _) (funext fun d => ?_)
  dsimp only
  split_ifs
  · rw [Option.map_map]
    exact congrArg (fun g => (s.handlers d).map g) (funext hf)
  · rfl

theorem modifyHandler_handlers {h : HdlcdServerHandler} (hc : s.handlers c = some h)
    (f : HdlcdServerHandler → HdlcdServerHandler) : (modifyHandler c f s).handlers c = some (f h) := by
  unfold modifyHandler
  dsimp only
  rw [if_pos rfl, hc]
  rfl

theorem seat_seat (d d' : Desk) (v : Desks) : (v.seat c d).seat c d' = v.seat c d' := by
  unfold seat
  refine congrArg (Desks.mk _ · _ _) (funext fun x => ?_)
  dsimp only
  split_ifs <;> rfl

theorem setLockedBySelf_desk (lockedBySelf : Bool) (h : HdlcdServerHandler) :
    desk (setLockedBySelf lockedBySelf h) = desk h := rfl

theorem acquireLock_simulates (c : ClientId) (h : HdlcdServerHandler) : Simulates (acquireLock c h) := by
  have hset : Simulates (update (modifyHandler c (setLockedBySelf true))) :=
    .update (fun _ hs => hs.modifyHandler c _) (modifyHandler_desks_same (setLockedBySelf_desk _) c)
  exact Simulates.skip.ite (hset.andThen suspendSerialPort_simulates)

theorem releaseLock_simulates (c : ClientId) (h : HdlcdServerHandler) (opens : OpenResult) :
    Simulates (releaseLock c h opens) := by
  have hset : Simulates (update (modifyHandler c (setLockedBySelf false))) :=
    .update (fun _ hs => hs.modifyHandler c _) (modifyHandler_desks_same (setLockedBySelf_desk _) c)
  exact (hset.andThen (resumeSerialPort_simulates opens)).ite .skip

theorem onCtrlReceived_simulates (c : ClientId) (h : HdlcdServerHandler) (opens : OpenResult) (packet : Packet) :
    Simulates (onCtrlReceived c h opens packet) := by
  cases packet with
  | data | keepAlive => exact .skip
  | portStatus lock =>
    cases lock with
    | true => exact acquireLock_simulates c h
    | false => exact releaseLock_simulates c h opens
  | echo => exact .emit rfl
  | portKill => exact stop_simulates

theorem handovers_deliverPayloadToHDLC (c : ClientId) (p : PacketData) (s : Port) :
    handovers (deliverPayloadToHDLC c p s).2 = [.sendPayload c p] := by
  have hnone := callProtocolState_handovers (submit p) s
  show handovers ([.sendPayload c p] ++ (callProtocolState (handle (submit p)) s).2) = _
  rw [handovers_append, hnone]
  rfl

theorem deliverPayloadToHDLC_desks (c : ClientId) (p : PacketData) (s : Port) :
    (deliverPayloadToHDLC c p s).1.desks = s.desks.call (submit p) :=
  callProtocolState_desks (submit p) s

theorem deliverPayloadToHDLC_enrolled (hs : Enrolled s) (c : ClientId) (p : PacketData) :
    Enrolled (deliverPayloadToHDLC c p s).1 := callProtocolState_enrolled hs (submit p)

theorem receives_desks {h : HdlcdServerHandler} (hr : s.receives c h = true) :
    s.desks.Receives c (desk h) := by
  unfold receives at hr
  rw [Bool.and_eq_true, Bool.or_eq_true] at hr
  obtain ⟨hstalled, hcalls⟩ := hr
  have hfree : h.stalled = false := by simpa using hstalled
  exact ⟨hfree, hcalls.imp List.isEmpty_iff.mp beq_iff_eq.mp⟩

theorem receives_of_desks {h : HdlcdServerHandler} (hr : s.desks.Receives c (desk h)) : s.receives c h = true := by
  unfold receives
  rw [Bool.and_eq_true, Bool.or_eq_true]
  exact ⟨(Bool.not_eq_true' _).mpr hr.1, hr.2.imp List.isEmpty_iff.mpr beq_iff_eq.mpr⟩

def keepPacket (p : PacketData) (h : HdlcdServerHandler) : HdlcdServerHandler :=
  { h with pendingIncomingPacketData := some p }

def takeTurn (h : HdlcdServerHandler) : HdlcdServerHandler :=
  { h with serialPortHandlerAwaitsPacket := false }

/-- The state in which a packet that was accepted is passed on. -/
def accepted (c : ClientId) (p : PacketData) (s : Port) : Port :=
  { modifyHandler c takeTurn (modifyHandler c (keepPacket p) s) with
    calls := .packetDelivery c :: s.calls }

def setStalled (h : HdlcdServerHandler) : HdlcdServerHandler := { h with stalled := true }

theorem desk_of_handler {h : HdlcdServerHandler} (hc : s.handlers c = some h) :
    s.desks.desk c = some (desk h) := by
  show (s.handlers c).map desk = _
  rw [hc]
  rfl

theorem desk_of_none (hc : s.handlers c = none) : s.desks.desk c = none := by
  show (s.handlers c).map desk = _
  rw [hc]
  rfl

theorem onDataReceived_accepted (hs : Enrolled s) {h : HdlcdServerHandler} (hc : s.handlers c = some h)
    (hr : s.receives c h = true) (p : PacketData) (hawaits : h.serialPortHandlerAwaitsPacket = true) :
    Enrolled (onDataReceived c h p s).1 ∧
      Acceptance c p s.desks (onDataReceived c h p s).1.desks (handovers (onDataReceived c h p s).2) := by
  have hu : Enrolled (accepted c p s) := ((hs.modifyHandler c (keepPacket p)).modifyHandler c takeTurn).congr rfl
  have hresult : onDataReceived c h p s = ((deliverPayloadToHDLC c p (accepted c p s)).1,
      .onDataReceived c p :: ((if h.pendingIncomingPacketData.isSome then
        [.fault .pendingPacket] else []) ++ (deliverPayloadToHDLC c p (accepted c p s)).2)) := by
    unfold onDataReceived
    rw [if_pos hawaits]
    split_ifs <;> rfl
  have haccept := Acceptance.accept (p := p) (desk h) (desk_of_handler hc) (receives_desks hr) hawaits
  have hseated : (accepted c p s).desks =
      { s.desks.seat c { desk h with awaitsPacket := false, pending := some p } with
        calls := .packetDelivery c :: s.calls } := by
    have htaken := modifyHandler_desks (modifyHandler_handlers hc (keepPacket p)) takeTurn
    rw [modifyHandler_desks hc (keepPacket p), seat_seat] at htaken
    exact congrArg (fun v : Desks => { v with calls := .packetDelivery c :: s.calls }) htaken
  have ho : handovers (onDataReceived c h p s).2 = .onDataReceived c p ::
      ((if (desk h).pending.isSome then [.fault .pendingPacket] else []) ++ [.sendPayload c p]) := by
    rw [hresult, ← handovers_deliverPayloadToHDLC c p (accepted c p s)]
    show handovers ([_] ++ (_ ++ _)) = _
    rw [handovers_append, handovers_append]
    unfold desk
    dsimp only
    split_ifs <;> rfl
  constructor
  · rw [hresult]
    exact deliverPayloadToHDLC_enrolled hu c p
  · rw [ho, hresult, deliverPayloadToHDLC_desks, hseated]
    exact haccept

theorem onDataReceived_refused (hs : Enrolled s) {h : HdlcdServerHandler} (hc : s.handlers c = some h)
    (hr : s.receives c h = true) (p : PacketData) (hrefused : h.serialPortHandlerAwaitsPacket = false) :
    Refines s (onDataReceived c h p s).1 (onDataReceived c h p s).2 := by
  have hturn := Turn.stall c (desk h) p (desk_of_handler hc) (receives_desks hr) hrefused
  have hresult : onDataReceived c h p s = ((stall c (modifyHandler c (keepPacket p) s)).1,
      .onDataReceived c p :: if h.pendingIncomingPacketData.isSome then
        [.fault .pendingPacket] else []) := by
    unfold onDataReceived
    rw [if_neg (Bool.eq_false_iff.mp hrefused)]
    split_ifs <;> rfl
  have hseated : (stall c (modifyHandler c (keepPacket p) s)).1.desks =
      { s.desks.seat c { desk h with pending := some p, stalled := true } with
        calls := if s.calls.head? = some (.receiving c) then s.calls.tail else s.calls } := by
    have hstalled := modifyHandler_desks (modifyHandler_handlers hc (keepPacket p)) setStalled
    rw [modifyHandler_desks hc (keepPacket p), seat_seat] at hstalled
    exact congrArg (fun v : Desks => { v with
      calls := if s.calls.head? = some (Call.receiving c) then s.calls.tail else s.calls }) hstalled
  have ho : handovers (onDataReceived c h p s).2 = .onDataReceived c p ::
      if (desk h).pending.isSome then [.fault .pendingPacket] else [] := by
    rw [hresult]
    unfold desk
    dsimp only
    split_ifs <;> rfl
  refine .of_turn ?_ ?_
  · rw [hresult]
    exact ((hs.modifyHandler c (keepPacket p)).modifyHandler c setStalled).congr rfl
  · rw [ho, hresult, hseated]
    exact hturn

/-- What an event is at the desks. -/
inductive Advances (s t : Port) (o : List Output) : Event → Prop
  | turns {e : Event} (h : Refines s t o)
    (hcalls : e = .proceed → ∀ r u c clients calls, s.calls ≠ .forEach r u (c :: clients) :: calls) :
    Advances s t o e
  | accepts {c : ClientId} {p : PacketData} {opens : OpenResult} (henrolled : Enrolled t)
    (haccept : Acceptance c p s.desks t.desks (handovers o)) : Advances s t o (.receive c (.data p) opens)
  | visits (henrolled : Enrolled t) (hvisit : Visit s.desks t.desks (handovers o)) : Advances s t o .proceed
  -- the clients begin to be queried
  | round (r u : Bool) (calls : List Call) (hcalls : s.calls = .queryForPayload r u :: calls)
    (henrolled : Enrolled t) (hround : Round s.desks t.desks) (ho : o = []) : Advances s t o .proceed

theorem receive_advances (c : ClientId) (packet : Packet) (opens : OpenResult) (hs : Enrolled s) :
    Advances s (receive c packet opens s).1 (receive c packet opens s).2 (.receive c packet opens) := by
  have hrefined {t : Port} {o : List Output} (h : Refines s t o) : Advances s t o (.receive c packet opens) :=
    .turns h fun he => Event.noConfusion he
  unfold receive
  split
  · exact hrefined (.refl hs rfl)
  · rename_i h hc
    split_ifs with hr
    · split
      · rename_i p
        by_cases hawaits : h.serialPortHandlerAwaitsPacket = true
        · obtain ⟨henrolled, haccept⟩ := onDataReceived_accepted hs hc hr p hawaits
          exact .accepts henrolled haccept
        · exact hrefined (onDataReceived_refused hs hc hr p (Bool.eq_false_of_not_eq_true hawaits))
      · exact hrefined (onCtrlReceived_simulates c h opens packet s hs)
    · exact hrefined (.refl hs rfl)

theorem seat_same {v : Desks} {d : Desk} (hd : v.desk c = some d) : v.seat c d = v := by
  unfold seat
  refine congrArg (Desks.mk _ · _ _) (funext fun x => ?_)
  split_ifs with hx
  · rw [hx, hd]
  · rfl

theorem triggerNextDataPacket_desks {h : HdlcdServerHandler} (hc : s.handlers c = some h) :
    (triggerNextDataPacket c s).1.desks = s.desks.release c (desk h) ∧
      handovers (triggerNextDataPacket c s).2 = [] := by
  have hdesk := desk_of_handler hc
  unfold triggerNextDataPacket
  simp only [hc]
  split_ifs with hstalled
  · refine ⟨?_, rfl⟩
    have hfreed := modifyHandler_desks hc fun h => { h with stalled := false }
    have hpushed : (modifyHandler c (fun h => { h with stalled := false }) s).desks.calls = s.calls := rfl
    unfold release
    rw [if_pos (show (desk h).stalled = true from hstalled)]
    exact congrArg (fun v : Desks => { v with calls := .receiving c :: s.calls }) hfreed
  · refine ⟨?_, rfl⟩
    have hfree : { desk h with stalled := false } = desk h := by
      unfold desk
      rw [Bool.eq_false_of_not_eq_true hstalled]
    unfold release
    rw [if_neg (show ¬ (desk h).stalled = true from hstalled), hfree, seat_same hdesk]

theorem triggerNextDataPacket_enrolled (hs : Enrolled s) (c : ClientId) :
    Enrolled (triggerNextDataPacket c s).1 := by
  unfold triggerNextDataPacket
  split
  · exact hs
  · split_ifs
    · exact (hs.modifyHandler c _).congr rfl
    · exact hs

theorem seat_release (d d' : Desk) (v : Desks) : (v.seat c d).release c d' = v.release c d' := by
  unfold release
  rw [seat_seat]
  rfl

theorem Enrolled.calls (hs : Enrolled s) (calls : List Call) : Enrolled { s with calls := calls } :=
  hs.congr rfl

theorem queryClient_none (hc : s.handlers c = none) (r u : Bool) : queryClient r u c s = (s, []) := by
  unfold queryClient
  rw [hc]

theorem queryClient_pending {h : HdlcdServerHandler} {p : PacketData} (hc : s.handlers c = some h)
    (hp : h.pendingIncomingPacketData = some p) (r u : Bool) :
    queryClient r u c s =
      if wanted r u p then ((pushCall (.pendingDelivery c)).andThen (deliverPayloadToHDLC c p)) s
      else (s, []) := by
  unfold queryClient
  rw [hc]
  dsimp only
  rw [hp]
  rfl

def awaitPacket (h : HdlcdServerHandler) : HdlcdServerHandler :=
  { h with serialPortHandlerAwaitsPacket := true }

theorem queryClient_empty {h : HdlcdServerHandler} (hc : s.handlers c = some h)
    (hp : h.pendingIncomingPacketData = none) (r u : Bool) :
    queryClient r u c s = triggerNextDataPacket c (modifyHandler c awaitPacket s) := by
  unfold queryClient
  rw [hc]
  dsimp only
  rw [hp]
  rfl

theorem query_advances (hs : Enrolled s) {r u : Bool} {clients : List ClientId} {calls : List Call}
    (hcalls : s.calls = .forEach r u (c :: clients) :: calls) :
    Advances s (queryClient r u c { s with calls := .forEach r u clients :: calls }).1
      (queryClient r u c { s with calls := .forEach r u clients :: calls }).2 .proceed := by
  have hcalled := hs.calls (.forEach r u clients :: calls)
  generalize ht : ({ s with calls := .forEach r u clients :: calls } : Port) = t at hcalled ⊢
  have hhandlers : t.handlers = s.handlers := by rw [← ht]
  have htdesks : t.desks = { s.desks with calls := .forEach r u clients :: calls } := by rw [← ht]; rfl
  cases hc : s.handlers c with
  | none =>
    rw [queryClient_none (hhandlers ▸ hc)]
    refine .visits hcalled ?_
    rw [htdesks]
    refine .pass r u c clients calls hcalls fun d hd => ?_
    rw [desk_of_none hc] at hd
    exact absurd hd (Option.some_ne_none d).symm
  | some h =>
    have htc : t.handlers c = some h := hhandlers ▸ hc
    cases hp : h.pendingIncomingPacketData with
    | none =>
      obtain ⟨hdesks, ho⟩ := triggerNextDataPacket_desks (modifyHandler_handlers htc awaitPacket)
      rw [modifyHandler_desks htc, seat_release, htdesks] at hdesks
      have hvisit := Visit.query r u c clients calls (desk h) hcalls (desk_of_handler hc) hp
      rw [queryClient_empty htc hp]
      refine .visits (triggerNextDataPacket_enrolled (hcalled.modifyHandler c _) c) ?_
      rw [hdesks, ho]
      exact hvisit
    | some p =>
      rw [queryClient_pending htc hp]
      split_ifs with hwanted
      · have hvisit := Visit.deliver r u c clients calls (desk h) p hcalls (desk_of_handler hc) hp hwanted
        have hpushed : Enrolled (pushCall (.pendingDelivery c) t).1 := hcalled.calls _
        have ho := handovers_deliverPayloadToHDLC c p (pushCall (.pendingDelivery c) t).1
        have hdesks := deliverPayloadToHDLC_desks c p (pushCall (.pendingDelivery c) t).1
        have hpushedDesks : (pushCall (.pendingDelivery c) t).1.desks =
            { s.desks with calls := .pendingDelivery c :: .forEach r u clients :: calls } := by
          rw [← ht]
          rfl
        rw [hpushedDesks] at hdesks
        refine .visits (deliverPayloadToHDLC_enrolled hpushed c p) ?_
        show Visit _ (deliverPayloadToHDLC c p _).1.desks (handovers (deliverPayloadToHDLC c p _).2)
        rw [hdesks, ho]
        exact hvisit
      · refine .visits hcalled ?_
        rw [htdesks]
        refine .pass r u c clients calls hcalls fun d hd => ?_
        rw [desk_of_handler hc] at hd
        cases hd
        exact ⟨p, hp, Bool.eq_false_of_not_eq_true hwanted⟩

@[simp] theorem readBytes_length (s : Port) (offset bytes : Nat) : (s.readBytes offset bytes).length = bytes := by
  rw [readBytes, List.length_map, List.length_range']

theorem readBytes_ne_nil (s : Port) (offset bytes : Nat) : s.readBytes offset (bytes + 1) ≠ [] := by
  rw [← List.length_pos_iff, readBytes_length]
  exact Nat.succ_pos bytes

theorem readBytes_drop (s : Port) (offset bytes n : Nat) :
    (s.readBytes offset bytes).drop n = s.readBytes (offset + n) (bytes - n) := by
  rw [readBytes, ← List.map_drop, List.drop_range', Nat.mul_one]
  rfl

def parsed (offset bytes : Nat) (calls : List Call) (s : Port) : Port :=
  let chunk := s.protocolState.frameParser.addChunk (s.readBytes offset bytes)
  { s with
    protocolState := { s.protocolState with frameParser := chunk.1 }
    calls := .addReceivedRawBytes (offset + chunk.2.2) (bytes - chunk.2.2) :: calls }

def interpret (x : Interpretation) : Act :=
  callProtocolState (interpretDeserializedFrame x.payload x.hdlcFrame x.messageInvalid)

theorem addChunk_eq (offset bytes : Nat) (calls : List Call) (s : Port) :
    addChunk offset bytes { s with calls := calls } =
      run interpret (s.protocolState.frameParser.addChunk (s.readBytes offset bytes)).2.1
        (parsed offset bytes calls s) := rfl

theorem addChunk_refines (hs : Enrolled s) {offset bytes : Nat} {calls : List Call}
    (hcalls : s.calls = .addReceivedRawBytes offset bytes :: calls) :
    Refines s (addChunk offset bytes { s with calls := calls }).1
      (addChunk offset bytes { s with calls := calls }).2 := by
  have ht : Enrolled (parsed offset bytes calls s) :=
    ⟨hs.consistent.congr rfl, hs.listed, hs.nodup, hs.known, hs.distinct⟩
  have hparsed : Refines s (parsed offset bytes calls s) [] := by
    have hmoved : Moved s.calls (parsed offset bytes calls s).calls := hcalls ▸ Moved.chunk offset bytes _ _ calls
    exact .of_turn ht (.moved (v := s.desks) _ _ hmoved)
  have hframe : Refines (parsed offset bytes calls s)
      (run interpret (s.protocolState.frameParser.addChunk (s.readBytes offset bytes)).2.1
        (parsed offset bytes calls s)).1
      (run interpret (s.protocolState.frameParser.addChunk (s.readBytes offset bytes)).2.1
        (parsed offset bytes calls s)).2 := by
    rcases addChunk_calls s.protocolState.frameParser (s.readBytes offset bytes) with hnone | ⟨x, hone⟩
    · rw [hnone]
      exact .refl ht rfl
    · have hmem : x ∈ (s.protocolState.frameParser.addChunk (s.readBytes offset bytes)).2.1 := by
        rw [hone]
        exact List.mem_singleton_self x
      have hx := addChunk_call hmem
      rw [hone, run_singleton, interpret, hx]
      exact event_refines (e := .frame x.payload x.messageInvalid) (by simp) ht (.inr ⟨_, _, _, rfl⟩)
  rw [addChunk_eq]
  exact hparsed.trans hframe

theorem moved_refines (hs : Enrolled s) {calls : List Call} (h : Moved s.calls calls) :
    Refines s { s with calls := calls } [] :=
  .of_turn (hs.calls calls) (.moved (v := s.desks) s.protocolState.frameParser calls h)

theorem pushCall_refines (hs : Enrolled s) {x : Call} (h : Moved s.calls (x :: s.calls)) :
    Refines s (pushCall x s).1 [] := moved_refines hs h

theorem over_refines (hs : Enrolled s) {x : Call} {calls : List Call} (hcalls : s.calls = x :: calls)
    (hx : Over x) : Refines s { s with calls := calls } [] := by
  refine moved_refines hs ?_
  rw [hcalls]
  exact .returned x calls hx

theorem orphaned_refines (hs : Enrolled s) {calls : List Call}
    (hcalls : s.calls = .packetDelivery c :: calls ∨ s.calls = .pendingDelivery c :: calls)
    (hc : s.handlers c = none) :
    Refines s (clearPending c { s with calls := calls }).1 [] := by
  refine .of_turn ((hs.calls calls).modifyHandler c _) ?_
  have hsame : (clearPending c { s with calls := calls }).1.desks = { s.desks with calls := calls } := by
    unfold clearPending update modifyHandler Port.desks
    refine congrArg (Desks.mk _ · _ _) (funext fun d => ?_)
    dsimp only
    split_ifs with hd
    · rw [hd, hc]
      rfl
    · rfl
  rw [hsame]
  exact .orphaned c calls hcalls (desk_of_none hc)

def dropPacket (h : HdlcdServerHandler) : HdlcdServerHandler :=
  { h with pendingIncomingPacketData := none }

theorem clearPending_desks {h : HdlcdServerHandler} (hc : s.handlers c = some h) (calls : List Call) :
    (clearPending c { s with calls := calls }).1.desks =
      { s.desks.seat c { desk h with pending := none } with calls := calls } :=
  congrArg (fun v : Desks => { v with calls := calls }) (modifyHandler_desks hc dropPacket)

theorem delivered_refines (hs : Enrolled s) {calls : List Call}
    (hcalls : s.calls = .packetDelivery c :: calls) :
    Refines s (clearPending c { s with calls := calls }).1 [] := by
  cases hc : s.handlers c with
  | none => exact orphaned_refines hs (.inl hcalls) hc
  | some h =>
    refine .of_turn ((hs.calls calls).modifyHandler c _) ?_
    rw [clearPending_desks hc]
    exact .delivered c calls (desk h) hcalls (desk_of_handler hc)

theorem pendingDelivered_refines (hs : Enrolled s) {calls : List Call}
    (hcalls : s.calls = .pendingDelivery c :: calls) :
    Refines s (triggerNextDataPacket c (clearPending c { s with calls := calls }).1).1
      (triggerNextDataPacket c (clearPending c { s with calls := calls }).1).2 := by
  have hcleared : Enrolled (clearPending c { s with calls := calls }).1 :=
    (hs.calls calls).modifyHandler c dropPacket
  cases hc : s.handlers c with
  | none =>
    have hnone : (clearPending c { s with calls := calls }).1.handlers c = none := by
      unfold clearPending update modifyHandler
      dsimp only
      rw [if_pos rfl, hc]
      rfl
    unfold triggerNextDataPacket
    rw [hnone]
    exact (orphaned_refines hs (.inr hcalls) hc).trans (.refl hcleared rfl)
  | some h =>
    have hdropped : (clearPending c { s with calls := calls }).1.handlers c = some (dropPacket h) :=
      modifyHandler_handlers (s := { s with calls := calls }) hc dropPacket
    obtain ⟨hdesks, ho⟩ := triggerNextDataPacket_desks hdropped
    have hreleased : ({ s.desks.seat c { desk h with pending := none } with calls := calls } : Desks).release c
        (desk (dropPacket h)) = release c { desk h with pending := none } { s.desks with calls := calls } :=
      seat_release _ _ { s.desks with calls := calls }
    rw [clearPending_desks hc, hreleased] at hdesks
    refine .of_turn (triggerNextDataPacket_enrolled hcleared c) ?_
    rw [hdesks, ho]
    exact .pendingDelivered c calls (desk h) hcalls (desk_of_handler hc)

theorem round_advances (hs : Enrolled s) {r u : Bool} {calls : List Call}
    (hcalls : s.calls = .queryForPayload r u :: calls) :
    Advances s { rebuildSubscriptions { s with calls := calls } with
      calls := .forEach r u (live { s with calls := calls }) :: calls } [] .proceed := by
  have hserved := rebuildSubscriptions_served { s with calls := calls }
  have hrebuilt := (hs.calls calls).served hserved
  have hdesks : ({ rebuildSubscriptions { s with calls := calls } with
      calls := .forEach r u (live { s with calls := calls }) :: calls } : Port).desks =
      { s.desks with calls := .forEach r u s.live :: calls } :=
    congrArg (fun v : Desks => { v with calls := .forEach r u s.live :: calls }) hserved.desks
  refine .round r u calls hcalls (hrebuilt.calls _) ?_ rfl
  rw [hdesks]
  refine .begin r u s.live calls hcalls (fun c => ?_) (hs.nodup.sublist List.filter_sublist)
  rw [hs.mem_live]
  exact (congrArg (· = true) (Option.isSome_map ..)).symm.to_iff

theorem proceed_advances (hs : Enrolled s) : Advances s (proceed s).1 (proceed s).2 .proceed := by
  unfold proceed
  cases hcalls : s.calls with
  | nil => exact .turns (.refl hs rfl) fun _ r u c clients calls h => by simp [hcalls] at h
  | cons x calls =>
    have hback : ({ s with calls := x :: calls } : Port) = s := by rw [← hcalls]
    have hrefined {t : Port} {o : List Output} (h : Refines s t o)
        (hx : ∀ r u c clients, x ≠ .forEach r u (c :: clients)) : Advances s t o .proceed :=
      .turns h fun _ r u c clients calls' hround => hx r u c clients (List.cons.inj (hcalls.symm.trans hround)).1
    cases x with
    | queryForPayload r u => exact round_advances hs hcalls
    | forEach r u clients =>
      cases clients with
      | nil => exact hrefined (over_refines hs hcalls (.forEach r u)) (by simp)
      | cons c clients => exact query_advances hs hcalls
    | pendingDelivery c => exact hrefined (pendingDelivered_refines hs hcalls) (by simp)
    | packetDelivery c => exact hrefined (delivered_refines hs hcalls) (by simp)
    | receiving c =>
      show Advances s { s with calls := .receiving c :: calls } [] .proceed
      rw [hback]
      exact hrefined (.refl hs rfl) (by simp)
    | addReceivedRawBytes offset bytes =>
      cases bytes with
      | zero => exact hrefined (over_refines hs hcalls (.addReceivedRawBytes offset)) (by simp)
      | succ bytes => exact hrefined (addChunk_refines hs hcalls) (by simp)
    | readHandler opening =>
      have hover := over_refines hs hcalls (.readHandler opening)
      exact hrefined (hover.trans ((Simulates.skip.branch doRead_simulates) _ hover.enrolled)) (by simp)

theorem endReceiving_simulates (c : ClientId) : Simulates (endReceiving c) := by
  intro s hs
  unfold endReceiving branch
  split_ifs with hhead
  · obtain ⟨calls, hcalls⟩ := List.head?_eq_some_iff.mp (beq_iff_eq.mp hhead)
    have hover := over_refines hs hcalls (.receiving c)
    have htail : s.calls.tail = calls := by rw [hcalls, List.tail_cons]
    rw [← htail] at hover
    exact hover
  · exact .refl hs rfl

def SimulatesIdle (a : Act) : Prop :=
  ∀ s, Enrolled s → s.calls = [] → Refines s (a s).1 (a s).2

namespace SimulatesIdle

theorem of_simulates (h : Simulates a) : SimulatesIdle a := fun s hs _ => h s hs

theorem branch {f : Port → Bool} (ha : SimulatesIdle a) (hb : SimulatesIdle b) :
    SimulatesIdle (branch f a b) := fun s hs hidle => .branch (ha s hs hidle) (hb s hs hidle)

theorem update_andThen {f : Port → Port} (hf : ∀ s, Enrolled s → Enrolled (f s))
    (hdesks : ∀ s, (f s).desks = s.desks) (hb : SimulatesIdle b) :
    SimulatesIdle ((update f).andThen b) := by
  intro s hs hidle
  have hcalls : (f s).calls = s.calls := congrArg Desks.calls (hdesks s)
  have hfirst : Refines s (f s) [] := .of_same (hf s hs) (hdesks s) rfl
  exact hfirst.trans (hb (f s) (hf s hs) (hcalls.trans hidle))

theorem emit_andThen {o : List Output} (ho : handovers o = []) (hb : SimulatesIdle b) :
    SimulatesIdle ((emit o).andThen b) :=
  fun s hs hidle => (Refines.refl hs ho).trans (hb s hs hidle)

theorem whenIdle (ha : SimulatesIdle a) : Simulates (whenIdle a) := by
  intro s hs
  unfold Port.whenIdle Action.branch
  split_ifs with hidle
  · exact ha s hs (List.isEmpty_iff.mp hidle)
  · exact .refl hs rfl

end SimulatesIdle

theorem onRead_simulates (r : ReadOperation) (result : ReadResult) : SimulatesIdle (onRead r result) := by
  cases result with
  | error => exact .of_simulates (Simulates.skip.branch stop_simulates)
  | success bytesRead =>
    intro s hs hidle
    have hread : Moved s.calls (.readHandler r.opening :: s.calls) := by
      rw [hidle]
      exact .readHandler r.opening
    have hbytes : Moved (.readHandler r.opening :: s.calls)
        (.addReceivedRawBytes 0 bytesRead :: .readHandler r.opening :: s.calls) := by
      rw [hidle]
      exact .bytes r.opening 0 bytesRead
    have hpushed := pushCall_refines hs hread
    exact hpushed.trans (.branch (pushCall_refines hpushed.enrolled hbytes)
      (Simulates.skip _ hpushed.enrolled))

theorem readHandler_simulates (i : Nat) : SimulatesIdle (readHandler i) := by
  intro s hs hidle
  unfold readHandler
  split
  · rename_i r _
    split
    · rename_i result _
      exact SimulatesIdle.update_andThen (b := onRead r result)
        (f := fun s => { s with serialPort := { s.serialPort with reads := s.serialPort.reads.eraseIdx i } })
        (fun _ hs => hs.congr rfl) (fun _ => rfl) (onRead_simulates r result) s hs hidle
    · exact .refl hs rfl
  · exact .refl hs rfl

theorem trigger_simulates : SimulatesIdle (callProtocolState ProtocolState.triggerNextHDLCFrame) :=
  fun _ hs hidle => event_refines (e := .internal .triggerNextHDLCFrame) (by simp) hs (.inl hidle)

theorem onWrite_simulates (result : WriteResult) : SimulatesIdle (onWrite result) := by
  cases result with
  | error => exact .of_simulates (Simulates.skip.branch stop_simulates)
  | success bytesSent =>
    have hskip := SimulatesIdle.of_simulates .skip
    have htriggered := trigger_simulates.emit_andThen (o := [.triggerNextHDLCFrame]) rfl
    have hreset := (hskip.branch (f := (·.serialPortLock.getSerialPortState)) htriggered).update_andThen
      (f := fun s => { s with sendBufferOffset := 0 }) (fun _ hs => hs.congr rfl) fun _ => rfl
    have hpart := hskip.branch (f := (·.serialPortLock.getSerialPortState)) (.of_simulates doWrite_simulates)
    exact (hreset.branch hpart).update_andThen (fun _ hs => hs.congr rfl) fun _ => rfl

theorem writeHandler_simulates (i : Nat) : SimulatesIdle (writeHandler i) := by
  intro s hs hidle
  unfold writeHandler
  split
  · split
    · rename_i result _
      exact SimulatesIdle.update_andThen (b := onWrite result)
        (f := fun s => { s with serialPort := { s.serialPort with writes := s.serialPort.writes.eraseIdx i } })
        (fun _ hs => hs.congr rfl) (fun _ => rfl) (onWrite_simulates result) s hs hidle
    · exact .refl hs rfl
  · exact .refl hs rfl

theorem onFrame_desk {sap : UInt8} {h : HdlcdServerHandler} (hsap : HdlcdServerHandler.onFrame sap = some h) :
    desk h = {} ∧ h.lockGuard = {} ∧ h.aliveGuard = {} := by
  unfold HdlcdServerHandler.onFrame at hsap
  split at hsap
  · exact absurd hsap (Option.some_ne_none h).symm
  · split_ifs at hsap
    rw [← Option.some.inj hsap]
    exact ⟨rfl, rfl, rfl⟩

def withHandler (c : ClientId) (h : HdlcdServerHandler) (s : Port) : Port :=
  { s with
    bufferTypeSubscribers := fun t =>
      if t = h.bufferType then s.bufferTypeSubscribers t + 1 else s.bufferTypeSubscribers t
    handlerList := s.handlerList ++ [c]
    handlers := fun d => if d = c then some h else s.handlers d
    connections := s.connections ++ [c] }

theorem Enrolled.withHandler (hs : Enrolled s) (hnew : c ∉ s.connections) (h : HdlcdServerHandler) :
    Enrolled (withHandler c h s) where
  consistent := hs.consistent
  listed d hd := by
    by_cases hdc : d = c
    · exact List.mem_append_right _ (List.mem_singleton.mpr hdc)
    · have hold : (s.handlers d).isSome = true := by
        have hsome : (if d = c then some h else s.handlers d).isSome = true := hd
        rwa [if_neg hdc] at hsome
      exact List.mem_append_left _ (hs.listed d hold)
  nodup := by
    refine List.nodup_append.mpr ⟨hs.nodup, List.pairwise_singleton _ c, ?_⟩
    rintro x hx y hy rfl
    rw [List.mem_singleton.mp hy] at hx
    exact hnew (hs.known c hx)
  known d hd := by
    rcases List.mem_append.mp hd with hold | hc
    · exact List.mem_append_left _ (hs.known d hold)
    · exact List.mem_append_right _ hc
  distinct := by
    refine List.nodup_append.mpr ⟨hs.distinct, List.pairwise_singleton _ c, ?_⟩
    rintro x hx y hy rfl
    rw [List.mem_singleton.mp hy] at hx
    exact hnew hx

theorem withHandler_refines (hs : Enrolled s) (hidle : s.calls = []) (hnew : c ∉ s.connections)
    {h : HdlcdServerHandler} (hfresh : desk h = {}) : Refines s (withHandler c h s) [] := by
  refine .of_turn (hs.withHandler hnew h) ?_
  have hdesks : (withHandler c h s).desks = { s.desks.seat c {} with connections := s.connections ++ [c] } := by
    unfold withHandler seat Port.desks
    refine congrArg (Desks.mk _ · _ _) (funext fun d => ?_)
    dsimp only
    split_ifs
    · rw [← hfresh]
      rfl
    · rfl
  rw [hdesks]
  exact .attach c hidle hnew

theorem initLockGuard_simulates (c : ClientId) : Simulates (initLockGuard c) := by
  intro s hs
  unfold initLockGuard
  split
  · exact .refl hs rfl
  · refine ((Simulates.emit ?_).andThen propagateSerialPortState_simulates) s hs
    split_ifs <;> rfl

theorem attach_simulates (c : ClientId) (sap : UInt8) (opens : OpenResult) : Simulates (attach c sap opens) := by
  intro s hs
  unfold attach
  split
  · exact .refl hs rfl
  · rename_i h hsap
    by_cases hcond : (s.registered && s.calls.isEmpty && !s.connections.contains c) = true
    · rw [if_pos hcond]
      simp only [Bool.and_eq_true, List.isEmpty_iff, Bool.not_eq_true', List.contains_eq_mem,
        decide_eq_false_iff_not] at hcond
      have hadded : Refines s (addHdlcdServerHandler c h s).1 (addHdlcdServerHandler c h s).2 :=
        (withHandler_refines hs hcond.1.2 hcond.2 (onFrame_desk hsap).1).trans
          ((propagateSerialPortState_simulates.branch .skip) _ (hs.withHandler hcond.2 h))
      exact hadded.trans
        (((Simulates.ite (p := s.connections.isEmpty = true) (openSerialPort_simulates opens) .skip).andThen
          (initLockGuard_simulates c)) _ hadded.enrolled)
    · rw [if_neg hcond]
      exact .refl hs rfl

theorem eraseHandler_simulates (c : ClientId) : Simulates (update (eraseHandler c)) := by
  intro s hs
  have hleft := hs.leave fun d => decide (d = c)
  refine .of_turn (hleft.congr ?_) ?_
  · refine congrArg (fun f => (_, f, _, _)) (funext fun d => ?_)
    by_cases hd : d = c <;> simp [update, eraseHandler, hd]
  · have hdesks : (eraseHandler c s).desks =
        { s.desks with desk := fun d => if decide (d = c) then none else s.desks.desk d } := by
      unfold eraseHandler Port.desks
      refine congrArg (Desks.mk _ · _ _) (funext fun d => ?_)
      by_cases hd : d = c <;> simp [hd]
    show Turn _ (eraseHandler c s).desks _
    rw [hdesks]
    exact .leave _

theorem disconnect_simulates (c : ClientId) (opens : OpenResult) : Simulates (disconnect c opens) := by
  intro s hs
  unfold disconnect
  split
  · exact .refl hs rfl
  · rename_i h hc
    have hreleased := Simulates.ite (p := h.lockGuard.lockedBySelf = true)
      (resumeSerialPort_simulates opens) .skip
    by_cases hidle : s.calls.isEmpty = true
    · rw [if_pos hidle]
      exact ((eraseHandler_simulates c).andThen (hreleased.andThen (stop_simulates.branch .skip))) s hs
    · rw [if_neg hidle]
      exact .refl hs rfl

theorem step_advances (hs : Enrolled s) (e : Event) : Advances s (step e s).1 (step e s).2 e := by
  have hrefined (h : Refines s (step e s).1 (step e s).2) (he : e ≠ .proceed) :
      Advances s (step e s).1 (step e s).2 e := .turns h fun hproceed => absurd hproceed he
  cases e with
  | attach c sap opens => exact hrefined (attach_simulates c sap opens s hs) (by simp)
  | disconnect c opens => exact hrefined (disconnect_simulates c opens s hs) (by simp)
  | receive c packet opens => exact receive_advances c packet opens hs
  | endReceiving c => exact hrefined (endReceiving_simulates c s hs) (by simp)
  | proceed => exact proceed_advances hs
  | timer e =>
    refine hrefined (SimulatesIdle.whenIdle (fun s hs hidle => ?_) s hs) (by simp)
    refine event_refines (e := .internal e.localEvent) (fun payload reliable => ?_) hs (.inl hidle)
    cases e <;> simp [TimerEvent.localEvent]
  | readCompletes i completion =>
    have hfilled : Simulates (update (fillReadBuffer completion.bytes)) :=
      .update (fun _ hs => hs.congr rfl) fun _ => rfl
    have hcompleted : Simulates (readCompletes i completion) :=
      (hfilled.branch .skip).andThen (.update (fun _ hs => hs.congr rfl) fun _ => rfl)
    exact hrefined ((hcompleted.ite .skip) s hs) (by simp)
  | writeCompletes i result =>
    have hcompleted : Simulates (update fun s => { s with serialPort := s.serialPort.writeCompletes i result }) :=
      .update (fun _ hs => hs.congr rfl) fun _ => rfl
    exact hrefined ((hcompleted.branch .skip) s hs) (by simp)
  | readHandler i => exact hrefined ((readHandler_simulates i).whenIdle s hs) (by simp)
  | writeHandler i => exact hrefined ((writeHandler_simulates i).whenIdle s hs) (by simp)

theorem step_keeps {I : Desks → List Output → Prop}
    (hturn : ∀ v w o past, Turn v w o → I v past → I w (past ++ o))
    (haccept : ∀ c p v w o past, Acceptance c p v w o → I v past → I w (past ++ o))
    (hvisit : ∀ v w o past, Visit v w o → I v past → I w (past ++ o))
    (hround : ∀ v w past, Round v w → I v past → I w past) {e : Event} (hs : Enrolled s)
    (past : List Output) (h : I s.desks (handovers past)) :
    Enrolled (step e s).1 ∧ I (step e s).1.desks (handovers (past ++ (step e s).2)) := by
  rw [handovers_append]
  cases step_advances hs e with
  | turns hrefines => exact ⟨hrefines.enrolled, hrefines.turns.keep hturn _ h⟩
  | accepts henrolled haccepted => exact ⟨henrolled, haccept _ _ _ _ _ _ haccepted h⟩
  | visits henrolled hvisited => exact ⟨henrolled, hvisit _ _ _ _ hvisited h⟩
  | round r u calls hcalls henrolled hbegin ho =>
    rw [ho]
    show _ ∧ I _ (handovers past ++ [])
    rw [List.append_nil]
    exact ⟨henrolled, hround _ _ _ hbegin h⟩

theorem run_keeps {I : Desks → List Output → Prop}
    (hturn : ∀ v w o past, Turn v w o → I v past → I w (past ++ o))
    (haccept : ∀ c p v w o past, Acceptance c p v w o → I v past → I w (past ++ o))
    (hvisit : ∀ v w o past, Visit v w o → I v past → I w (past ++ o))
    (hround : ∀ v w past, Round v w → I v past → I w past) (hinitial : I initial.desks [])
    (es : List Event) :
    Enrolled (run step es initial).1 ∧
      I (run step es initial).1.desks (handovers (run step es initial).2) :=
  wp_run (P := fun s o => Enrolled s ∧ I s.desks (handovers o))
    (fun _ _ _ _ h => step_keeps hturn haccept hvisit hround h.1 _ h.2) (o := []) ⟨.initial, hinitial⟩

end
end Hdlcd.Port
