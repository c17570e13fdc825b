import Hdlcd.Port.Departures
import Hdlcd.Port.Nesting
import Hdlcd.Library.Reachability

/-! The calls of a serial port handler and its clients come to an end, however the packet
endpoints behave: each step takes one of a number of steps that is fixed when the call begins.
An exception or a failed assertion, which end the daemon, are put out, and the calls go on. -/

namespace Hdlcd.Port
open Reactive Action ProtocolState Desks

def callWeight (n : Nat) : Call → Nat
  | .queryForPayload .. => 3 * n + 2
  | .forEach _ _ clients => 3 * clients.length + 1
  | .pendingDelivery _ => 2
  | .packetDelivery _ | .receiving _ | .readHandler _ => 1
  -- every byte may be the end of a frame, which may cause a query
  | .addReceivedRawBytes _ bytes => (3 * n + 3) * bytes + 1

def callsWeight (n : Nat) (calls : List Call) : Nat := (calls.map (callWeight n)).sum

/-- The steps that are left at most until all calls have returned. -/
def weight (s : Port) : Nat := callsWeight s.connections.length s.calls

/-- The innermost call goes on: it takes a step, or its packet endpoint hands over a data packet
or has none. -/
def goesOn (s : Port) : Event → Bool
  | .proceed =>
    match s.calls with
    | [] | .receiving _ :: _ => false
    | _ => true
  | .endReceiving c => s.calls.head? == some (.receiving c)
  | .receive c (.data _) _ => s.calls.head? == some (.receiving c) && (s.handlers c).any fun h => !h.stalled
  | _ => false

/-- No client has come, and `k` steps were taken. -/
structure Relieved (k : Nat) (s t : Port) : Prop where
  connections : t.connections = s.connections
  weight : t.weight + k ≤ s.weight

section
variable {s t : Port} {c : ClientId} {calls : List Call} {n k : Nat}

@[simp] theorem callsWeight_cons (n : Nat) (x : Call) (calls : List Call) :
    callsWeight n (x :: calls) = callWeight n x + callsWeight n calls := List.sum_cons

theorem callsWeight_append (n : Nat) (calls calls' : List Call) :
    callsWeight n (calls ++ calls') = callsWeight n calls + callsWeight n calls' := by
  unfold callsWeight
  rw [List.map_append, List.sum_append]

theorem Relieved.of_calls (hconnections : t.connections = s.connections)
    (h : callsWeight s.connections.length t.calls + k ≤ callsWeight s.connections.length s.calls) :
    Relieved k s t := by
  refine ⟨hconnections, ?_⟩
  unfold Port.weight
  rw [hconnections]
  exact h

theorem Relieved.of_paused (h : Paused s.calls s.connections t) : Relieved 0 s t :=
  .of_calls h.connections (by rw [h.calls, Nat.add_zero])

theorem callsWeight_asks {ps : ProtocolState} (hs : Consistent ps) (e : Hdlcd.Event) (n : Nat) :
    callsWeight n (asks (queries (handle e ps).2)) ≤ 3 * n + 2 := by
  cases handle_asked hs e with
  | nothing hqs =>
    rw [hqs]
    exact Nat.zero_le _
  | payload _ _ _ hqs =>
    rw [hqs]
    exact Nat.le_refl _

theorem Enrolled.live_length (hs : Enrolled s) : s.live.length ≤ s.connections.length := by
  have hsub : s.live ⊆ s.connections := fun c hc => hs.known c (List.mem_filter.mp hc).1
  exact (List.subperm_of_subset (hs.nodup.filter _) hsub).length_le

theorem query_relieved (hflat : Flat s.desks) {r u : Bool} {clients : List ClientId}
    (hcalls : s.calls = .forEach r u (c :: clients) :: calls) :
    Relieved 1 s (queryClient r u c { s with calls := .forEach r u clients :: calls }).1 := by
  cases hc : s.handlers c with
  | none =>
    rw [queryClient_none (s := { s with calls := .forEach r u clients :: calls }) hc]
    refine .of_calls rfl ?_
    rw [hcalls]
    simp only [callsWeight_cons, callWeight, List.length_cons]
    omega
  | some h =>
    cases hp : h.pendingIncomingPacketData with
    | none =>
      have hawaits : (modifyHandler c awaitPacket { s with calls := .forEach r u clients :: calls }).handlers c =
          some (awaitPacket h) :=
        modifyHandler_handlers (s := { s with calls := .forEach r u clients :: calls }) hc awaitPacket
      have hdesks := (triggerNextDataPacket_desks hawaits).1
      rw [queryClient_empty (s := { s with calls := .forEach r u clients :: calls }) hc hp]
      refine .of_calls (congrArg Desks.connections hdesks) ?_
      have hreleased := congrArg Desks.calls hdesks
      change (triggerNextDataPacket c _).1.calls = (if (desk (awaitPacket h)).stalled then
        .receiving c :: .forEach r u clients :: calls else .forEach r u clients :: calls) at hreleased
      rw [hreleased, hcalls]
      split_ifs <;> simp only [callsWeight_cons, callWeight, List.length_cons] <;> omega
    | some p =>
      rw [queryClient_pending (s := { s with calls := .forEach r u clients :: calls }) hc hp]
      split_ifs with hwanted
      · have hsilent := hflat.submitted (p := p) hcalls hwanted
        have hdesks := deliverPayloadToHDLC_desks c p
          (pushCall (.pendingDelivery c) { s with calls := .forEach r u clients :: calls }).1
        refine .of_calls (congrArg Desks.connections hdesks) ?_
        have hpushed := congrArg Desks.calls hdesks
        change _ = asks (queries (handle (submit p) s.protocolState).2) ++
          .pendingDelivery c :: .forEach r u clients :: calls at hpushed
        rw [show queries (handle (submit p) s.protocolState).2 = [] from hsilent] at hpushed
        change (((pushCall (.pendingDelivery c)).andThen (deliverPayloadToHDLC c p))
          { s with calls := .forEach r u clients :: calls }).1.calls = _ at hpushed
        rw [hpushed, hcalls]
        simp only [asks, List.map_nil, List.reverse_nil, List.nil_append, callsWeight_cons, callWeight,
          List.length_cons]
        omega
      · refine .of_calls rfl ?_
        rw [hcalls]
        simp only [callsWeight_cons, callWeight, List.length_cons]
        omega

theorem chunk_relieved (hs : Enrolled s) {offset bytes : Nat}
    (hcalls : s.calls = .addReceivedRawBytes offset (bytes + 1) :: calls) :
    Relieved 1 s (addChunk offset (bytes + 1) { s with calls := calls }).1 := by
  have hne : s.readBytes offset (bytes + 1) ≠ [] := readBytes_ne_nil s offset bytes
  have hconsumed := (FrameParser.addChunk_consumed s.protocolState.frameParser hne).1
  have hleft : bytes + 1 - (s.protocolState.frameParser.addChunk (s.readBytes offset (bytes + 1))).2.2 + 1 ≤
      bytes + 1 := by
    omega
  have hfewer := Nat.mul_le_mul_left (3 * s.connections.length + 3) hleft
  rw [Nat.mul_add, Nat.mul_one] at hfewer
  rw [addChunk_eq]
  rcases addChunk_calls s.protocolState.frameParser (s.readBytes offset (bytes + 1)) with hnone | ⟨x, hone⟩
  · rw [hnone]
    refine .of_calls rfl ?_
    show callsWeight s.connections.length (.addReceivedRawBytes _ _ :: calls) + 1 ≤ _
    rw [hcalls]
    simp only [callsWeight_cons, callWeight]
    omega
  · have hmem : x ∈ (s.protocolState.frameParser.addChunk (s.readBytes offset (bytes + 1))).2.1 := by
      rw [hone]
      exact List.mem_singleton_self x
    have hps : Consistent (parsed offset (bytes + 1) calls s).protocolState := hs.consistent.congr rfl
    have hdesks := callProtocolState_desks (.frame x.payload x.messageInvalid) (parsed offset (bytes + 1) calls s)
    have hasked := callsWeight_asks hps (.frame x.payload x.messageInvalid) s.connections.length
    rw [hone, run_singleton, interpret, addChunk_call hmem]
    refine .of_calls (congrArg Desks.connections hdesks) ?_
    have hpushed := congrArg Desks.calls hdesks
    change (callProtocolState (handle (.frame x.payload x.messageInvalid)) _).1.calls = asks _ ++
      .addReceivedRawBytes _ _ :: calls at hpushed
    change callsWeight _ (asks (queries (handle (.frame x.payload x.messageInvalid)
      (parsed offset (bytes + 1) calls s).desks.protocolState).2)) ≤ _ at hasked
    change callsWeight _ (callProtocolState (handle (.frame x.payload x.messageInvalid)) _).1.calls + 1 ≤ _
    rw [hpushed, hcalls, callsWeight_append]
    simp only [callsWeight_cons, callWeight]
    omega

theorem pendingDelivered_relieved (hcalls : s.calls = .pendingDelivery c :: calls) :
    Relieved 1 s (triggerNextDataPacket c (clearPending c { s with calls := calls }).1).1 := by
  cases hc : s.handlers c with
  | none =>
    have hnone : (clearPending c { s with calls := calls }).1.handlers c = none := by
      unfold clearPending update modifyHandler
      dsimp only
      rw [if_pos rfl, hc]
      rfl
    unfold triggerNextDataPacket
    rw [hnone]
    refine .of_calls rfl ?_
    show callsWeight s.connections.length calls + 1 ≤ _
    rw [hcalls]
    simp only [callsWeight_cons, callWeight]
    omega
  | some h =>
    have hdropped : (clearPending c { s with calls := calls }).1.handlers c = some (dropPacket h) :=
      modifyHandler_handlers (s := { s with calls := calls }) hc dropPacket
    have hdesks := (triggerNextDataPacket_desks hdropped).1
    refine .of_calls (congrArg Desks.connections hdesks) ?_
    have hreleased := congrArg Desks.calls hdesks
    change (triggerNextDataPacket c _).1.calls = (if (desk (dropPacket h)).stalled then
      .receiving c :: calls else calls) at hreleased
    rw [hreleased, hcalls]
    split_ifs <;> simp only [callsWeight_cons, callWeight] <;> omega

theorem Relieved.returned {x : Call} (hcalls : s.calls = x :: calls) (hconnections : t.connections = s.connections)
    (htcalls : t.calls = calls) : Relieved 1 s t := by
  refine .of_calls hconnections ?_
  have hone : 1 ≤ callWeight s.connections.length x := by
    cases x <;> simp [callWeight]
  rw [htcalls, hcalls, callsWeight_cons]
  omega

theorem proceed_relieved (hs : Enrolled s) (hflat : Flat s.desks) (hgoes : s.goesOn .proceed = true) :
    Relieved 1 s (proceed s).1 := by
  unfold proceed
  unfold goesOn at hgoes
  cases hcalls : s.calls with
  | nil =>
    rw [hcalls] at hgoes
    exact absurd hgoes Bool.false_ne_true
  | cons x calls =>
    rw [hcalls] at hgoes
    cases x with
    | queryForPayload r u =>
      have hserved := rebuildSubscriptions_served { s with calls := calls }
      refine .of_calls (congrArg (·.2.2.2.2.1) hserved.same) ?_
      have hlive := hs.live_length
      show callsWeight s.connections.length (.forEach r u s.live :: calls) + 1 ≤ _
      rw [hcalls]
      simp only [callsWeight_cons, callWeight]
      omega
    | forEach r u clients =>
      cases clients with
      | nil => exact .returned hcalls rfl rfl
      | cons c clients => exact query_relieved hflat hcalls
    | pendingDelivery c => exact pendingDelivered_relieved hcalls
    | packetDelivery c => exact .returned hcalls rfl rfl
    | receiving c => exact absurd hgoes Bool.false_ne_true
    | addReceivedRawBytes offset bytes =>
      cases bytes with
      | zero => exact .returned hcalls rfl rfl
      | succ bytes => exact chunk_relieved hs hcalls
    | readHandler opening =>
      refine .returned hcalls ?_ ?_
      · show (branch (·.serialPortLock.getSerialPortState) skip doRead { s with calls := calls }).1.connections = _
        unfold branch
        split_ifs <;> rfl
      · show (branch (·.serialPortLock.getSerialPortState) skip doRead { s with calls := calls }).1.calls = _
        unfold branch
        split_ifs <;> rfl

theorem refused_relieved (hflat : Flat s.desks) {h : HdlcdServerHandler} (hc : s.handlers c = some h)
    (hcalls : s.calls = .receiving c :: calls) (p : PacketData) : Relieved 1 s (onDataReceived c h p s).1 := by
  have hawaits : h.serialPortHandlerAwaitsPacket = false :=
    hflat.receiving c calls hcalls (desk h) (desk_of_handler hc)
  have hstalled : (onDataReceived c h p s).1 = (stall c (modifyHandler c (keepPacket p) s)).1 := by
    unfold onDataReceived
    rw [if_neg (Bool.eq_false_iff.mp hawaits)]
    split_ifs <;> rfl
  rw [hstalled]
  refine .returned hcalls rfl ?_
  show (if s.calls.head? = some (.receiving c) then s.calls.tail else s.calls) = calls
  rw [hcalls, List.head?_cons, if_pos rfl, List.tail_cons]

theorem receive_relieved (hs : Enrolled s) (hflat : Flat s.desks) (hbusy : s.calls ≠ []) (c : ClientId)
    (packet : Packet) (opens : OpenResult) :
    Relieved (if s.goesOn (.receive c packet opens) then 1 else 0) s (receive c packet opens s).1 := by
  have hnothing : Relieved 0 s s := .of_paused (.refl hs.consistent)
  unfold receive
  cases hc : s.handlers c with
  | none =>
    have hstays : s.goesOn (.receive c packet opens) = false := by
      cases packet <;> simp [goesOn, hc]
    rw [hstays]
    exact hnothing
  | some h =>
    dsimp only
    by_cases hreceives : s.receives c h = true
    · rw [if_pos hreceives]
      have hreceiving := hreceives
      unfold receives at hreceiving
      rw [Bool.and_eq_true, Bool.or_eq_true, List.isEmpty_iff, beq_iff_eq] at hreceiving
      obtain ⟨calls, hcalls⟩ := List.head?_eq_some_iff.mp (hreceiving.2.resolve_left hbusy)
      cases packet with
      | data p =>
        have hgoes : s.goesOn (.receive c (.data p) opens) = true := by
          simp only [goesOn, hcalls, List.head?_cons, beq_self_eq_true, hc, Option.any_some, hreceiving.1,
            Bool.and_self]
        rw [hgoes]
        exact refused_relieved hflat hc hcalls p
      | _ => exact .of_paused (Paused.onCtrlReceived c h opens _ s ([] : List Output) (.refl hs.consistent))
    · rw [if_neg hreceives]
      have hstays : s.goesOn (.receive c packet opens) = false := by
        cases packet with
        | data p =>
          refine Bool.eq_false_of_not_eq_true fun hgoes => hreceives ?_
          simp only [goesOn, Bool.and_eq_true, hc, Option.any_some] at hgoes
          unfold receives
          rw [hgoes.2, hgoes.1, Bool.or_true, Bool.and_self]
        | _ => rfl
      rw [hstays]
      exact hnothing

theorem endReceiving_relieved (hs : Enrolled s) (c : ClientId) :
    Relieved (if s.goesOn (.endReceiving c) then 1 else 0) s (endReceiving c s).1 := by
  unfold endReceiving branch
  show Relieved (if s.calls.head? == some (.receiving c) then 1 else 0) s _
  split_ifs with hhead
  · obtain ⟨calls, hcalls⟩ := List.head?_eq_some_iff.mp (beq_iff_eq.mp hhead)
    refine .returned hcalls rfl ?_
    show s.calls.tail = calls
    rw [hcalls, List.tail_cons]
  · exact .of_paused (.refl hs.consistent)

theorem waits_of_goesOn (hbusy : s.calls ≠ []) (hgoes : s.goesOn .proceed = false) :
    ∃ c calls, s.calls = .receiving c :: calls := by
  unfold goesOn at hgoes
  cases hcalls : s.calls with
  | nil => exact absurd hcalls hbusy
  | cons x calls =>
    rw [hcalls] at hgoes
    cases x with
    | receiving c => exact ⟨c, calls, rfl⟩
    | _ => exact absurd hgoes.symm Bool.false_ne_true

theorem step_relieved (hs : Enrolled s) (hflat : Flat s.desks) (hbusy : s.calls ≠ []) (e : Event) :
    Relieved (if s.goesOn e then 1 else 0) s (step e s).1 := by
  have hpaused (h : Paused s.calls s.connections (step e s).1) (hstays : s.goesOn e = false) :
      Relieved (if s.goesOn e then 1 else 0) s (step e s).1 := by
    rw [hstays]
    exact .of_paused h
  have hnothing (h : step e s = (s, [])) : Paused s.calls s.connections (step e s).1 := by
    rw [h]
    exact .refl hs.consistent
  have hnonempty : s.calls.isEmpty = false := List.isEmpty_eq_false_iff.mpr hbusy
  have hidle (a : Act) : whenIdle a s = (s, []) :=
    if_neg fun hempty => hbusy (List.isEmpty_iff.mp hempty)
  cases e with
  | attach c sap opens =>
    refine hpaused (hnothing ?_) rfl
    show attach c sap opens s = (s, [])
    unfold attach
    rw [hnonempty, Bool.and_false, Bool.false_and]
    split <;> rfl
  | disconnect c opens =>
    refine hpaused (hnothing ?_) rfl
    show disconnect c opens s = (s, [])
    unfold disconnect
    rw [hnonempty]
    split <;> rfl
  | receive c packet opens => exact receive_relieved hs hflat hbusy c packet opens
  | endReceiving c => exact endReceiving_relieved hs c
  | proceed =>
    cases hgoes : s.goesOn .proceed with
    | true => exact proceed_relieved hs hflat hgoes
    | false =>
      obtain ⟨c, calls, hcalls⟩ := waits_of_goesOn hbusy hgoes
      have hwaits : step .proceed s = (s, []) := by
        have hback : ({ s with calls := .receiving c :: calls } : Port) = s := by rw [← hcalls]
        show proceed s = (s, [])
        unfold proceed
        rw [hcalls]
        exact Prod.ext hback rfl
      have hrelieved := hpaused (hnothing hwaits) hgoes
      rwa [hgoes] at hrelieved
  | timer e => exact hpaused (hnothing (hidle _)) rfl
  | readCompletes i completion =>
    refine hpaused ?_ rfl
    have hfilled := Paused.update s.calls s.connections (f := fillReadBuffer completion.bytes) fun _ => rfl
    have hcompleted : Maintains (Always (Paused s.calls s.connections)) (readCompletes i completion) :=
      (hfilled.branch .skip).andThen (Paused.update _ _ fun _ => rfl)
    exact (hcompleted.ite (p := completion.valid = true) .skip) s ([] : List Output) (.refl hs.consistent)
  | readHandler i => exact hpaused (hnothing (hidle _)) rfl
  | writeCompletes i result =>
    refine hpaused ?_ rfl
    show Paused _ _ (branch _ (update _) skip s).1
    unfold branch
    split_ifs <;> exact ⟨hs.consistent, rfl, rfl⟩
  | writeHandler i => exact hpaused (hnothing (hidle _)) rfl

/-- How often a call goes on. -/
def progress : Port → List Event → Nat
  | _, [] => 0
  | s, e :: es => (if s.goesOn e then 1 else 0) + progress (step e s).1 es

theorem progress_le (es later : List Event)
    (hbusy : Along step (fun s _ => s.calls ≠ []) (run step es initial).1 later) :
    progress (run step es initial).1 later + (run step later (run step es initial).1).1.weight ≤
      (run step es initial).1.weight := by
  induction later generalizing es with
  | nil => exact Nat.le_of_eq (Nat.zero_add _)
  | cons e later ih =>
    obtain ⟨hfirst, hrest⟩ := hbusy
    obtain ⟨o, hlocked⟩ := Reached.locked ⟨es, rfl⟩
    have hrelieved := (step_relieved hlocked.enrolled (run_flat es) hfirst e).weight
    have hnext : (run step (es ++ [e]) initial).1 = (step e (run step es initial).1).1 := by
      rw [run_append, run_singleton]
      rfl
    have hlater := ih (es ++ [e]) (hnext ▸ hrest)
    rw [hnext] at hlater
    show (if (run step es initial).1.goesOn e then 1 else 0) + progress (step e (run step es initial).1).1 later +
      (run step later (step e (run step es initial).1).1).1.weight ≤ _
    omega

theorem goesOn_busy {e : Event} (hgoes : s.goesOn e = true) : s.calls ≠ [] := by
  intro hidle
  cases e with
  | proceed =>
    unfold goesOn at hgoes
    rw [hidle] at hgoes
    exact Bool.false_ne_true hgoes
  | endReceiving c =>
    simp only [goesOn, hidle, List.head?_nil] at hgoes
    exact absurd hgoes Bool.false_ne_true
  | receive c packet opens =>
    cases packet with
    | data p =>
      simp only [goesOn, hidle, List.head?_nil, Bool.and_eq_true] at hgoes
      exact absurd hgoes.1 Bool.false_ne_true
    | _ => exact absurd hgoes Bool.false_ne_true
  | _ => exact absurd hgoes Bool.false_ne_true

theorem someone_goesOn (hbusy : s.calls ≠ []) :
    ∃ e, (e = .proceed ∨ ∃ c, e = .endReceiving c) ∧ s.goesOn e = true := by
  by_cases hgoes : s.goesOn .proceed = true
  · exact ⟨.proceed, .inl rfl, hgoes⟩
  · obtain ⟨c, calls, hcalls⟩ := waits_of_goesOn hbusy (Bool.eq_false_of_not_eq_true hgoes)
    exact ⟨.endReceiving c, .inr ⟨c, rfl⟩, by rw [goesOn, hcalls]; exact beq_self_eq_true _⟩

theorem Reached.returns (hs : Reached s) : CanReach Port.step
    (fun s e => s.goesOn e = true ∧ (e = .proceed ∨ ∃ c, e = .endReceiving c)) (fun s => s.calls = []) s := by
  refine .of_measure (I := Reached) weight (fun s hs hbusy => ?_) hs
  obtain ⟨e, he, hgoes⟩ := someone_goesOn hbusy
  obtain ⟨es, rfl⟩ := hs
  obtain ⟨o, hlocked⟩ := Reached.locked ⟨es, rfl⟩
  have hrelieved := (step_relieved hlocked.enrolled (run_flat es) hbusy e).weight
  rw [if_pos hgoes] at hrelieved
  exact .step ⟨hgoes, he⟩ (.here ⟨Reached.step ⟨es, rfl⟩ e, hrelieved⟩)

theorem progress_of_goesOn {later : List Event} (hgoes : Along step (fun s e => s.goesOn e = true) s later) :
    progress s later = later.length := by
  induction later generalizing s with
  | nil => rfl
  | cons e later ih =>
    obtain ⟨hfirst, hrest⟩ := hgoes
    rw [progress, if_pos hfirst, ih hrest, List.length_cons, Nat.add_comm]

/-- Whatever happens while calls are under way, they go on for as many steps at most as `weight`
says, for the bytes, the clients and the queries that are left. And they can return in as many
steps, wherever they are. -/
theorem calls_return (es : List Event) :
    (∀ later, Along step (fun s _ => s.calls ≠ []) (run step es initial).1 later →
      progress (run step es initial).1 later ≤ (run step es initial).1.weight) ∧
    ∃ later, Along step (fun s e => s.goesOn e = true ∧ (e = .proceed ∨ ∃ c, e = .endReceiving c))
        (run step es initial).1 later ∧
      later.length ≤ (run step es initial).1.weight ∧ (run step later (run step es initial).1).1.calls = [] := by
  have hbound (later : List Event) (hlater : Along step (fun s _ => s.calls ≠ []) (run step es initial).1 later) :
      progress (run step es initial).1 later ≤ (run step es initial).1.weight :=
    (Nat.le_add_right _ _).trans (progress_le es later hlater)
  obtain ⟨later, hgoes, hreturned⟩ := Reached.returns (s := (run step es initial).1) ⟨es, rfl⟩
  refine ⟨hbound, later, hgoes, ?_, hreturned⟩
  have hlength := hbound later (Along.mono step (fun _ _ h => goesOn_busy h.1) hgoes)
  rwa [progress_of_goesOn (Along.mono step (fun _ _ h => h.1) hgoes)] at hlength

end
end Hdlcd.Port
