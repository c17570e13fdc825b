import Hdlcd.Port.Readiness

/-! How deep the calls back and forth between a serial port handler and its clients are
nested: a packet that is passed on while the clients are queried causes no further query. -/

namespace Hdlcd.Desks
open Reactive ProtocolState
open Port (Output)

/-- What may be below a round of queries. -/
inductive Base : List Call → Prop
  | idle : Base []
  | reading (opening : Nat) : Base [.readHandler opening]
  | parsing (offset bytes opening : Nat) : Base [.addReceivedRawBytes offset bytes, .readHandler opening]
  | packet (c : ClientId) : Base [.packetDelivery c]

/-- At most one round of queries is running, and it is with at most one client. -/
inductive Shallow : List Call → Prop
  | base {below : List Call} (h : Base below) : Shallow below
  | query (r u : Bool) {below : List Call} (h : Base below) : Shallow (.queryForPayload r u :: below)
  | loop (r u : Bool) (clients : List ClientId) {below : List Call} (h : Base below) :
    Shallow (.forEach r u clients :: below)
  | delivery (c : ClientId) (r u : Bool) (clients : List ClientId) {below : List Call} (h : Base below) :
    Shallow (.pendingDelivery c :: .forEach r u clients :: below)
  | receiving (c : ClientId) (r u : Bool) (clients : List ClientId) {below : List Call} (h : Base below) :
    Shallow (.receiving c :: .forEach r u clients :: below)

def AsksReliable : Call → Prop
  | .queryForPayload r _ | .forEach r _ _ => r = true
  | _ => False

structure Flat (v : Desks) : Prop where
  orderly : ∃ past, Orderly v past
  shallow : Shallow v.calls
  -- the client has no packet at hand that could be passed on at once
  receiving : ∀ c calls, v.calls = .receiving c :: calls → ∀ d, v.desk c = some d → d.awaitsPacket = false
  flowing : ∀ x ∈ v.calls, AsksReliable x → v.protocolState.peerStoppedFlow = false

section
variable {v w : Desks} {o : List Output} {calls : List Call} {c : ClientId} {d : Desk}
  {p : PacketData} {r u : Bool} {clients : List ClientId}

theorem Base.length_le (h : Base calls) : calls.length ≤ 2 := by
  cases h <;> simp

theorem Shallow.length_le (h : Shallow calls) : calls.length ≤ 4 := by
  cases h with
  | base h => exact h.length_le.trans (by decide)
  | query r u h | loop r u clients h =>
    have hbelow := h.length_le
    rw [List.length_cons]
    omega
  | delivery c r u clients h | receiving c r u clients h =>
    have hbelow := h.length_le
    rw [List.length_cons, List.length_cons]
    omega

theorem Base.quiet (h : Base calls) : ∀ x ∈ calls, ¬ AsksReliable x := by
  cases h <;> simp [AsksReliable]

theorem Base.not_receiving (h : Base calls) (c : ClientId) : calls.head? ≠ some (.receiving c) := by
  cases h <;> simp

theorem Shallow.base_of_parsing {offset bytes : Nat} (h : Shallow (.addReceivedRawBytes offset bytes :: calls)) :
    Base (.addReceivedRawBytes offset bytes :: calls) := by
  cases h with
  | base h => exact h

theorem Shallow.below_forEach (h : Shallow (.forEach r u clients :: calls)) :
    Base calls := by
  cases h with
  | base h => nomatch h
  | loop _ _ _ h => exact h

theorem Shallow.below_query (h : Shallow (.queryForPayload r u :: calls)) : Base calls := by
  cases h with
  | base h => nomatch h
  | query _ _ h => exact h

theorem Shallow.below_delivery (h : Shallow (.pendingDelivery c :: calls)) :
    ∃ r u clients below, calls = .forEach r u clients :: below ∧ Base below := by
  cases h with
  | base h => nomatch h
  | delivery _ r u clients h => exact ⟨r, u, clients, _, rfl, h⟩

theorem Shallow.tail {x : Call} (h : Shallow (x :: calls)) : Shallow calls := by
  cases h with
  | base h =>
    cases h with
    | reading | packet => exact .base .idle
    | parsing offset bytes opening => exact .base (.reading opening)
  | query _ _ h | loop _ _ _ h => exact .base h
  | delivery _ r u clients h | receiving _ r u clients h => exact .loop r u clients h

theorem Shallow.tail_not_receiving {x : Call} (h : Shallow (x :: calls)) (c : ClientId) :
    calls.head? ≠ some (.receiving c) := by
  cases h with
  | base h => cases h <;> simp
  | query _ _ h | loop _ _ _ h => exact h.not_receiving c
  | delivery | receiving => simp

theorem flow_kept {ps : ProtocolState} (hs : Consistent ps) {e : LocalEvent}
    (he : (e = .start ∨ e = .stop ∨ e = .shutdown) ∨ ∃ p : PacketData, e = .sendPayload p.data p.reliable)
    (hflow : ps.peerStoppedFlow = false) : (handle (.internal e) ps).1.peerStoppedFlow = false := by
  have hprepared : (prepare (.internal e) ps).state.peerStoppedFlow = false := by
    show (prepareLocal e ps).state.peerStoppedFlow = false
    rcases he with (rfl | rfl | rfl) | ⟨p, rfl⟩
    · rfl
    · rw [prepareLocal]
      split_ifs
      · rfl
      · exact hflow
    · rw [prepareLocal]
      split_ifs
      · rfl
      · exact hflow
    · show (ps.enqueue p.data p.reliable).peerStoppedFlow = false
      unfold enqueue
      split_ifs <;> exact hflow
  cases handle_concluded hs (.internal e) with
  | opportunity xs hopen hends ho => exact (congrArg (·.2.2.2.2) hends.1.same).trans hprepared
  | quiet hquiet ht ho => rw [ht, hprepared]

theorem submit_silent {ps : ProtocolState} (hs : Consistent ps) (p : PacketData)
    (hflow : p.reliable = true → ps.peerStoppedFlow = false) : queries (handle (submit p) ps).2 = [] := by
  by_contra hquery
  obtain ⟨hreliable, hqueued⟩ := sendPayload_asked hs p.data p.reliable hquery
  have hkept := flow_kept hs (.inr ⟨p, rfl⟩) (hflow hreliable)
  cases handle_asked hs (submit p) with
  | nothing hqs => exact hquery hqs
  | payload _ _ hcause _ =>
    rcases hcause with hempty | hstopped
    · exact hqueued hempty
    · exact Bool.false_ne_true (hkept.symm.trans hstopped)

namespace Flat

theorem consistent (h : Flat v) : Consistent v.protocolState := by
  obtain ⟨past, hpast⟩ := h.orderly
  exact hpast.consistent

theorem orderly_turn (h : Flat v) (hturn : Turn v w o) : ∃ past, Orderly w past := by
  obtain ⟨past, hpast⟩ := h.orderly
  exact ⟨_, hpast.turn hturn⟩

theorem orderly_visit (h : Flat v) (hvisit : Visit v w o) : ∃ past, Orderly w past := by
  obtain ⟨past, hpast⟩ := h.orderly
  exact ⟨_, hpast.visit hvisit⟩

theorem of_settled (horderly : ∃ past, Orderly w past) (hshallow : Shallow w.calls)
    (hcalls : ∀ c, w.calls.head? ≠ some (.receiving c))
    (hflowing : ∀ x ∈ w.calls, AsksReliable x → w.protocolState.peerStoppedFlow = false) : Flat w :=
  ⟨horderly, hshallow, fun c calls hreceive => absurd (by rw [hreceive]; rfl) (hcalls c), hflowing⟩

theorem of_call (h : Consistent v.protocolState) {e : Hdlcd.Event} (horderly : ∃ past, Orderly (v.call e) past)
    (hbase : Base v.calls) : Flat (v.call e) := by
  cases handle_asked h e with
  | nothing hqs =>
    have hcalls : (v.call e).calls = v.calls := by
      unfold call
      rw [hqs]
      rfl
    refine of_settled horderly (hcalls ▸ .base hbase) (fun c => ?_) fun x hx hasks => ?_
    · rw [hcalls]
      exact hbase.not_receiving c
    · rw [hcalls] at hx
      exact absurd hasks (hbase.quiet x hx)
  | payload _ _ _ hqs =>
    have hcalls : (v.call e).calls = .queryForPayload
        ((handle e v.protocolState).1.waitQueueReliable.isEmpty &&
          !(handle e v.protocolState).1.peerStoppedFlow) true :: v.calls := by
      unfold call
      rw [hqs]
      rfl
    refine of_settled horderly (hcalls ▸ .query _ _ hbase) (fun c => by rw [hcalls]; simp) fun x hx hasks => ?_
    rw [hcalls] at hx
    rcases List.mem_cons.mp hx with rfl | hx
    · have hboth := Bool.and_eq_true_iff.mp hasks
      exact (Bool.not_eq_true' _).mp hboth.2
    · exact absurd hasks (hbase.quiet x hx)

theorem submitted (h : Flat v) (hcalls : v.calls = .forEach r u (c :: clients) :: calls)
    (hwanted : wanted r u p = true) : queries (handle (submit p) v.protocolState).2 = [] := by
  refine submit_silent h.consistent p fun hreliable => ?_
  have hr : r = true := by
    unfold wanted at hwanted
    rw [hreliable] at hwanted
    simpa using hwanted
  exact h.flowing (.forEach r u (c :: clients)) (by rw [hcalls]; exact List.mem_cons_self) hr

theorem deliver (h : Flat v) (hcalls : v.calls = .forEach r u (c :: clients) :: calls)
    (hd : v.desk c = some d) (hp : d.pending = some p) (hwanted : wanted r u p = true) :
    Flat (call (submit p) { v with calls := .pendingDelivery c :: .forEach r u clients :: calls }) := by
  have horderly := h.orderly_visit (.deliver r u c clients calls d p hcalls hd hp hwanted)
  have hbelow := (hcalls ▸ h.shallow : Shallow (.forEach r u (c :: clients) :: calls)).below_forEach
  have hsilent := h.submitted hcalls hwanted
  have hkept : (call (submit p) { v with calls := .pendingDelivery c :: .forEach r u clients :: calls }).calls =
      .pendingDelivery c :: .forEach r u clients :: calls := by
    unfold call
    rw [hsilent]
    rfl
  refine of_settled horderly (by rw [hkept]; exact .delivery c r u clients hbelow)
    (fun c => by rw [hkept]; simp) fun x hx hasks => ?_
  rw [hkept] at hx
  refine flow_kept h.consistent (.inr ⟨p, rfl⟩) ?_
  rcases List.mem_cons.mp hx with rfl | hx
  · exact hasks.elim
  · rcases List.mem_cons.mp hx with rfl | hx
    · exact h.flowing (.forEach r u (c :: clients)) (by rw [hcalls]; exact List.mem_cons_self) hasks
    · exact h.flowing x (by rw [hcalls]; exact List.mem_cons_of_mem _ hx) hasks

theorem accept (h : Flat v) (hd : v.desk c = some d) (hreceives : v.Receives c d)
    (hawaits : d.awaitsPacket = true) :
    Flat (call (submit p) { v.seat c { d with awaitsPacket := false, pending := some p } with
      calls := .packetDelivery c :: v.calls }) := by
  have hidle : v.calls = [] := by
    refine hreceives.2.resolve_right fun hhead => ?_
    obtain ⟨calls, hcalls⟩ := List.head?_eq_some_iff.mp hhead
    have hrefused := h.receiving c calls hcalls d hd
    exact Bool.false_ne_true (hrefused.symm.trans hawaits)
  have hbase : Base (.packetDelivery c :: v.calls) := hidle ▸ .packet c
  obtain ⟨past, hpast⟩ := h.orderly
  exact of_call (v := { v.seat c { d with awaitsPacket := false, pending := some p } with
    calls := .packetDelivery c :: v.calls }) h.consistent
    ⟨_, hpast.accept hd hreceives⟩ hbase

theorem of_fewer (h : Flat v) (horderly : ∃ past, Orderly w past) (hshallow : Shallow w.calls)
    (hcalls : ∀ c, w.calls.head? ≠ some (.receiving c))
    (hflow : w.protocolState.peerStoppedFlow = v.protocolState.peerStoppedFlow)
    (hasks : ∀ x ∈ w.calls, AsksReliable x → ∃ y ∈ v.calls, AsksReliable y) : Flat w := by
  refine of_settled horderly hshallow hcalls fun x hx hreliable => ?_
  obtain ⟨y, hy, hreliable⟩ := hasks x hx hreliable
  exact hflow.trans (h.flowing y hy hreliable)

theorem returned (h : Flat v) {x : Call} (hcalls : v.calls = x :: calls) (horderly : ∃ past, Orderly w past)
    (hwcalls : w.calls = calls) (hflow : w.protocolState.peerStoppedFlow = v.protocolState.peerStoppedFlow) :
    Flat w := by
  have hshallow : Shallow (x :: calls) := hcalls ▸ h.shallow
  refine h.of_fewer horderly (hwcalls ▸ hshallow.tail) (hwcalls ▸ hshallow.tail_not_receiving) hflow
    fun y hy hasks => ⟨y, ?_, hasks⟩
  rw [hcalls]
  exact List.mem_cons_of_mem x (hwcalls ▸ hy)

theorem stall (h : Flat v) (hd : v.desk c = some d) (hreceives : v.Receives c d)
    (hawaits : d.awaitsPacket = false) :
    Flat { v.seat c { d with pending := some p, stalled := true } with
      calls := if v.calls.head? = some (.receiving c) then v.calls.tail else v.calls } := by
  have horderly := h.orderly_turn (.stall c d p hd hreceives hawaits)
  rcases hreceives.2 with hidle | hhead
  · have hnone : (if v.calls.head? = some (.receiving c) then v.calls.tail else v.calls) = [] := by
      rw [hidle]
      rfl
    exact of_settled horderly (by rw [hnone]; exact .base .idle) (fun c => by rw [hnone]; simp)
      fun x hx => absurd hx (by rw [hnone]; exact List.not_mem_nil)
  · obtain ⟨calls, hcalls⟩ := List.head?_eq_some_iff.mp hhead
    refine h.returned hcalls horderly ?_ rfl
    dsimp only
    rw [if_pos hhead, hcalls, List.tail_cons]

theorem visited (h : Flat v) (hcalls : v.calls = .forEach r u (c :: clients) :: calls)
    (horderly : ∃ past, Orderly w past) (hwcalls : w.calls = .forEach r u clients :: calls)
    (hflow : w.protocolState.peerStoppedFlow = v.protocolState.peerStoppedFlow) : Flat w := by
  have hbelow := (hcalls ▸ h.shallow : Shallow (.forEach r u (c :: clients) :: calls)).below_forEach
  refine h.of_fewer horderly (hwcalls ▸ .loop r u clients hbelow) (fun c => by rw [hwcalls]; simp) hflow
    fun x hx hasks => ⟨.forEach r u (c :: clients), by rw [hcalls]; exact List.mem_cons_self, ?_⟩
  rw [hwcalls] at hx
  rcases List.mem_cons.mp hx with rfl | hx
  · exact hasks
  · exact absurd hasks (hbelow.quiet x hx)

theorem query (h : Flat v) (hcalls : v.calls = .forEach r u (c :: clients) :: calls)
    (hd : v.desk c = some d) (hp : d.pending = none) :
    Flat (release c { d with awaitsPacket := true } { v with calls := .forEach r u clients :: calls }) := by
  have hstalled : d.stalled = false := by
    obtain ⟨past, hpast⟩ := h.orderly
    exact ((hpast.phase c d hd).of_empty hp).1
  refine h.visited hcalls (h.orderly_visit (.query r u c clients calls d hcalls hd hp)) ?_ rfl
  unfold release
  rw [if_neg (by simp [hstalled])]

theorem pendingDelivered (h : Flat v) (hcalls : v.calls = .pendingDelivery c :: calls)
    (hd : v.desk c = some d) : Flat (release c { d with pending := none } { v with calls := calls }) := by
  obtain ⟨past, hpast⟩ := h.orderly
  have horderly := h.orderly_turn (.pendingDelivered c calls d hcalls hd)
  have hphase : d.stalled = true ∧ d.awaitsPacket = false := by
    have hown : .pendingDelivery c ∈ v.calls := by
      rw [hcalls]
      exact List.mem_cons_self ..
    cases hpast.phase c d hd with
    | empty _ _ hc | waiting _ _ _ _ hc => exact absurd (mem_deliveries.mpr (.inl hown)) hc
    | passing _ _ _ _ _ hother => exact absurd hown hother
    | pendingPassing _ _ hs ha => exact ⟨hs, ha⟩
  have hreleased : release c { d with pending := none } { v with calls := calls } =
      { v.seat c { d with pending := none, stalled := false } with calls := .receiving c :: calls } := by
    unfold release
    rw [if_pos hphase.1]
    rfl
  rw [hreleased] at horderly ⊢
  obtain ⟨r, u, clients, below, rfl, hbelow⟩ :=
    (hcalls ▸ h.shallow : Shallow (.pendingDelivery c :: calls)).below_delivery
  refine ⟨horderly, .receiving c r u clients hbelow, fun x calls' hreceive e he => ?_, fun x hx hasks => ?_⟩
  · obtain ⟨hx, -⟩ := List.cons.inj hreceive
    have hself : (if x = c then some { d with pending := none, stalled := false } else v.desk x) = some e := he
    rw [if_pos (Call.receiving.inj hx).symm] at hself
    rw [← Option.some.inj hself]
    exact hphase.2
  · rcases List.mem_cons.mp hx with rfl | hx
    · exact hasks.elim
    · exact h.flowing x (by rw [hcalls]; exact List.mem_cons_of_mem _ hx) hasks

theorem orphaned (h : Flat v) (hcalls : v.calls = .packetDelivery c :: calls ∨ v.calls = .pendingDelivery c :: calls)
    (hd : v.desk c = none) : Flat { v with calls := calls } := by
  have horderly := h.orderly_turn (.orphaned c calls hcalls hd)
  rcases hcalls with hcalls | hcalls
  · exact h.returned hcalls horderly rfl rfl
  · exact h.returned hcalls horderly rfl rfl

theorem moved (h : Flat v) (f : FrameParser) (hmoved : Moved v.calls calls) :
    Flat { v with protocolState := { v.protocolState with frameParser := f }, calls := calls } := by
  have horderly := h.orderly_turn (.moved f calls hmoved)
  have hbased (hbase : Base calls) :
      Flat { v with protocolState := { v.protocolState with frameParser := f }, calls := calls } :=
    of_settled horderly (.base hbase) hbase.not_receiving fun x hx hasks => absurd hasks (hbase.quiet x hx)
  generalize hold : v.calls = old at hmoved
  cases hmoved with
  | readHandler opening => exact hbased (.reading opening)
  | bytes opening offset bytes => exact hbased (.parsing offset bytes opening)
  | chunk offset bytes offset' bytes' rest =>
    have hbase := (hold ▸ h.shallow : Shallow (.addReceivedRawBytes offset bytes :: rest)).base_of_parsing
    cases hbase with
    | parsing _ _ opening => exact hbased (.parsing offset' bytes' opening)
  | returned x rest hx => exact h.returned hold horderly rfl rfl

theorem event (h : Flat v) {e : Hdlcd.Event}
    (he : ∀ payload reliable, e ≠ .internal (.sendPayload payload reliable))
    (hbase : v.calls = [] ∨ ∃ offset bytes calls, v.calls = .addReceivedRawBytes offset bytes :: calls) :
    Flat (v.call e) := by
  refine of_call h.consistent (h.orderly_turn (.event e he hbase)) ?_
  rcases hbase with hidle | ⟨offset, bytes, calls, hcalls⟩
  · rw [hidle]
    exact .idle
  · rw [hcalls]
    exact (hcalls ▸ h.shallow : Shallow (.addReceivedRawBytes offset bytes :: calls)).base_of_parsing

theorem leave (h : Flat v) (gone : ClientId → Bool) :
    Flat { v with desk := fun c => if gone c then none else v.desk c } := by
  refine ⟨h.orderly_turn (.leave gone), h.shallow, fun c calls hcalls d hd => ?_, h.flowing⟩
  have hstays : (if gone c then none else v.desk c) = some d := hd
  split_ifs at hstays
  exact h.receiving c calls hcalls d hstays

theorem control (h : Flat v) {e : LocalEvent} (he : e = .start ∨ e = .stop ∨ e = .shutdown) :
    Flat { v with protocolState := (handleLocal e v.protocolState).1 } :=
  ⟨h.orderly_turn (.control e he), h.shallow, h.receiving,
    fun x hx hasks => flow_kept h.consistent (.inl he) (h.flowing x hx hasks)⟩

theorem attach (h : Flat v) (hidle : v.calls = []) (hnew : c ∉ v.connections) :
    Flat { v.seat c {} with connections := v.connections ++ [c] } := by
  have hcalls : ({ v.seat c {} with connections := v.connections ++ [c] } : Desks).calls = [] := hidle
  exact of_settled (h.orderly_turn (.attach c hidle hnew)) (hcalls ▸ .base .idle)
    (fun c => by rw [hcalls]; simp) fun x hx => absurd hx (by rw [hcalls]; exact List.not_mem_nil)

theorem turn (h : Flat v) (hturn : Turn v w o) : Flat w := by
  cases hturn with
  | control e he => exact h.control he
  | leave gone => exact h.leave gone
  | attach c hidle hnew => exact h.attach hidle hnew
  | event e he hbase => exact h.event he hbase
  | moved f calls hmoved => exact h.moved f hmoved
  | stall c d p hd hreceives hawaits => exact h.stall hd hreceives hawaits
  | orphaned c calls hcalls hd => exact h.orphaned hcalls hd
  | delivered c calls d hcalls hd =>
    exact h.returned hcalls (h.orderly_turn (.delivered c calls d hcalls hd)) rfl rfl
  | pendingDelivered c calls d hcalls hd => exact h.pendingDelivered hcalls hd

theorem acceptance (h : Flat v) (haccept : Acceptance c p v w o) : Flat w := by
  cases haccept with
  | accept d hd hreceives hawaits => exact h.accept hd hreceives hawaits

theorem visit (h : Flat v) (hvisit : Visit v w o) : Flat w := by
  cases hvisit with
  | pass r u c clients calls hcalls hd =>
    exact h.visited hcalls (h.orderly_visit (.pass r u c clients calls hcalls hd)) rfl rfl
  | deliver r u c clients calls d p hcalls hd hp hwanted => exact h.deliver hcalls hd hp hwanted
  | query r u c clients calls d hcalls hd hp => exact h.query hcalls hd hp

theorem round (h : Flat v) (hround : Round v w) : Flat w := by
  obtain ⟨past, hpast⟩ := h.orderly
  have horderly : ∃ past, Orderly w past := ⟨past, hpast.round hround⟩
  cases hround with
  | begin r u clients calls hcalls hclients hnodup =>
    have hbelow := (hcalls ▸ h.shallow : Shallow (.queryForPayload r u :: calls)).below_query
    refine h.of_fewer horderly (.loop r u clients hbelow) (fun c => by simp) rfl
      fun x hx hasks => ⟨.queryForPayload r u, by rw [hcalls]; exact List.mem_cons_self, ?_⟩
    rcases List.mem_cons.mp hx with rfl | hx
    · exact hasks
    · exact absurd hasks (hbelow.quiet x hx)

theorem initial : Flat Port.initial.desks where
  orderly := ⟨[], .initial⟩
  shallow := .base .idle
  receiving _ _ hcalls := absurd hcalls (List.cons_ne_nil _ _).symm
  flowing _ hx := absurd hx List.not_mem_nil

end Flat
end
end Hdlcd.Desks

namespace Hdlcd.Port
open Reactive Desks

theorem run_flat (es : List Event) : Flat (run step es initial).1.desks :=
  (run_keeps (I := fun v _ => Flat v) (fun _ _ _ _ hturn h => h.turn hturn)
    (fun _ _ _ _ _ _ haccept h => h.acceptance haccept) (fun _ _ _ _ hvisit h => h.visit hvisit)
    (fun _ _ _ hround h => h.round hround) .initial es).2

/-- However many clients there are, and whatever they and the device do, never more than four calls
back and forth between the serial port handler and its clients are nested. -/
theorem calls_shallow (es : List Event) : (run step es initial).1.calls.length ≤ 4 := (run_flat es).shallow.length_le

/-- The peer acknowledges a packet of the client, whose next one is then passed on. -/
example : (run step (.attach 0 0x00 .opened ::
    ([.readCompletes 0 (.success [0x7E, 0x30, 0x03, 0x01, 0x83, 0x7B, 0x7E]), .readHandler 0] ++
      List.replicate 4 .proceed ++ [.writeCompletes 0 (.success 6), .writeHandler 0] ++
      List.replicate 3 .proceed ++ [.receive 0 (.data ⟨[0x41], true⟩) .opened, .proceed,
        .receive 0 (.data ⟨[0x42], false⟩) .opened, .writeCompletes 0 (.success 7), .writeHandler 0,
        .readCompletes 0 (.success [0x7E, 0x30, 0x21, 0x6E, 0x89, 0x7E]), .readHandler 0] ++
      List.replicate 4 .proceed)) initial).1.calls.length = 4 := by decide +kernel

end Hdlcd.Port
