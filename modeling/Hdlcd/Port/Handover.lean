import Hdlcd.Port.Refinement

/-! Every data packet of a client is passed to `SendPayload` once and in order. While a
packet is passed on, the clients may be queried again, but only for packets of the other
kind. -/

namespace Hdlcd.Desks
open Reactive ProtocolState
open Port (Output)

def deliveries (calls : List Call) : List ClientId :=
  calls.filterMap fun
    | .pendingDelivery c | .packetDelivery c => some c
    | _ => none

def Beneath : Call → List Call → Prop
  | .queryForPayload r _, calls | .forEach r _ _, calls => r = true → deliveries calls = []
  | .pendingDelivery c, calls | .packetDelivery c, calls | .receiving c, calls => c ∉ deliveries calls
  | .addReceivedRawBytes .., calls => ∃ opening, calls = [.readHandler opening]
  | .readHandler _, calls => calls = []

def Nested : List Call → Prop
  | [] => True
  | x :: calls => Beneath x calls ∧ Nested calls

/-- What a client is doing with its packet. -/
inductive Phase (calls : List Call) (c : ClientId) (d : Desk) : Prop
  | empty (hpending : d.pending = none) (hstalled : d.stalled = false)
    (hcalls : c ∉ deliveries calls)
  | waiting (p : PacketData) (hpending : d.pending = some p) (hstalled : d.stalled = true)
    (hawaits : d.awaitsPacket = false) (hcalls : c ∉ deliveries calls)
  | passing (p : PacketData) (hpending : d.pending = some p) (hstalled : d.stalled = false)
    (hawaits : d.awaitsPacket = false) (hcalls : .packetDelivery c ∈ calls)
    (hother : .pendingDelivery c ∉ calls)
  | pendingPassing (p : PacketData) (hpending : d.pending = some p) (hstalled : d.stalled = true)
    (hawaits : d.awaitsPacket = false) (hcalls : .pendingDelivery c ∈ calls)
    (hother : .packetDelivery c ∉ calls)

/-- The packets of the client that were passed to `SendPayload`. -/
def passed (c : ClientId) (o : List Output) : List PacketData :=
  o.filterMap fun
    | .sendPayload d p => if d = c then some p else none
    | _ => none

/-- The packets that `OnDataReceived` of the client was given. -/
def given (c : ClientId) (o : List Output) : List PacketData :=
  o.filterMap fun
    | .onDataReceived d p => if d = c then some p else none
    | _ => none

def unpassed (v : Desks) (c : ClientId) (d : Desk) : List PacketData :=
  if c ∈ deliveries v.calls then [] else d.pending.toList

structure Orderly (v : Desks) (past : List Output) : Prop where
  consistent : Consistent v.protocolState
  nested : Nested v.calls
  phase : ∀ c d, v.desk c = some d → Phase v.calls c d
  -- only the innermost delivery may be one of an unreliable packet
  reliable : ∀ c ∈ deliveries v.calls.tail, ∀ d p, v.desk c = some d → d.pending = some p →
    p.reliable = true
  accounts : ∀ c d, v.desk c = some d → passed c past ++ v.unpassed c d = given c past
  ordered : ∀ c, passed c past <+: given c past
  fresh : ∀ c ∉ v.connections, v.desk c = none ∧ passed c past = [] ∧ given c past = []
  unfaulted : .fault .pendingPacket ∉ past

section
variable {v w : Desks} {o past : List Output} {calls : List Call} {c x : ClientId} {d : Desk}
  {p : PacketData} {r u : Bool}

theorem deliveries_append (calls calls' : List Call) :
    deliveries (calls ++ calls') = deliveries calls ++ deliveries calls' := List.filterMap_append

theorem mem_deliveries :
    c ∈ deliveries calls ↔ .pendingDelivery c ∈ calls ∨ .packetDelivery c ∈ calls := by
  unfold deliveries
  rw [List.mem_filterMap]
  constructor
  · rintro ⟨x, hx, heq⟩
    cases x <;> simp only [Option.some.injEq, reduceCtorEq] at heq
    · exact .inl (heq ▸ hx)
    · exact .inr (heq ▸ hx)
  · rintro (h | h)
    · exact ⟨_, h, rfl⟩
    · exact ⟨_, h, rfl⟩

theorem deliveries_tail_subset (h : c ∈ deliveries calls.tail) : c ∈ deliveries calls :=
  ((List.tail_sublist calls).filterMap _).subset h

theorem deliveries_asks (qs : List (Bool × Bool)) : deliveries (asks qs) = [] := by
  refine List.filterMap_eq_nil_iff.mpr fun x hx => ?_
  obtain ⟨q, _, rfl⟩ := List.mem_map.mp (List.mem_reverse.mp hx)
  rfl

theorem not_mem_asks (qs : List (Bool × Bool)) (c : ClientId) :
    .packetDelivery c ∉ asks qs ∧ .pendingDelivery c ∉ asks qs := by
  constructor <;>
  · intro h
    obtain ⟨q, _, hq⟩ := List.mem_map.mp (List.mem_reverse.mp h)
    exact Call.noConfusion hq

theorem Nested.asks {t : ProtocolState} {qs : List (Bool × Bool)} (h : Nested calls) (ha : Asked t qs)
    (hbase : deliveries calls = [] ∨ t.waitQueueReliable ≠ []) : Nested (asks qs ++ calls) := by
  cases ha with
  | nothing hqs =>
    rw [hqs]
    exact h
  | payload _ _ _ hqs =>
    rw [hqs]
    refine ⟨fun hr => hbase.elim id fun hqueue => ?_, h⟩
    rw [Bool.and_eq_true, List.isEmpty_iff] at hr
    exact absurd hr.1 hqueue

theorem Phase.congr {calls' : List Call} (h : Phase calls c d)
    (hpacket : .packetDelivery c ∈ calls' ↔ .packetDelivery c ∈ calls)
    (hpending : .pendingDelivery c ∈ calls' ↔ .pendingDelivery c ∈ calls) : Phase calls' c d := by
  have hmem : c ∈ deliveries calls' ↔ c ∈ deliveries calls := by
    rw [mem_deliveries, mem_deliveries, hpacket, hpending]
  cases h with
  | empty hp hs hc => exact .empty hp hs fun h => hc (hmem.mp h)
  | waiting p hp hs ha hc => exact .waiting p hp hs ha fun h => hc (hmem.mp h)
  | passing p hp hs ha hc ho => exact .passing p hp hs ha (hpacket.mpr hc) fun h => ho (hpending.mp h)
  | pendingPassing p hp hs ha hc ho =>
    exact .pendingPassing p hp hs ha (hpending.mpr hc) fun h => ho (hpacket.mp h)

theorem Phase.asks (qs : List (Bool × Bool)) (h : Phase calls c d) : Phase (asks qs ++ calls) c d := by
  obtain ⟨hpacket, hpending⟩ := not_mem_asks qs c
  refine h.congr ?_ ?_
  · rw [List.mem_append, or_iff_right hpacket]
  · rw [List.mem_append, or_iff_right hpending]

theorem Phase.of_empty (h : Phase calls c d) (hp : d.pending = none) :
    d.stalled = false ∧ c ∉ deliveries calls := by
  cases h with
  | empty _ hs hc => exact ⟨hs, hc⟩
  | waiting p hp' | passing p hp' | pendingPassing p hp' =>
    rw [hp] at hp'
    exact absurd hp' (Option.some_ne_none p).symm

theorem Phase.of_awaits (h : Phase calls c d) (ha : d.awaitsPacket = true) : d.pending = none := by
  cases h with
  | empty hp => exact hp
  | waiting p _ _ ha' | passing p _ _ ha' | pendingPassing p _ _ ha' =>
    rw [ha] at ha'
    exact Bool.noConfusion ha'

theorem Phase.of_pending (h : Phase calls c d) (hp : d.pending = some p) (hc : c ∉ deliveries calls) :
    d.stalled = true ∧ d.awaitsPacket = false := by
  cases h with
  | empty hp' =>
    rw [hp] at hp'
    exact absurd hp' (Option.some_ne_none p)
  | waiting _ _ hs ha => exact ⟨hs, ha⟩
  | passing _ _ _ _ hmem => exact absurd (mem_deliveries.mpr (.inr hmem)) hc
  | pendingPassing _ _ _ _ hmem => exact absurd (mem_deliveries.mpr (.inl hmem)) hc

theorem passed_append (c : ClientId) (o o' : List Output) : passed c (o ++ o') = passed c o ++ passed c o' :=
  List.filterMap_append

theorem given_append (c : ClientId) (o o' : List Output) : given c (o ++ o') = given c o ++ given c o' :=
  List.filterMap_append

def SameDeliveries (c : ClientId) (calls calls' : List Call) : Prop :=
  (.packetDelivery c ∈ calls' ↔ .packetDelivery c ∈ calls) ∧
    (.pendingDelivery c ∈ calls' ↔ .pendingDelivery c ∈ calls)

theorem SameDeliveries.mem {calls' : List Call} (h : SameDeliveries c calls calls') :
    c ∈ deliveries calls' ↔ c ∈ deliveries calls := by
  rw [mem_deliveries, mem_deliveries, h.1, h.2]

theorem SameDeliveries.refl (c : ClientId) (calls : List Call) : SameDeliveries c calls calls :=
  ⟨Iff.rfl, Iff.rfl⟩

theorem SameDeliveries.trans {calls' calls'' : List Call} (h : SameDeliveries c calls calls')
    (h' : SameDeliveries c calls' calls'') : SameDeliveries c calls calls'' :=
  ⟨h'.1.trans h.1, h'.2.trans h.2⟩

theorem SameDeliveries.cons {x : Call} (hpacket : x ≠ .packetDelivery c) (hpending : x ≠ .pendingDelivery c)
    (calls : List Call) : SameDeliveries c calls (x :: calls) := by
  constructor
  · rw [List.mem_cons, or_iff_right hpacket.symm]
  · rw [List.mem_cons, or_iff_right hpending.symm]

theorem SameDeliveries.symm {calls' : List Call} (h : SameDeliveries c calls calls') :
    SameDeliveries c calls' calls := ⟨h.1.symm, h.2.symm⟩

theorem SameDeliveries.asks (c : ClientId) (qs : List (Bool × Bool)) (calls : List Call) :
    SameDeliveries c calls (asks qs ++ calls) := by
  obtain ⟨hpacket, hpending⟩ := not_mem_asks qs c
  constructor
  · rw [List.mem_append, or_iff_right hpacket]
  · rw [List.mem_append, or_iff_right hpending]

namespace Orderly

theorem recalled (h : Orderly v past) {ps : ProtocolState} (hps : Consistent ps) {calls : List Call}
    (hnested : Nested calls) (hsame : ∀ c, (v.desk c).isSome → SameDeliveries c v.calls calls)
    (htail : ∀ c ∈ deliveries calls.tail, (v.desk c).isSome → c ∈ deliveries v.calls.tail) :
    Orderly { v with protocolState := ps, calls := calls } past where
  consistent := hps
  nested := hnested
  phase c d hd := by
    have hc := hsame c (Option.isSome_of_eq_some hd)
    exact (h.phase c d hd).congr hc.1 hc.2
  reliable c hc d p hd hp := h.reliable c (htail c hc (Option.isSome_of_eq_some hd)) d p hd hp
  accounts c d hd := by
    have hmem := (hsame c (Option.isSome_of_eq_some hd)).mem
    have haccounts := h.accounts c d hd
    unfold unpassed at haccounts ⊢
    dsimp only at haccounts ⊢
    simp only [hmem]
    exact haccounts
  ordered := h.ordered
  fresh := h.fresh
  unfaulted := h.unfaulted

theorem change (h : Orderly v past) {e : Desk} (hd : (v.desk c).isSome) (hps : Consistent w.protocolState)
    (hconnections : w.connections = v.connections) (hnested : Nested w.calls)
    (hdesk : w.desk = (v.seat c e).desk) (hphase : Phase w.calls c e)
    (haccounts : passed c (past ++ o) ++ w.unpassed c e = given c (past ++ o))
    (hsame : ∀ x ≠ c, SameDeliveries x v.calls w.calls)
    (htail : ∀ x ∈ deliveries w.calls.tail, if x = c then ∀ p, e.pending = some p → p.reliable = true
      else x ∈ deliveries v.calls.tail)
    (hquiet : ∀ x ≠ c, passed x o = [] ∧ given x o = []) (hfault : .fault .pendingPacket ∉ o) :
    Orderly w (past ++ o) := by
  have hself : w.desk c = some e := by
    rw [hdesk]
    exact if_pos rfl
  have hother {x : ClientId} (hx : x ≠ c) : w.desk x = v.desk x := by
    rw [hdesk]
    exact if_neg hx
  have hpast {x : ClientId} (hx : x ≠ c) : passed x (past ++ o) = passed x past ∧
      given x (past ++ o) = given x past := by
    rw [passed_append, given_append, (hquiet x hx).1, (hquiet x hx).2, List.append_nil, List.append_nil]
    exact ⟨rfl, rfl⟩
  constructor
  · exact hps
  · exact hnested
  · intro x d hx
    by_cases hxc : x = c
    · subst hxc
      rw [hself] at hx
      cases hx
      exact hphase
    · rw [hother hxc] at hx
      exact (h.phase x d hx).congr (hsame x hxc).1 (hsame x hxc).2
  · intro x hx d p hdx hp
    have hcases := htail x hx
    split_ifs at hcases with hxc
    · subst hxc
      rw [hself] at hdx
      cases hdx
      exact hcases p hp
    · rw [hother hxc] at hdx
      exact h.reliable x hcases d p hdx hp
  · intro x d hx
    by_cases hxc : x = c
    · subst hxc
      rw [hself] at hx
      cases hx
      exact haccounts
    · rw [hother hxc] at hx
      have hold := h.accounts x d hx
      rw [(hpast hxc).1, (hpast hxc).2]
      unfold unpassed at hold ⊢
      simp only [(hsame x hxc).mem]
      exact hold
  · intro x
    by_cases hxc : x = c
    · subst hxc
      rw [← haccounts]
      exact List.prefix_append _ _
    · rw [(hpast hxc).1, (hpast hxc).2]
      exact h.ordered x
  · intro x hx
    rw [hconnections] at hx
    have hxc : x ≠ c := by
      rintro rfl
      rw [(h.fresh x hx).1] at hd
      exact Bool.noConfusion hd
    rw [hother hxc, (hpast hxc).1, (hpast hxc).2]
    exact h.fresh x hx
  · intro hmem
    exact (List.mem_append.mp hmem).elim h.unfaulted hfault

theorem nested_tail (h : Orderly v past) {x : Call} (hcalls : v.calls = x :: calls) :
    Beneath x calls ∧ Nested calls := by
  have hnested := h.nested
  rwa [hcalls] at hnested

theorem control (h : Orderly v past) (e : LocalEvent) :
    Orderly { v with protocolState := (handleLocal e v.protocolState).1 } past :=
  h.recalled (h.consistent.handle (.internal e)) h.nested (fun c _ => .refl c _) fun _ hc _ => hc

theorem leave (h : Orderly v past) (gone : ClientId → Bool) :
    Orderly { v with desk := fun c => if gone c then none else v.desk c } past := by
  have hstay {c : ClientId} {d : Desk} (hd : (if gone c then none else v.desk c) = some d) :
      v.desk c = some d := by
    split_ifs at hd
    exact hd
  refine ⟨h.consistent, h.nested, fun c d hd => h.phase c d (hstay hd), ?_,
    fun c d hd => h.accounts c d (hstay hd), h.ordered, fun c hc => ⟨?_, (h.fresh c hc).2⟩, h.unfaulted⟩
  · exact fun c hc d p hd hp => h.reliable c hc d p (hstay hd) hp
  · dsimp only
    split_ifs
    · rfl
    · exact (h.fresh c hc).1

theorem attach (h : Orderly v past) (hidle : v.calls = []) (hnew : c ∉ v.connections) :
    Orderly { v.seat c {} with connections := v.connections ++ [c] } past := by
  have hnone (x : ClientId) : x ∉ deliveries v.calls := by
    rw [hidle]
    exact List.not_mem_nil
  have hcases {x : ClientId} {d : Desk} (hd : (v.seat c {}).desk x = some d) :
      x = c ∧ d = {} ∨ x ≠ c ∧ v.desk x = some d := by
    unfold seat at hd
    dsimp only at hd
    split_ifs at hd with hx
    · exact .inl ⟨hx, (Option.some.inj hd).symm⟩
    · exact .inr ⟨hx, hd⟩
  refine ⟨h.consistent, h.nested, fun x d hd => ?_, ?_, fun x d hd => ?_, h.ordered, fun x hx => ?_,
    h.unfaulted⟩
  · rcases hcases hd with ⟨rfl, rfl⟩ | ⟨_, hold⟩
    · exact .empty rfl rfl (hnone x)
    · exact h.phase x d hold
  · intro x hx
    exact absurd (deliveries_tail_subset hx) (hnone x)
  · rcases hcases hd with ⟨rfl, rfl⟩ | ⟨_, hold⟩
    · obtain ⟨_, hpassed, hgiven⟩ := h.fresh x hnew
      rw [hpassed, hgiven]
      exact if_neg (hnone x)
    · exact h.accounts x d hold
  · have hold : x ∉ v.connections := fun hmem => hx (List.mem_append_left _ hmem)
    have hxc : x ≠ c := by
      rintro rfl
      exact hx (List.mem_append_right _ (List.mem_singleton_self x))
    refine ⟨?_, (h.fresh x hold).2⟩
    exact (if_neg hxc).trans (h.fresh x hold).1

theorem event (h : Orderly v past) (e : Hdlcd.Event)
    (hbase : v.calls = [] ∨ ∃ offset bytes calls, v.calls = .addReceivedRawBytes offset bytes :: calls) :
    Orderly (v.call e) past := by
  have hnone : deliveries v.calls = [] := by
    rcases hbase with hidle | ⟨offset, bytes, calls, hcalls⟩
    · rw [hidle]
      rfl
    · obtain ⟨opening, hbelow⟩ := (h.nested_tail hcalls).1
      rw [hcalls, hbelow]
      rfl
  refine h.recalled (h.consistent.handle e) (h.nested.asks (handle_asked h.consistent e) (.inl hnone))
    (fun c _ => .asks c _ _) fun c hc _ => ?_
  have hmem := deliveries_tail_subset hc
  rw [deliveries_append, deliveries_asks, hnone] at hmem
  exact absurd hmem List.not_mem_nil

theorem moved (h : Orderly v past) (p : FrameParser) (hmoved : Moved v.calls calls) :
    Orderly { v with protocolState := { v.protocolState with frameParser := p }, calls := calls } past := by
  have hps : Consistent { v.protocolState with frameParser := p } := h.consistent.congr rfl
  have hnested := h.nested
  generalize hcalls : v.calls = old at hmoved hnested
  cases hmoved with
  | readHandler opening =>
    refine h.recalled hps ⟨rfl, trivial⟩ (fun c _ => ?_) fun c hc _ => absurd hc List.not_mem_nil
    rw [hcalls]
    exact .cons (by simp) (by simp) []
  | bytes opening offset bytes =>
    refine h.recalled hps ⟨⟨opening, rfl⟩, hnested⟩ (fun c _ => ?_) fun c hc _ => absurd hc List.not_mem_nil
    rw [hcalls]
    exact .cons (by simp) (by simp) _
  | chunk offset bytes offset' bytes' rest =>
    refine h.recalled hps hnested (fun c _ => ?_) fun c hc _ => ?_
    · rw [hcalls]
      exact (SameDeliveries.cons (by simp) (by simp) rest).symm.trans (.cons (by simp) (by simp) rest)
    · rw [hcalls]
      exact hc
  | returned x rest hx =>
    refine h.recalled hps hnested.2 (fun c _ => ?_) fun c hc _ => ?_
    · rw [hcalls]
      exact (SameDeliveries.cons (by cases hx <;> simp) (by cases hx <;> simp) _).symm
    · rw [hcalls]
      exact deliveries_tail_subset hc

theorem forEach (h : Orderly v past) {x : Call} {clients : List ClientId} (hcalls : v.calls = x :: calls)
    (hx : ∀ calls, Beneath x calls → r = true → deliveries calls = [])
    (hother : ∀ c, x ≠ .packetDelivery c ∧ x ≠ .pendingDelivery c) :
    Orderly { v with calls := .forEach r u clients :: calls } past := by
  obtain ⟨hbelow, hnested⟩ := h.nested_tail hcalls
  refine h.recalled h.consistent ⟨hx calls hbelow, hnested⟩ (fun c _ => ?_) fun c hc _ => ?_
  · rw [hcalls]
    exact (SameDeliveries.cons (hother c).1 (hother c).2 calls).symm.trans (.cons (by simp) (by simp) calls)
  · rw [hcalls]
    exact hc

theorem orphaned (h : Orderly v past) (hcalls : v.calls = .packetDelivery c :: calls ∨
    v.calls = .pendingDelivery c :: calls) (hd : v.desk c = none) :
    Orderly { v with calls := calls } past := by
  have hne {x : ClientId} (hx : (v.desk x).isSome) : x ≠ c := by
    rintro rfl
    rw [hd] at hx
    exact Bool.noConfusion hx
  have hpop (y : Call) (hcalls : v.calls = y :: calls)
      (hy : ∀ x ≠ c, y ≠ .packetDelivery x ∧ y ≠ .pendingDelivery x) :
      Orderly { v with calls := calls } past := by
    refine h.recalled h.consistent (h.nested_tail hcalls).2 (fun x hx => ?_) fun x hx _ => ?_
    · rw [hcalls]
      exact (SameDeliveries.cons (hy x (hne hx)).1 (hy x (hne hx)).2 calls).symm
    · rw [hcalls]
      exact deliveries_tail_subset hx
  rcases hcalls with hcalls | hcalls
  · exact hpop _ hcalls fun x hx => ⟨by simpa using hx.symm, by simp⟩
  · exact hpop _ hcalls fun x hx => ⟨by simp, by simpa using hx.symm⟩

theorem submit_tail {ps : ProtocolState} (hps : Consistent ps) (p : PacketData) {y : Call}
    (hy : deliveries [y] = [c]) {x : ClientId}
    (hx : x ∈ deliveries (asks (queries (handle (submit p) ps).2) ++ y :: calls).tail) :
    x = c ∧ p.reliable = true ∨ x ∈ deliveries calls := by
  by_cases hquiet : queries (handle (submit p) ps).2 = []
  · rw [hquiet] at hx
    exact .inr hx
  · have hreliable := (sendPayload_asked hps p.data p.reliable hquiet).1
    have hmem := deliveries_tail_subset hx
    rw [deliveries_append, deliveries_asks, List.nil_append, ← List.singleton_append, deliveries_append,
      hy, List.singleton_append, List.mem_cons] at hmem
    exact hmem.imp_left fun hxc => ⟨hxc, hreliable⟩

theorem submit_nested {ps : ProtocolState} (hps : Consistent ps) (p : PacketData)
    (hnested : Nested calls) :
    Nested (asks (queries (handle (submit p) ps).2) ++ calls) := by
  by_cases hquiet : queries (handle (submit p) ps).2 = []
  · rw [hquiet]
    exact hnested
  · have hqueue := (sendPayload_asked hps p.data p.reliable hquiet).2
    exact hnested.asks (handle_asked hps _) (.inr hqueue)

theorem receives_tail (hcalls : v.Receives c d) {x : ClientId} (hx : x ∈ deliveries v.calls) :
    x ∈ deliveries v.calls.tail := by
  rcases hcalls.2 with hidle | hhead
  · rw [hidle] at hx
    exact absurd hx List.not_mem_nil
  · obtain ⟨calls, hcalls⟩ := List.head?_eq_some_iff.mp hhead
    rw [hcalls] at hx ⊢
    exact hx

theorem receives_empty (h : Orderly v past) (hd : v.desk c = some d) (hreceives : v.Receives c d) :
    d.pending = none ∧ c ∉ deliveries v.calls := by
  have hfree : c ∉ deliveries v.calls := by
    rcases hreceives.2 with hidle | hhead
    · rw [hidle]
      exact List.not_mem_nil
    · obtain ⟨calls, hcalls⟩ := List.head?_eq_some_iff.mp hhead
      rw [hcalls]
      exact (h.nested_tail hcalls).1
  refine ⟨?_, hfree⟩
  cases hp : d.pending with
  | none => rfl
  | some p =>
    have hstalled := ((h.phase c d hd).of_pending hp hfree).1
    rw [hreceives.1] at hstalled
    exact Bool.noConfusion hstalled

theorem unpassed_nil (hc : c ∈ deliveries v.calls) (d : Desk) : v.unpassed c d = [] := if_pos hc

theorem unpassed_pending (hc : c ∉ deliveries v.calls) (d : Desk) : v.unpassed c d = d.pending.toList :=
  if_neg hc

theorem accept (h : Orderly v past) (hd : v.desk c = some d) (hreceives : v.Receives c d) :
    Orderly
      (call (submit p)
        { v.seat c { d with awaitsPacket := false, pending := some p } with
          calls := .packetDelivery c :: v.calls })
      (past ++ .onDataReceived c p :: ((if d.pending.isSome then [.fault .pendingPacket] else []) ++
        [.sendPayload c p])) := by
  obtain ⟨hempty, hfree⟩ := h.receives_empty hd hreceives
  have haccounts := h.accounts c d hd
  rw [unpassed_pending hfree, hempty, Option.toList_none, List.append_nil] at haccounts
  rw [hempty]
  have hself : c ∈ deliveries (asks (queries (handle (submit p) v.protocolState).2) ++
      .packetDelivery c :: v.calls) := by
    rw [mem_deliveries]
    exact .inr (List.mem_append_right _ (List.mem_cons_self ..))
  refine h.change (e := { d with awaitsPacket := false, pending := some p }) (Option.isSome_of_eq_some hd)
    (h.consistent.handle _) rfl (submit_nested h.consistent p ⟨hfree, h.nested⟩) rfl ?_ ?_
    (fun x hx => ?_) (fun x hx => ?_) (fun x hx => ?_) (by simp)
  · refine Phase.asks _ (.passing p rfl hreceives.1 rfl (List.mem_cons_self ..) ?_)
    rw [List.mem_cons]
    rintro (heq | hmem)
    · exact Call.noConfusion heq
    · exact hfree (mem_deliveries.mpr (.inl hmem))
  · rw [unpassed_nil hself, List.append_nil, passed_append, given_append, haccounts]
    simp [passed, given]
  · exact (SameDeliveries.cons (by simpa using hx.symm) (by simp) v.calls).trans (.asks x _ _)
  · rcases submit_tail h.consistent p rfl hx with ⟨hxc, hreliable⟩ | hold
    · rw [if_pos hxc]
      intro p' hp'
      cases hp'
      exact hreliable
    · have hxc : x ≠ c := by
        rintro rfl
        exact hfree hold
      rw [if_neg hxc]
      exact receives_tail hreceives hold
  · simp [passed, given, hx.symm]

theorem stall (h : Orderly v past) (hd : v.desk c = some d) (hreceives : v.Receives c d)
    (hawaits : d.awaitsPacket = false) :
    Orderly
      { v.seat c { d with pending := some p, stalled := true } with
        calls := if v.calls.head? = some (.receiving c) then v.calls.tail else v.calls }
      (past ++ .onDataReceived c p :: if d.pending.isSome then [.fault .pendingPacket] else []) := by
  obtain ⟨hempty, hfree⟩ := h.receives_empty hd hreceives
  have haccounts := h.accounts c d hd
  rw [unpassed_pending hfree, hempty, Option.toList_none, List.append_nil] at haccounts
  rw [hempty]
  -- the endpoint stops receiving
  have hcalls : ∀ calls, calls = (if v.calls.head? = some (.receiving c) then v.calls.tail else v.calls) →
      Nested calls ∧ (∀ x, SameDeliveries x v.calls calls) ∧
        ∀ x ∈ deliveries calls.tail, x ∈ deliveries v.calls.tail := by
    rintro calls rfl
    split_ifs with hhead
    · obtain ⟨calls, hcalls⟩ := List.head?_eq_some_iff.mp hhead
      rw [hcalls]
      exact ⟨(h.nested_tail hcalls).2, fun x => (SameDeliveries.cons (by simp) (by simp) calls).symm,
        fun x hx => deliveries_tail_subset hx⟩
    · exact ⟨h.nested, fun x => .refl x _, fun x hx => hx⟩
  obtain ⟨hnested, hsame, htail⟩ := hcalls _ rfl
  have hstays : c ∉ deliveries (if v.calls.head? = some (.receiving c) then v.calls.tail else v.calls) :=
    fun hmem => hfree ((hsame c).mem.mp hmem)
  refine h.change (e := { d with pending := some p, stalled := true }) (Option.isSome_of_eq_some hd)
    h.consistent rfl hnested rfl (.waiting p rfl rfl hawaits hstays) ?_ (fun x _ => hsame x)
    (fun x hx => ?_) (fun x hx => ?_) (by simp)
  · rw [unpassed_pending hstays, passed_append, given_append, ← haccounts]
    simp [passed, given]
  · have hxc : x ≠ c := by
      rintro rfl
      exact hfree (deliveries_tail_subset (htail x hx))
    rw [if_neg hxc]
    exact htail x hx
  · simp [passed, given, hx.symm]

theorem not_delivering (h : Orderly v past) {clients : List ClientId}
    (hcalls : v.calls = .forEach r u (c :: clients) :: calls) (hd : v.desk c = some d)
    (hp : d.pending = some p) (hwanted : wanted r u p = true) : c ∉ deliveries calls := by
  obtain ⟨hbelow, _⟩ := h.nested_tail hcalls
  intro hmem
  have hreliable := h.reliable c (by rw [hcalls]; exact hmem) d p hd hp
  have hr : r = false := by
    refine Bool.eq_false_of_not_eq_true fun hr => ?_
    rw [hbelow hr] at hmem
    exact absurd hmem List.not_mem_nil
  rw [wanted, hr, hreliable] at hwanted
  simp at hwanted

theorem deliver (h : Orderly v past) {clients : List ClientId}
    (hcalls : v.calls = .forEach r u (c :: clients) :: calls) (hd : v.desk c = some d)
    (hp : d.pending = some p) (hwanted : wanted r u p = true) :
    Orderly (call (submit p) { v with calls := .pendingDelivery c :: .forEach r u clients :: calls })
      (past ++ [.sendPayload c p]) := by
  obtain ⟨hbelow, hnested⟩ := h.nested_tail hcalls
  have hvcalls : deliveries v.calls = deliveries calls := by
    rw [hcalls]
    rfl
  have hfree := h.not_delivering hcalls hd hp hwanted
  rw [← hvcalls] at hfree
  obtain ⟨hstalled, hawaits⟩ := (h.phase c d hd).of_pending hp hfree
  have haccounts := h.accounts c d hd
  rw [unpassed_pending hfree, hp, Option.toList_some] at haccounts
  have hself : c ∈ deliveries (asks (queries (handle (submit p) v.protocolState).2) ++
      .pendingDelivery c :: .forEach r u clients :: calls) := by
    rw [mem_deliveries]
    exact .inl (List.mem_append_right _ (List.mem_cons_self ..))
  have hround : Nested (.pendingDelivery c :: .forEach r u clients :: calls) := by
    rw [hvcalls] at hfree
    exact ⟨hfree, hbelow, hnested⟩
  refine h.change (e := d) (Option.isSome_of_eq_some hd) (h.consistent.handle _) rfl
    (submit_nested h.consistent p hround) ?_ ?_ ?_ (fun x hx => ?_) (fun x hx => ?_) (fun x hx => ?_) (by simp)
  · funext x
    show v.desk x = if x = c then some d else v.desk x
    split_ifs with hx
    · rw [hx, hd]
    · rfl
  · refine Phase.asks _ (.pendingPassing p hp hstalled hawaits (List.mem_cons_self ..) ?_)
    rw [List.mem_cons, List.mem_cons]
    rintro (heq | heq | hmem)
    · exact Call.noConfusion heq
    · exact Call.noConfusion heq
    · rw [hvcalls] at hfree
      exact hfree (mem_deliveries.mpr (.inr hmem))
  · rw [unpassed_nil hself, List.append_nil, passed_append, given_append]
    have hnone : given c [Output.sendPayload c p] = [] := rfl
    rw [hnone, List.append_nil, ← haccounts]
    simp [passed]
  · rw [hcalls]
    exact ((SameDeliveries.cons (by simp) (by simp) calls).symm.trans
      (.cons (by simp) (by simp) calls)).trans
        ((SameDeliveries.cons (by simp) (by simpa using hx.symm) _).trans (.asks x _ _))
  · have htail : v.calls.tail = calls := by rw [hcalls, List.tail_cons]
    rw [htail]
    rcases submit_tail h.consistent p rfl hx with ⟨hxc, hreliable⟩ | hold
    · rw [if_pos hxc]
      intro p' hp'
      rw [hp] at hp'
      cases hp'
      exact hreliable
    · have hxc : x ≠ c := by
        rintro rfl
        rw [hvcalls] at hfree
        exact hfree hold
      rw [if_neg hxc]
      exact hold
  · simp [passed, given, hx.symm]

theorem query (h : Orderly v past) {clients : List ClientId}
    (hcalls : v.calls = .forEach r u (c :: clients) :: calls) (hd : v.desk c = some d)
    (hp : d.pending = none) :
    Orderly (release c { d with awaitsPacket := true } { v with calls := .forEach r u clients :: calls })
      past := by
  obtain ⟨hbelow, hnested⟩ := h.nested_tail hcalls
  obtain ⟨hstalled, hfree⟩ := (h.phase c d hd).of_empty hp
  have hsame (x : ClientId) : SameDeliveries x v.calls (.forEach r u clients :: calls) := by
    rw [hcalls]
    exact (SameDeliveries.cons (by simp) (by simp) calls).symm.trans (.cons (by simp) (by simp) calls)
  have hstays : c ∉ deliveries (.forEach r u clients :: calls) := fun hmem => hfree ((hsame c).mem.mp hmem)
  have haccounts := h.accounts c d hd
  rw [unpassed_pending hfree] at haccounts
  have hrelease : release c { d with awaitsPacket := true } { v with calls := .forEach r u clients :: calls } =
      { v.seat c { d with awaitsPacket := true, stalled := false } with
        calls := .forEach r u clients :: calls } := by
    unfold release
    rw [if_neg (by simp [hstalled])]
    rfl
  rw [hrelease, ← List.append_nil past]
  refine h.change (e := { d with awaitsPacket := true, stalled := false }) (Option.isSome_of_eq_some hd)
    h.consistent rfl ⟨hbelow, hnested⟩ rfl (.empty hp rfl hstays) ?_ (fun x _ => hsame x) (fun x hx => ?_)
    (fun x _ => ⟨rfl, rfl⟩) List.not_mem_nil
  · rw [unpassed_pending hstays, List.append_nil]
    exact haccounts
  · have htail : v.calls.tail = calls := by rw [hcalls, List.tail_cons]
    have hxc : x ≠ c := by
      rintro rfl
      exact hstays hx
    rw [if_neg hxc, htail]
    exact hx

theorem finished (h : Orderly v past) {y : Call} {calls' : List Call} (hcalls : v.calls = y :: calls)
    (hy : y = .packetDelivery c ∨ y = .pendingDelivery c) (hd : v.desk c = some d)
    (hcalls' : calls' = calls ∨ calls' = .receiving c :: calls) :
    Orderly { v.seat c { d with pending := none, stalled := false } with calls := calls' } past := by
  obtain ⟨hbelow, hnested⟩ := h.nested_tail hcalls
  have hfree : c ∉ deliveries calls := by rcases hy with rfl | rfl <;> exact hbelow
  have hown : c ∈ deliveries v.calls := by
    rw [hcalls, mem_deliveries]
    rcases hy with rfl | rfl
    · exact .inr (List.mem_cons_self ..)
    · exact .inl (List.mem_cons_self ..)
  have hother {x : ClientId} (hx : x ≠ c) : y ≠ .packetDelivery x ∧ y ≠ .pendingDelivery x := by
    rcases hy with rfl | rfl
    · exact ⟨by simpa using hx.symm, by simp⟩
    · exact ⟨by simp, by simpa using hx.symm⟩
  have hsame' (x : ClientId) : SameDeliveries x calls calls' := by
    rcases hcalls' with rfl | rfl
    · exact .refl x _
    · exact .cons (by simp) (by simp) calls
  have hnested' : Nested calls' := by
    rcases hcalls' with rfl | rfl
    · exact hnested
    · exact ⟨hfree, hnested⟩
  have hstays : c ∉ deliveries calls' := fun hmem => hfree ((hsame' c).mem.mp hmem)
  have haccounts := h.accounts c d hd
  rw [unpassed_nil hown, List.append_nil] at haccounts
  rw [← List.append_nil past]
  refine h.change (e := { d with pending := none, stalled := false }) (Option.isSome_of_eq_some hd)
    h.consistent rfl hnested' rfl (.empty rfl rfl hstays) ?_ (fun x hx => ?_) (fun x hx => ?_)
    (fun x _ => ⟨rfl, rfl⟩) List.not_mem_nil
  · rw [unpassed_pending hstays, List.append_nil]
    exact (List.append_nil _).trans haccounts
  · rw [hcalls]
    exact (SameDeliveries.cons (hother hx).1 (hother hx).2 calls).symm.trans (hsame' x)
  · have hold : x ∈ deliveries calls := (hsame' x).mem.mp (deliveries_tail_subset hx)
    have hxc : x ≠ c := by
      rintro rfl
      exact hfree hold
    rw [if_neg hxc, hcalls]
    exact hold

theorem delivered (h : Orderly v past) (hcalls : v.calls = .packetDelivery c :: calls)
    (hd : v.desk c = some d) : Orderly { v.seat c { d with pending := none } with calls := calls } past := by
  have hstalled : d.stalled = false := by
    have hown : .packetDelivery c ∈ v.calls := by
      rw [hcalls]
      exact List.mem_cons_self ..
    cases h.phase c d hd with
    | empty _ hs | passing _ _ hs => exact hs
    | waiting _ _ _ _ hc => exact absurd (mem_deliveries.mpr (.inr hown)) hc
    | pendingPassing _ _ _ _ _ hother => exact absurd hown hother
  have hfinished := h.finished hcalls (.inl rfl) hd (.inl rfl)
  rwa [← hstalled] at hfinished

theorem pendingDelivered (h : Orderly v past) (hcalls : v.calls = .pendingDelivery c :: calls)
    (hd : v.desk c = some d) :
    Orderly (release c { d with pending := none } { v with calls := calls }) past := by
  have hcalls' : (if d.stalled then .receiving c :: calls else calls) = calls ∨
      (if d.stalled then .receiving c :: calls else calls) = .receiving c :: calls := by
    split_ifs
    · exact .inr rfl
    · exact .inl rfl
  have hfinished := h.finished hcalls (.inr rfl) hd hcalls'
  exact hfinished

theorem turn (h : Orderly v past) (hturn : Turn v w o) : Orderly w (past ++ o) := by
  have hnone {w : Desks} (hw : Orderly w past) : Orderly w (past ++ []) := by rwa [List.append_nil]
  cases hturn with
  | control e => exact hnone (h.control e)
  | leave gone => exact hnone (h.leave gone)
  | attach c hidle hnew => exact hnone (h.attach hidle hnew)
  | event e _ hbase => exact hnone (h.event e hbase)
  | moved p calls hmoved => exact hnone (h.moved p hmoved)
  | stall c d p hd hreceives hawaits => exact h.stall hd hreceives hawaits
  | orphaned c calls hcalls hd => exact hnone (h.orphaned hcalls hd)
  | delivered c calls d hcalls hd => exact hnone (h.delivered hcalls hd)
  | pendingDelivered c calls d hcalls hd => exact hnone (h.pendingDelivered hcalls hd)

theorem acceptance (h : Orderly v past) (haccept : Acceptance c p v w o) : Orderly w (past ++ o) := by
  cases haccept with
  | accept d hd hreceives => exact h.accept hd hreceives

theorem visit (h : Orderly v past) (hvisit : Visit v w o) : Orderly w (past ++ o) := by
  have hnone {w : Desks} (hw : Orderly w past) : Orderly w (past ++ []) := by rwa [List.append_nil]
  cases hvisit with
  | pass r u c clients calls hcalls => exact hnone (h.forEach hcalls (fun _ hb => hb) (by simp))
  | deliver r u c clients calls d p hcalls hd hp hwanted => exact h.deliver hcalls hd hp hwanted
  | query r u c clients calls d hcalls hd hp => exact hnone (h.query hcalls hd hp)

theorem round (h : Orderly v past) (hround : Round v w) : Orderly w past := by
  cases hround with
  | begin r u clients calls hcalls => exact h.forEach hcalls (fun _ hb => hb) (by simp)

theorem initial : Orderly Port.initial.desks [] where
  consistent := .initial
  nested := trivial
  phase _ _ hd := absurd hd (Option.some_ne_none _).symm
  reliable _ hc := absurd hc List.not_mem_nil
  accounts _ _ hd := absurd hd (Option.some_ne_none _).symm
  ordered _ := List.prefix_rfl
  fresh _ _ := ⟨rfl, rfl, rfl⟩
  unfaulted := List.not_mem_nil

end Orderly
end
end Hdlcd.Desks

namespace Hdlcd.Port
open Reactive Desks

theorem passed_handovers (c : ClientId) (o : List Output) : passed c (handovers o) = passed c o := by
  unfold passed handovers
  rw [List.filterMap_filter]
  refine List.filterMap_congr fun y _ => ?_
  cases y with
  | fault f => cases f <;> rfl
  | _ => rfl

theorem given_handovers (c : ClientId) (o : List Output) : given c (handovers o) = given c o := by
  unfold given handovers
  rw [List.filterMap_filter]
  refine List.filterMap_congr fun y _ => ?_
  cases y with
  | fault f => cases f <;> rfl
  | _ => rfl

theorem run_orderly (es : List Event) :
    Orderly (run step es initial).1.desks (handovers (run step es initial).2) :=
  (run_keeps (fun _ _ _ _ hturn h => h.turn hturn) (fun _ _ _ _ _ _ haccept h => h.acceptance haccept)
    (fun _ _ _ _ hvisit h => h.visit hvisit) (fun _ _ _ hround h => h.round hround) .initial es).2

/-- The packet that waits to be passed on. The one that is being passed on is still kept. -/
def waiting (s : Port) (c : ClientId) (h : HdlcdServerHandler) : List PacketData :=
  if c ∈ deliveries s.calls then [] else h.pendingIncomingPacketData.toList

/-- The packets of each client reach `SendPayload` once and in order, and no packet is
pending when one is handed over. -/
theorem packets_passed_once (es : List Event) :
    (∀ c h, (run step es initial).1.handlers c = some h →
      passed c (run step es initial).2 ++ waiting (run step es initial).1 c h =
        given c (run step es initial).2) ∧
    (∀ c, passed c (run step es initial).2 <+: given c (run step es initial).2) ∧
    .fault .pendingPacket ∉ (run step es initial).2 := by
  have horderly := run_orderly es
  refine ⟨fun c h hc => ?_, fun c => ?_, fun hmem => ?_⟩
  · have haccounts := horderly.accounts c (desk h) (desk_of_handler hc)
    rwa [passed_handovers, given_handovers] at haccounts
  · have hordered := horderly.ordered c
    rwa [passed_handovers, given_handovers] at hordered
  · exact horderly.unfaulted (List.mem_filter.mpr ⟨hmem, rfl⟩)

/-- The first packet is passed on while the port is busy, the second one waits. -/
def twoPackets : List Event :=
  [.attach 0 0x00 .opened, .receive 0 (.data ⟨[0x41], true⟩) .opened, .proceed,
    .receive 0 (.data ⟨[0x42], true⟩) .opened]

theorem packets_passed_once_twoPackets :
    passed 0 (run step twoPackets initial).2 ++ [⟨[0x42], true⟩] = given 0 (run step twoPackets initial).2 :=
  (packets_passed_once twoPackets).1 0
    { serialPortHandlerAwaitsPacket := false, pendingIncomingPacketData := some ⟨[0x42], true⟩,
      deliverInitialState := false, aliveGuard := { alive := false }, bufferType := .payload,
      deliverSent := false, deliverRcvd := false, deliverInvalidData := false, stalled := true } rfl

end Hdlcd.Port
