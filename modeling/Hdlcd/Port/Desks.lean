import Hdlcd.Port.Effects
import Hdlcd.Protocol.Demand

/-! How data packets move through a port, seen without locks, files and outputs to the
clients: every client has a desk with at most one packet on it. -/

namespace Hdlcd
open Reactive ProtocolState

/-- What concerns the data packets of a client. -/
structure Desk where
  awaitsPacket : Bool := true
  pending : Option PacketData := none
  stalled : Bool := false
  deriving DecidableEq, Repr

structure Desks where
  protocolState : ProtocolState
  desk : ClientId → Option Desk
  connections : List ClientId
  calls : List Call

namespace Desks

def seat (c : ClientId) (d : Desk) (v : Desks) : Desks :=
  { v with desk := fun x => if x = c then some d else v.desk x }

def asks (qs : List (Bool × Bool)) : List Call := (qs.map fun q => .queryForPayload q.1 q.2).reverse

def call (e : Hdlcd.Event) (v : Desks) : Desks :=
  { v with
    protocolState := (handle e v.protocolState).1
    calls := asks (queries (handle e v.protocolState).2) ++ v.calls }

def submit (p : PacketData) : Hdlcd.Event := .internal (.sendPayload p.data p.reliable)

def wanted (queryReliable queryUnreliable : Bool) (p : PacketData) : Bool :=
  queryReliable && p.reliable || queryUnreliable && !p.reliable

def release (c : ClientId) (d : Desk) (v : Desks) : Desks :=
  { v.seat c { d with stalled := false } with
    calls := if d.stalled then .receiving c :: v.calls else v.calls }

def Receives (c : ClientId) (d : Desk) (v : Desks) : Prop :=
  d.stalled = false ∧ (v.calls = [] ∨ v.calls.head? = some (.receiving c))

/-- A call with nothing left to do. -/
inductive Over : Call → Prop
  | forEach (queryReliable queryUnreliable : Bool) : Over (.forEach queryReliable queryUnreliable [])
  | receiving (c : ClientId) : Over (.receiving c)
  | addReceivedRawBytes (offset : Nat) : Over (.addReceivedRawBytes offset 0)
  | readHandler (opening : Nat) : Over (.readHandler opening)

/-- How the calls move on, apart from data packets and queries. -/
inductive Moved : List Call → List Call → Prop
  | readHandler (opening : Nat) : Moved [] [.readHandler opening]
  | bytes (opening offset bytes : Nat) :
    Moved [.readHandler opening] [.addReceivedRawBytes offset bytes, .readHandler opening]
  | chunk (offset bytes offset' bytes' : Nat) (calls : List Call) :
    Moved (.addReceivedRawBytes offset bytes :: calls) (.addReceivedRawBytes offset' bytes' :: calls)
  | returned (x : Call) (calls : List Call) (hx : Over x) : Moved (x :: calls) calls

/-- A move around the data packets, with its outputs. -/
inductive Turn (v : Desks) : Desks → List Port.Output → Prop
  -- the port is opened, suspended or stopped
  | control (e : LocalEvent) (he : e = .start ∨ e = .stop ∨ e = .shutdown) :
    Turn v { v with protocolState := (handleLocal e v.protocolState).1 } []
  | leave (gone : ClientId → Bool) :
    Turn v { v with desk := fun c => if gone c then none else v.desk c } []
  | attach (c : ClientId) (hidle : v.calls = []) (hnew : c ∉ v.connections) :
    Turn v { v.seat c {} with connections := v.connections ++ [c] } []
  | event (e : Hdlcd.Event) (he : ∀ payload reliable, e ≠ .internal (.sendPayload payload reliable))
    (hbase : v.calls = [] ∨ ∃ offset bytes calls, v.calls = .addReceivedRawBytes offset bytes :: calls) :
    Turn v (v.call e) []
  | moved (p : FrameParser) (calls : List Call) (hmoved : Moved v.calls calls) :
    Turn v { v with protocolState := { v.protocolState with frameParser := p }, calls := calls } []
  | stall (c : ClientId) (d : Desk) (p : PacketData) (hd : v.desk c = some d)
    (hreceives : v.Receives c d) (hawaits : d.awaitsPacket = false) :
    Turn v
      { v.seat c { d with pending := some p, stalled := true } with
        calls := if v.calls.head? = some (.receiving c) then v.calls.tail else v.calls }
      (.onDataReceived c p :: if d.pending.isSome then [.fault .pendingPacket] else [])
  | orphaned (c : ClientId) (calls : List Call)
    (hcalls : v.calls = .packetDelivery c :: calls ∨ v.calls = .pendingDelivery c :: calls)
    (hd : v.desk c = none) : Turn v { v with calls := calls } []
  | delivered (c : ClientId) (calls : List Call) (d : Desk)
    (hcalls : v.calls = .packetDelivery c :: calls) (hd : v.desk c = some d) :
    Turn v { v.seat c { d with pending := none } with calls := calls } []
  | pendingDelivered (c : ClientId) (calls : List Call) (d : Desk)
    (hcalls : v.calls = .pendingDelivery c :: calls) (hd : v.desk c = some d) :
    Turn v (release c { d with pending := none } { v with calls := calls }) []

/-- The packet is accepted and passed on. -/
inductive Acceptance (c : ClientId) (p : PacketData) (v : Desks) : Desks → List Port.Output → Prop
  | accept (d : Desk) (hd : v.desk c = some d) (hreceives : v.Receives c d) (hawaits : d.awaitsPacket = true) :
    Acceptance c p v
      (call (submit p)
        { v.seat c { d with awaitsPacket := false, pending := some p } with
          calls := .packetDelivery c :: v.calls })
      (.onDataReceived c p :: ((if d.pending.isSome then [.fault .pendingPacket] else []) ++
        [.sendPayload c p]))

/-- The next client of a round is queried. -/
inductive Visit (v : Desks) : Desks → List Port.Output → Prop
  -- it is gone, or has a packet of the other kind
  | pass (r u : Bool) (c : ClientId) (clients : List ClientId) (calls : List Call)
    (hcalls : v.calls = .forEach r u (c :: clients) :: calls)
    (hd : ∀ d, v.desk c = some d → ∃ p, d.pending = some p ∧ wanted r u p = false) :
    Visit v { v with calls := .forEach r u clients :: calls } []
  | deliver (r u : Bool) (c : ClientId) (clients : List ClientId) (calls : List Call) (d : Desk)
    (p : PacketData) (hcalls : v.calls = .forEach r u (c :: clients) :: calls)
    (hd : v.desk c = some d) (hp : d.pending = some p) (hwanted : wanted r u p = true) :
    Visit v
      (call (submit p)
        { v with calls := .pendingDelivery c :: .forEach r u clients :: calls }) [.sendPayload c p]
  | query (r u : Bool) (c : ClientId) (clients : List ClientId) (calls : List Call) (d : Desk)
    (hcalls : v.calls = .forEach r u (c :: clients) :: calls) (hd : v.desk c = some d)
    (hp : d.pending = none) :
    Visit v (release c { d with awaitsPacket := true }
      { v with calls := .forEach r u clients :: calls }) []

/-- The clients begin to be queried. -/
inductive Round (v : Desks) : Desks → Prop
  | begin (r u : Bool) (clients : List ClientId) (calls : List Call)
    (hcalls : v.calls = .queryForPayload r u :: calls)
    (hclients : ∀ c, c ∈ clients ↔ (v.desk c).isSome) (hnodup : clients.Nodup) :
    Round v { v with calls := .forEach r u clients :: calls }

inductive Turns : Desks → Desks → List Port.Output → Prop
  | nil (v : Desks) : Turns v v []
  | cons {v w x : Desks} {o o' : List Port.Output} (h : Turn v w o) (h' : Turns w x o') :
    Turns v x (o ++ o')

namespace Turns

variable {v w x : Desks} {o o' : List Port.Output}

theorem single (h : Turn v w o) : Turns v w o := by
  have hone := Turns.cons h (.nil w)
  rwa [List.append_nil] at hone

theorem append (h : Turns v w o) (h' : Turns w x o') : Turns v x (o ++ o') := by
  induction h with
  | nil => exact h'
  | cons hturn _ ih =>
    rw [List.append_assoc]
    exact .cons hturn (ih h')

theorem keep {I : Desks → List Port.Output → Prop}
    (hturn : ∀ v w o past, Turn v w o → I v past → I w (past ++ o)) (h : Turns v w o)
    (past : List Port.Output) (hv : I v past) : I w (past ++ o) := by
  induction h generalizing past with
  | nil => rwa [List.append_nil]
  | cons h _ ih =>
    rw [← List.append_assoc]
    exact ih _ (hturn _ _ _ _ h hv)

end Turns
end Desks

namespace Port
open Action Desks

def HandsOver : Output → Bool
  | .onDataReceived .. | .sendPayload .. | .fault .pendingPacket => true
  | _ => false

def handovers (o : List Output) : List Output := o.filter HandsOver

def desk (h : HdlcdServerHandler) : Desk :=
  ⟨h.serialPortHandlerAwaitsPacket, h.pendingIncomingPacketData, h.stalled⟩

def desks (s : Port) : Desks where
  protocolState := s.protocolState
  desk c := (s.handlers c).map desk
  connections := s.connections
  calls := s.calls

/-- The list of the serial port handler has every client that is there. -/
structure Enrolled (s : Port) : Prop where
  consistent : Consistent s.protocolState
  listed : ∀ c, (s.handlers c).isSome → c ∈ s.handlerList
  nodup : s.handlerList.Nodup
  known : ∀ c ∈ s.handlerList, c ∈ s.connections
  distinct : s.connections.Nodup

end Port
end Hdlcd
