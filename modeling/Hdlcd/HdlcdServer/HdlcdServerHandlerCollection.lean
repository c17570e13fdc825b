import Hdlcd.SerialPort.SerialPortHandlerCollection

/-! The clients of the daemon: HdlcdServerHandlerCollection.cpp, and the part of
HdlcdServerHandler.cpp that registers a client, waits for its session header and stops it. A
client is named by the number of its TCP connection. -/

namespace Hdlcd
open Reactive Action

structure HdlcdServerHandlerCollection where
  serialPortHandlerCollection : SerialPortHandlerCollection := {}
  hdlcdServerHandlerList : List ClientId := []
  -- `m_Registered` of the clients
  registered : ClientId → Bool := fun _ => false
  -- the clients that wait for their session header
  frameEndpoints : List ClientId := []
  -- the number of connections that were accepted
  accepted : Nat := 0
  -- `m_TcpAcceptor` is open
  tcpAcceptor : Bool := true

namespace HdlcdServerHandlerCollection

abbrev Act := Action HdlcdServerHandlerCollection (Nat × Port.Output)

/-- The serial port handler that the client is attached to. -/
def attachedTo (s : SerialPortHandlerCollection) (c : ClientId) : Option Nat :=
  s.handlers.findIdx? fun h => (h.port.handlers c).isSome

def registerHdlcdServerHandler (c : ClientId) (s : HdlcdServerHandlerCollection) : HdlcdServerHandlerCollection :=
  { s with hdlcdServerHandlerList := s.hdlcdServerHandlerList ++ [c] }

def deregisterHdlcdServerHandler (c : ClientId) (s : HdlcdServerHandlerCollection) : HdlcdServerHandlerCollection :=
  { s with hdlcdServerHandlerList := s.hdlcdServerHandlerList.filter (· != c) }

def setRegistered (c : ClientId) (registered : Bool) (s : HdlcdServerHandlerCollection) :
    HdlcdServerHandlerCollection :=
  { s with registered := fun d => if d = c then registered else s.registered d }

def dropFrameEndpoint (c : ClientId) (s : HdlcdServerHandlerCollection) : HdlcdServerHandlerCollection :=
  { s with frameEndpoints := s.frameEndpoints.filter (· != c) }

/-- `Start` of a new client. -/
def start (c : ClientId) (s : HdlcdServerHandlerCollection) : HdlcdServerHandlerCollection :=
  let t := registerHdlcdServerHandler c (setRegistered c true s)
  { t with frameEndpoints := t.frameEndpoints ++ [c] }

/-- `Stop` of a client. -/
def stop (c : ClientId) (s : HdlcdServerHandlerCollection) : HdlcdServerHandlerCollection :=
  if s.registered c then deregisterHdlcdServerHandler c (dropFrameEndpoint c (setRegistered c false s)) else s

def doAccept : Act :=
  branch (·.tcpAcceptor) (update fun s => { start s.accepted s with accepted := s.accepted + 1 }) skip

/-- The calls of `Stop` that the serial port handlers make. -/
def stopClients (o : List (Nat × Port.Output)) (s : HdlcdServerHandlerCollection) : HdlcdServerHandlerCollection :=
  o.foldl (fun s y =>
    match y.2 with
    | .stopClient c => stop c s
    | _ => s) s

def onSerialPorts (a : SerialPortHandlerCollection.Act) : Act := fun s =>
  let called := a s.serialPortHandlerCollection
  (stopClients called.2 { s with serialPortHandlerCollection := called.1 }, called.2)

/-- The session header arrives. -/
def onFrame (c : ClientId) (serialPortName : String) (sap : UInt8) (opens : OpenResult) : Act := fun s =>
  match HdlcdServerHandler.onFrame sap with
  | none => (stop c s, [])
  -- the packet endpoint takes full control over the TCP socket
  | some h => onSerialPorts (SerialPortHandlerCollection.onFrame c serialPortName h opens) (dropFrameEndpoint c s)

/-- The client is stopped and destroyed, with its lock guard and its stopper. -/
def onClosed (c : ClientId) (opens : OpenResult) (remaining : List ClientId) : Act := fun s =>
  match attachedTo s.serialPortHandlerCollection c with
  | some i => onSerialPorts (SerialPortHandlerCollection.onClosed i c opens remaining) (stop c s)
  | none => (stop c s, [])

/-- The loop of `Shutdown`, for at most so many rounds. -/
def stopAll (opens : ClientId → OpenResult) (remaining : ClientId → List ClientId) : Nat → Act
  | 0 => skip
  | rounds + 1 => fun s =>
    match s.hdlcdServerHandlerList with
    | [] => (s, [])
    | c :: _ => ((onClosed c (opens c) (remaining c)).andThen (stopAll opens remaining rounds)) s

/-- Every round takes a client off the list, so that its length is enough. -/
def shutdown (opens : ClientId → OpenResult) (remaining : ClientId → List ClientId) : Act :=
  (update fun s => { s with tcpAcceptor := false }).andThen
    fun s => stopAll opens remaining s.hdlcdServerHandlerList.length s

inductive Event
  | accept
  | onFrame (client : ClientId) (serialPortName : String) (sap : UInt8) (opens : OpenResult)
  -- the connection of a client is closed
  | onClosed (client : ClientId) (opens : OpenResult) (remaining : List ClientId)
  -- an event of the serial port `i` other than a client that comes or goes
  | handler (i : Nat) (event : Port.Event) (remaining : List ClientId)
  -- a client that was stopped is destroyed
  | destroyed (client : ClientId) (i : Nat)
  deriving DecidableEq, Repr

/-- A new handler only runs when the last one has returned. -/
def whenIdle (a : Act) : Act := branch (·.serialPortHandlerCollection.idle) a skip

def step : Event → Act
  | .accept => doAccept
  | .onFrame c serialPortName sap opens =>
    whenIdle (branch (·.frameEndpoints.contains c) (onFrame c serialPortName sap opens) skip)
  | .onClosed c opens remaining => whenIdle (onClosed c opens remaining)
  | .handler i e remaining => onSerialPorts (SerialPortHandlerCollection.step (.handler i e remaining))
  | .destroyed c i => onSerialPorts (SerialPortHandlerCollection.step (.destroyed c i))

def initial : HdlcdServerHandlerCollection := {}

end HdlcdServerHandlerCollection
end Hdlcd
