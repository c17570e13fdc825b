import Mathlib.Data.List.AList
import Hdlcd.SerialPort.SerialPortHandler

/-! The serial port handlers of the daemon: SerialPortHandlerCollection.cpp and the part of
HdlcdServerHandler.cpp that holds a stopper. The collection keeps weak pointers to the
stoppers. A stopper goes with its last owner, and its deleter stops the serial port handler. -/

namespace Hdlcd
open Reactive Action

structure SerialPortHandler where
  serialPortName : String
  port : Port := .initial

structure SerialPortHandlerCollection where
  -- all that were ever created; they are told apart by their position
  handlers : List SerialPortHandler := []
  -- `m_SerialPortHandlerMap`, from names to stoppers
  serialPortHandlerMap : AList fun _ : String => Nat := ∅
  -- owners of stoppers apart from the attached clients: clients that were stopped but still
  -- exist, and the one that is being attached or destroyed
  owners : List (ClientId × Nat) := []

namespace SerialPortHandlerCollection

abbrev Act := Action SerialPortHandlerCollection (Nat × Port.Output)

/-- Somebody owns the stopper: a weak pointer to it can be locked. -/
def owned (s : SerialPortHandlerCollection) (i : Nat) : Bool :=
  s.owners.any (fun x => x.2 == i) || (s.handlers[i]?).any fun h => !h.port.live.isEmpty

/-- The entry of the name, unless its weak pointer has expired. -/
def lock (s : SerialPortHandlerCollection) (serialPortName : String) : Option Nat :=
  (s.serialPortHandlerMap.lookup serialPortName).filter s.owned

/-- The first entry whose pointer can be locked and leads to the serial port handler. -/
def deregisterSerialPortHandler (i : Nat) (s : SerialPortHandlerCollection) : SerialPortHandlerCollection :=
  match s.serialPortHandlerMap.entries.find? fun it => s.owned it.2 && it.2 == i with
  | some it => { s with serialPortHandlerMap := s.serialPortHandlerMap.erase it.1 }
  | none => s

/-- An action of a serial port handler. One that ends deregisters itself before it stops its
clients, of which those in `remaining` exist longer. -/
def onHandler (i : Nat) (a : Port.Act) (remaining : List ClientId) : Act := fun s =>
  match s.handlers[i]? with
  | none => (s, [])
  | some h =>
    let called := a h.port
    let t :=
      if h.port.registered && !called.1.registered then
        { s.deregisterSerialPortHandler i with
          owners := s.owners ++ (h.port.live.filter fun c => remaining.contains c).map fun c => (c, i) }
      else s
    ({ t with handlers := s.handlers.set i { h with port := called.1 } }, called.2.map fun y => (i, y))

/-- The deleter of a stopper that nobody owns any more. -/
def deleteStopper (i : Nat) : Act := branch (·.owned i) skip (onHandler i Port.stop [])

def acquireStopper (c : ClientId) (i : Nat) : Act := update fun s => { s with owners := (c, i) :: s.owners }

def releaseStopper (c : ClientId) (i : Nat) : Act :=
  (update fun s => { s with owners := s.owners.erase (c, i) }).andThen (deleteStopper i)

/-- The serial port handler of the name; a new one has to be started. -/
def getSerialPortHandler (serialPortName : String) (s : SerialPortHandlerCollection) :
    Nat × SerialPortHandlerCollection :=
  match s.lock serialPortName with
  | some i => (i, s)
  | none =>
    (s.handlers.length,
      { s with
        handlers := s.handlers ++ [{ serialPortName := serialPortName }]
        serialPortHandlerMap := s.serialPortHandlerMap.insert serialPortName s.handlers.length })

def idle (s : SerialPortHandlerCollection) : Bool := s.handlers.all fun h => h.port.calls.isEmpty

/-- The client was attached before. -/
def knows (s : SerialPortHandlerCollection) (c : ClientId) : Bool :=
  s.handlers.any fun h => h.port.connections.contains c

/-- The session header of a new client. `GetSerialPortHandler` owns the stopper until the
client does. -/
def onFrame (c : ClientId) (serialPortName : String) (h : HdlcdServerHandler) (opens : OpenResult) : Act := fun s =>
  let got := s.getSerialPortHandler serialPortName
  ((acquireStopper c got.1).andThen
    ((onHandler got.1 (Port.addClient c h opens) []).andThen (releaseStopper c got.1))) got.2

/-- The client is stopped and destroyed: its lock guard goes before its stopper. -/
def onClosed (i : Nat) (c : ClientId) (opens : OpenResult) (remaining : List ClientId) : Act := fun s =>
  match (s.handlers[i]?).bind fun h => h.port.handlers c with
  | none => (s, [])
  | some client =>
    if s.idle then
      ((acquireStopper c i).andThen
        ((onHandler i (update (Port.eraseHandler c)) []).andThen
          ((if client.lockGuard.lockedBySelf then onHandler i (Port.resumeSerialPort opens) remaining
            else skip).andThen (releaseStopper c i)))) s
    else (s, [])

inductive Event
  | onFrame (client : ClientId) (serialPortName : String) (sap : UInt8) (opens : OpenResult)
  | onClosed (i : Nat) (client : ClientId) (opens : OpenResult) (remaining : List ClientId)
  -- any other event of a serial port handler
  | handler (i : Nat) (event : Port.Event) (remaining : List ClientId)
  -- a client that was stopped is destroyed
  | destroyed (client : ClientId) (i : Nat)
  deriving DecidableEq, Repr

/-- Only one serial port handler is in a call at a time. -/
def othersIdle (s : SerialPortHandlerCollection) (i : Nat) : Bool :=
  (s.handlers.eraseIdx i).all fun h => h.port.calls.isEmpty

def onEvent (i : Nat) (e : Port.Event) (remaining : List ClientId) : Act := fun s =>
  match e with
  | .attach .. | .disconnect .. => (s, [])
  | e =>
    if s.othersIdle i then
      ((onHandler i (Port.step e) remaining).andThen (if s.owned i then deleteStopper i else skip)) s
    else (s, [])

/-- A client sends its session header once. -/
def onSessionHeader (c : ClientId) (serialPortName : String) (sap : UInt8) (opens : OpenResult) : Act := fun s =>
  match HdlcdServerHandler.onFrame sap with
  | none => (s, [])
  | some h => if s.idle && !s.knows c then onFrame c serialPortName h opens s else (s, [])

def step : Event → Act
  | .onFrame c serialPortName sap opens => onSessionHeader c serialPortName sap opens
  | .onClosed i c opens remaining => onClosed i c opens remaining
  | .handler i e remaining => onEvent i e remaining
  | .destroyed c i => branch (fun s => s.owners.contains (c, i)) (releaseStopper c i) skip

def initial : SerialPortHandlerCollection := {}

end SerialPortHandlerCollection
end Hdlcd
