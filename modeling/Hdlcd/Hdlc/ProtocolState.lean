import Hdlcd.Library.Reactive
import Hdlcd.Hdlc.AliveState
import Hdlcd.Hdlc.FrameParser

/-! The HDLC entity of ProtocolState.cpp. Its methods and timer handlers are actions on
the members; the calls they make on the serial port handler are their effects. -/

namespace Hdlcd
open Reactive Action

abbrev Payload := List UInt8

inductive BufferType
  | raw
  | dissected
  | payload
  | portStatus
  deriving DecidableEq, Repr

/-- The two handlers that are waited for on `m_Timer`. -/
inductive TimerHandler
  | retransmission
  | rnrPoll
  deriving DecidableEq, Repr

inductive Fault
  -- `m_SerialPortHandler` is dereferenced after it was reset
  | nullSerialPortHandler
  -- `pop_front` on an empty queue
  | emptyQueue
  -- an `assert` fails
  | assertion
  deriving DecidableEq, Repr

inductive Effect
  -- `DeliverBufferToClients` under the condition `RequiresBufferType`
  | deliverIfRequired (bufferType : BufferType) (payload : Payload) (reliable invalid wasSent : Bool)
  | deliverBufferToClients (bufferType : BufferType) (payload : Payload)
      (reliable invalid wasSent : Bool)
  | changeBaudRate
  | propagateSerialPortState
  -- `TransmitHDLCFrame(EscapeFrame(buffer))` with `buffer` the serialized frame
  | transmitHDLCFrame (hdlcFrame : HdlcFrame) (buffer : List UInt8)
  | queryForPayload (queryReliable queryUnreliable : Bool)
  -- the payload leaves `m_WaitQueueReliable`
  | popFrontReliable (payload : Payload)
  | fault (fault : Fault)
  deriving DecidableEq, Repr

structure ProtocolState where
  started : Bool
  awaitsNextHDLCFrame : Bool
  sSeqOutgoing : UInt8
  rSeqIncoming : UInt8
  sendProbe : Bool
  peerStoppedFlow : Bool
  peerStoppedFlowNew : Bool
  peerStoppedFlowQueried : Bool
  peerRequiresAck : Bool
  waitForAck : Bool
  srejs : List UInt8
  -- whether `m_SerialPortHandler` is set
  serialPortHandler : Bool
  frameParser : FrameParser
  waitQueueReliable : List Payload
  waitQueueUnreliable : List Payload
  aliveState : AliveState
  timer : DeadlineTimer TimerHandler
  deriving DecidableEq, Repr

namespace ProtocolState
open FrameGenerator

abbrev Act := Action ProtocolState Effect

def withSerialPortHandler (a : Act) : Act :=
  branch (·.serialPortHandler) a (emit [.fault .nullSerialPortHandler])

def reset (s : ProtocolState) : ProtocolState :=
  { s with
    aliveState := s.aliveState.stop
    timer := s.timer.cancel
    started := false
    awaitsNextHDLCFrame := true
    sSeqOutgoing := 0
    rSeqIncoming := 0
    sendProbe := false
    peerStoppedFlow := false
    peerStoppedFlowNew := false
    peerStoppedFlowQueried := false
    peerRequiresAck := false
    waitForAck := false
    srejs := []
    frameParser := FrameParser.reset }

def initial : ProtocolState where
  started := false
  awaitsNextHDLCFrame := true
  sSeqOutgoing := 0
  rSeqIncoming := 0
  sendProbe := false
  peerStoppedFlow := false
  peerStoppedFlowNew := false
  peerStoppedFlowQueried := false
  peerRequiresAck := false
  waitForAck := false
  srejs := []
  serialPortHandler := true
  frameParser := FrameParser.reset
  waitQueueReliable := []
  waitQueueUnreliable := []
  aliveState := {}
  timer := {}

def prepareIFrame (s : ProtocolState) (front : Payload) : HdlcFrame :=
  { address := 0x30, hdlcFrameType := .i, pf := false, sSeq := s.sSeqOutgoing,
    rSeq := s.rSeqIncoming, payload := front }

def prepareSFrameRR (s : ProtocolState) : HdlcFrame :=
  { address := 0x30, hdlcFrameType := .sRR, pf := false, rSeq := s.rSeqIncoming }

def prepareSFrameSREJ (front : UInt8) : HdlcFrame :=
  { address := 0x30, hdlcFrameType := .sSREJ, pf := false, rSeq := front }

def prepareUFrameUI (front : Payload) : HdlcFrame :=
  { address := 0x30, hdlcFrameType := .uUI, pf := false, payload := front }

def prepareUFrameTEST : HdlcFrame := { address := 0x30, hdlcFrameType := .uTEST, pf := false }

/-- The end of `OpportunityForTransmission`, for a frame that is not empty. -/
def transmitFrame (f : HdlcFrame) : Act := fun s =>
  match serializeFrame f with
  -- a frame type that cannot be serialized
  | none => (s, [.fault .assertion])
  | some buffer =>
    ({ s with awaitsNextHDLCFrame := false },
      [.deliverIfRequired .raw buffer f.isIFrame false true,
        .deliverIfRequired .dissected f.dissect f.isIFrame false true,
        .transmitHDLCFrame f buffer])

def queryWaitQueues : Act := fun s =>
  -- nothing to send, and the last call of the cascade: a payload that it submits is the
  -- next event
  let queryReliable :=
    s.waitQueueUnreliable.isEmpty && s.waitQueueReliable.isEmpty && !s.peerStoppedFlow
  let queryUnreliable :=
    s.waitQueueUnreliable.isEmpty && (s.waitQueueReliable.isEmpty || s.peerStoppedFlow)
  if queryReliable || queryUnreliable then
    withSerialPortHandler (emit [.queryForPayload queryReliable queryUnreliable]) s
  else (s, [])

def sendUnreliable : Act := fun s =>
  match s.waitQueueUnreliable with
  | front :: rest =>
    withSerialPortHandler
      ((emit [.deliverBufferToClients .payload front false false true]).andThen
        ((update fun s => { s with waitQueueUnreliable := rest }).andThen
          (transmitFrame (prepareUFrameUI front)))) s
  | [] => queryWaitQueues s

def startRnrTimer (s : ProtocolState) : ProtocolState :=
  { s with timer := s.timer.cancel.asyncWait .rnrPoll }

/-- The RR of the receive side; during the RNR condition it queries the peer. -/
def sendRR : Act := fun s =>
  let f := s.prepareSFrameRR
  let s := { s with peerRequiresAck := false }
  if s.peerStoppedFlow && !s.peerStoppedFlowQueried then
    -- a hack due to missing command/response support
    withSerialPortHandler (transmitFrame { f with pf := true })
      (startRnrTimer { s with peerStoppedFlowQueried := true })
  else withSerialPortHandler (transmitFrame f) s

def sendAck : Act :=
  -- a new RNR condition takes the timer and sends nothing
  branch (·.peerStoppedFlowNew)
    ((update fun s => startRnrTimer { s with peerStoppedFlowNew := false }).andThen sendUnreliable)
    (branch (·.peerRequiresAck) sendRR sendUnreliable)

def sendIFrame (front : Payload) : Act := fun s =>
  withSerialPortHandler
    ((emit [.deliverIfRequired .payload front true false true]).andThen
      ((update fun s =>
        { s with
          waitForAck := true
          peerRequiresAck := false
          timer := s.timer.asyncWait .retransmission }).andThen
        (transmitFrame (s.prepareIFrame front)))) s

def sendReliable : Act := fun s =>
  match s.waitQueueReliable with
  | front :: _ =>
    if !s.waitForAck && !s.peerStoppedFlow then sendIFrame front s else sendAck s
  | [] => sendAck s

/-- The serial link to the device is alive: outstanding SREJs go first. -/
def sendOutstanding : Act := fun s =>
  match s.srejs with
  | front :: rest =>
    withSerialPortHandler (transmitFrame (prepareSFrameSREJ front)) { s with srejs := rest }
  | [] => sendReliable s

def opportunityForTransmission : Act :=
  branch (fun s => !s.awaitsNextHDLCFrame) skip
    (branch (·.sendProbe)
      ((update fun s => { s with sendProbe := false }).andThen
        (withSerialPortHandler (transmitFrame prepareUFrameTEST)))
      (branch (·.aliveState.isAlive) sendOutstanding skip))

def aliveCallback : AliveCallback → Act
  | .sendProbe =>
    (update fun s => { s with sendProbe := true }).andThen
      (branch (·.serialPortHandler) opportunityForTransmission skip)
  | .changeBaudrate =>
    branch (·.serialPortHandler) (emit [.changeBaudRate, .propagateSerialPortState]) skip

def aliveCallbacks (callbacks : List AliveCallback) : Act := run aliveCallback callbacks

def callAliveState (method : AliveState → AliveState × List AliveCallback) : Act := fun s =>
  aliveCallbacks (method s.aliveState).2 { s with aliveState := (method s.aliveState).1 }

def start : Act :=
  (update fun s => { s.reset with started := true }).andThen
    ((callAliveState AliveState.start).andThen opportunityForTransmission)

def stop : Act :=
  branch (·.started)
    ((update reset).andThen (withSerialPortHandler (emit [.propagateSerialPortState]))) skip

def shutdown : Act :=
  -- no event is emitted any more
  branch (·.started) (update fun s => { s.reset with serialPortHandler := false }) skip

def enqueue (s : ProtocolState) (payload : Payload) (reliable : Bool) : ProtocolState :=
  if reliable then { s with waitQueueReliable := s.waitQueueReliable ++ [payload] }
  else { s with waitQueueUnreliable := s.waitQueueUnreliable ++ [payload] }

def sendPayload (payload : Payload) (reliable : Bool) : Act :=
  (update fun s => s.enqueue payload reliable).andThen fun s =>
    -- the queue that was just filled makes one of the two true
    let sendReliableFrames := s.started || !s.peerStoppedFlow || !s.waitQueueReliable.isEmpty
    let sendUnreliableFrames := s.started || !s.waitQueueUnreliable.isEmpty
    if s.awaitsNextHDLCFrame && (sendReliableFrames || sendUnreliableFrames) then
      opportunityForTransmission s
    else (s, [])

def triggerNextHDLCFrame : Act :=
  branch (fun s => !s.started) skip
    ((update fun s => { s with awaitsNextHDLCFrame := true }).andThen opportunityForTransmission)

/-- The entries of the loop `for (it = m_RSeqIncoming; (it & 0x07) != SSeq; ++it)`. As a
received N(S) has three bits, the loop ends within eight rounds. -/
def missingFrames (sSeq : UInt8) : Nat → UInt8 → List UInt8
  | 0, _ => []
  | rounds + 1, it =>
    if it &&& 0x07 = sSeq then [] else it :: missingFrames sSeq rounds (it + 1)

/-- The receive window moves behind the frame, the frames before it are asked for again. -/
def advanceWindow (sSeq : UInt8) (s : ProtocolState) : ProtocolState :=
  { s with
    srejs := if s.rSeqIncoming ≠ sSeq then missingFrames sSeq 8 s.rSeqIncoming else s.srejs
    rSeqIncoming := (sSeq + 1) &&& 0x07
    peerRequiresAck := true }

def receivePayload (f : HdlcFrame) : Act :=
  if f.hasPayload then
    (emit [.deliverIfRequired .payload f.payload f.isIFrame false false]).andThen
      (if f.isIFrame then update (advanceWindow f.sSeq) else skip)
  else skip

/-- The peer restarted the flow. -/
def clearRnrCondition (s : ProtocolState) : ProtocolState :=
  { s with peerStoppedFlow := false, waitForAck := false, timer := s.timer.cancel }

def stopWaiting (s : ProtocolState) : ProtocolState :=
  { s with waitForAck := false, timer := s.timer.cancel }

def popFrontReliable : Act := fun s =>
  match s.waitQueueReliable with
  | front :: rest => ({ s with waitQueueReliable := rest }, [.popFrontReliable front])
  | [] => (s, [.fault .emptyQueue])

def acknowledges (s : ProtocolState) (rSeq : UInt8) : Bool := rSeq == (s.sSeqOutgoing + 1) &&& 0x07

def acknowledge (f : HdlcFrame) : Act :=
  (update fun s =>
    -- RR clears RNR condition, m_bPeerStoppedFlowNew stays
    if s.peerStoppedFlow && f.hdlcFrameType == .sRR then s.clearRnrCondition else s).andThen
  ((branch (fun s => s.waitForAck && s.acknowledges f.rSeq)
    ((update stopWaiting).andThen popFrontReliable) skip).andThen
  (update fun s => { s with sSeqOutgoing := f.rSeq }))

/-- The peer wants us to stop sending. -/
def enterRnrCondition (s : ProtocolState) : ProtocolState :=
  if !s.peerStoppedFlow then
    { s with peerStoppedFlow := true, peerStoppedFlowNew := true, peerStoppedFlowQueried := false }
  else s

def receiveNotReady (f : HdlcFrame) : Act :=
  (update enterRnrCondition).andThen
  ((branch (·.waitForAck)
    ((update stopWaiting).andThen
      (branch (fun s => s.acknowledges f.rSeq) popFrontReliable skip)) skip).andThen
  (update fun s => { s with sSeqOutgoing := f.rSeq }))

def reject (f : HdlcFrame) : Act :=
  -- whether or not an I-frame is outstanding, a REJ with its number ends the wait
  (update fun s => if s.peerStoppedFlow then s.clearRnrCondition else s).andThen
  ((update fun s => if f.rSeq = s.sSeqOutgoing then s.stopWaiting else s).andThen
  (update fun s => { s with sSeqOutgoing := (f.rSeq + 0x07) &&& 0x07 }))

def selectiveReject (f : HdlcFrame) : Act :=
  -- the number to send with is not touched
  (update fun s => if s.peerStoppedFlow then s.clearRnrCondition else s).andThen
  (update fun s => if s.waitForAck && f.rSeq == s.sSeqOutgoing then s.stopWaiting else s)

def checkAcks (f : HdlcFrame) : Act :=
  match f.hdlcFrameType with
  | .i | .sRR => acknowledge f
  | .sRNR => receiveNotReady f
  | .sREJ => reject f
  | .sSREJ => selectiveReject f
  | _ => skip

def frameReceived : Act := fun s =>
  let received := s.aliveState.onFrameReceived
  ({ s with aliveState := received.1 }, if received.2 then [.propagateSerialPortState] else [])

def interpretValidFrame (f : HdlcFrame) : Act :=
  frameReceived.andThen ((receivePayload f).andThen ((checkAcks f).andThen
    (branch (·.awaitsNextHDLCFrame) opportunityForTransmission skip)))

def interpretDeserializedFrame (payload : Payload) (f : HdlcFrame) (messageInvalid : Bool) : Act :=
  branch (fun s => !s.started) skip
    (withSerialPortHandler
      ((emit [.deliverIfRequired .raw payload false messageInvalid false,
          .deliverIfRequired .dissected f.dissect false messageInvalid false]).andThen
        (if messageInvalid then skip else interpretValidFrame f)))

def addReceivedRawBytes (bytes : List UInt8) : Act := fun s =>
  if !s.started then (s, [])
  else
    let parsed := s.frameParser.addReceivedRawBytes bytes
    run (fun c : Interpretation => interpretDeserializedFrame c.payload c.hdlcFrame c.messageInvalid)
      parsed.2 { s with frameParser := parsed.1 }

def onTimer : TimerHandler → Act
  | .retransmission =>
    -- send the head element of the wait queue again
    (update fun s => { s with waitForAck := false }).andThen opportunityForTransmission
  | .rnrPoll =>
    branch (·.peerStoppedFlow)
      ((update fun s => { s with peerRequiresAck := true, peerStoppedFlowQueried := false }).andThen
        opportunityForTransmission) skip

def onStateTimer : Act := fun s =>
  match s.aliveState.onStateTimeout with
  | some a => ({ s with aliveState := a.startStateTimer }, [])
  | none => (s, [.fault .assertion])

def onProbeTimer : Act :=
  (callAliveState AliveState.onProbeTimeout).andThen
    (update fun s => { s with aliveState := s.aliveState.startProbeTimer })

end ProtocolState

/-- What the surroundings of a `ProtocolState` do to it, received frames aside. -/
inductive LocalEvent
  | start
  | stop
  | shutdown
  | sendPayload (payload : Payload) (reliable : Bool)
  | triggerNextHDLCFrame
  -- the deadline of `m_Timer` passes, its handler is queued
  | timerExpires
  -- a queued handler of `m_Timer` runs, whether or not the timer was cancelled since
  | timerHandler (handler : TimerHandler)
  | stateTimerExpires
  | stateTimerHandler
  | probeTimerExpires
  | probeTimerHandler
  deriving DecidableEq, Repr

inductive Event
  | internal (event : LocalEvent)
  -- the parser hands over an unescaped buffer
  | frame (buffer : List UInt8) (messageInvalid : Bool)
  deriving DecidableEq, Repr

namespace ProtocolState

def handleLocal : LocalEvent → Act
  | .start => start
  | .stop => stop
  | .shutdown => shutdown
  | .sendPayload payload reliable => sendPayload payload reliable
  | .triggerNextHDLCFrame => triggerNextHDLCFrame
  | .timerExpires => update fun s => { s with timer := s.timer.expire }
  | .timerHandler handler =>
    branch (fun s => decide (handler ∈ s.timer.queued))
      ((update fun s => { s with timer := s.timer.complete handler }).andThen (onTimer handler)) skip
  | .stateTimerExpires =>
    update fun s =>
      { s with aliveState := { s.aliveState with stateTimer := s.aliveState.stateTimer.expire } }
  | .stateTimerHandler =>
    branch (fun s => decide (() ∈ s.aliveState.stateTimer.queued))
      ((update fun s =>
        { s with
          aliveState := { s.aliveState with stateTimer := s.aliveState.stateTimer.complete () } }).andThen
        onStateTimer) skip
  | .probeTimerExpires =>
    update fun s =>
      { s with aliveState := { s.aliveState with probeTimer := s.aliveState.probeTimer.expire } }
  | .probeTimerHandler =>
    branch (fun s => decide (() ∈ s.aliveState.probeTimer.queued))
      ((update fun s =>
        { s with
          aliveState := { s.aliveState with probeTimer := s.aliveState.probeTimer.complete () } }).andThen
        onProbeTimer) skip

def handle : Event → Act
  | .internal e => handleLocal e
  | .frame buffer messageInvalid =>
    interpretDeserializedFrame buffer (FrameParser.deserializeFrame buffer) messageInvalid

end ProtocolState
end Hdlcd
