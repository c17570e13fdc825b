import Hdlcd.SerialPort.SerialPort
import Hdlcd.HdlcdServer.HdlcdServerHandler

/-! A serial port with its clients: SerialPortHandler.cpp, the part of
HdlcdServerHandler.cpp that calls it, and LockGuard.cpp. A client is called back while it
delivers a payload, so the calls that have not returned are part of the state. -/

namespace Hdlcd
open Reactive Action

structure BaudRate where
  currentBaudrateIndex : Nat := 0
  deriving DecidableEq, Repr

def BaudRate.getBaudRate (b : BaudRate) : Nat := if b.currentBaudrateIndex = 0 then 9600 else 115200

def BaudRate.toggleBaudRate (b : BaudRate) : BaudRate :=
  { currentBaudrateIndex := if b.currentBaudrateIndex = 0 then 1 else 0 }

/-- The calls that have not returned, each with what is left to do in it. -/
inductive Call
  -- `QueryForPayload` of the serial port handler
  | queryForPayload (queryReliable queryUnreliable : Bool)
  -- its loop over the clients
  | forEach (queryReliable queryUnreliable : Bool) (clients : List ClientId)
  -- `DeliverPayloadToHDLC` in `QueryForPayload` of the client
  | pendingDelivery (client : ClientId)
  -- `DeliverPayloadToHDLC` in `OnDataReceived`
  | packetDelivery (client : ClientId)
  -- the packet endpoint receives, after `TriggerNextDataPacket`
  | receiving (client : ClientId)
  -- `AddReceivedRawBytes` of the parser, with so many bytes of the read buffer left
  | addReceivedRawBytes (offset bytes : Nat)
  -- the handler of a read that was started in this opening of the port
  | readHandler (opening : Nat)
  deriving DecidableEq, Repr

structure Port where
  registered : Bool := true
  serialPort : SerialPort := {}
  protocolState : ProtocolState := .initial
  handlerList : List ClientId := []
  -- all reads share it
  readBuffer : Nat → UInt8 := fun _ => 0
  sendBuffer : List UInt8 := []
  sendBufferOffset : Nat := 0
  serialPortLock : SerialPortLock := {}
  baudRate : BaudRate := {}
  bufferTypeSubscribers : BufferType → Nat := fun _ => 0
  -- the clients; one that was stopped is gone
  handlers : ClientId → Option HdlcdServerHandler := fun _ => none
  -- the clients that were ever attached
  connections : List ClientId := []
  calls : List Call := []

namespace Port

inductive Fault
  -- the assertions of `LockGuard::Init`
  | lockGuardInit
  -- `assert(m_SendBufferOffset == 0)`
  | sendBufferOffset
  -- `assert(m_SerialPortLock.GetSerialPortState() == false)`
  | suspended
  -- `assert(!m_PendingIncomingPacketData)`
  | pendingPacket
  -- `m_PacketEndpoint` is dereferenced after it was reset
  | nullPacketEndpoint
  -- `set_option` throws on a closed port
  | portClosed
  -- `cancel` throws on a closed port
  | cancelClosed
  -- the length to be written underflows
  | lengthUnderflow
  | protocolState (fault : Hdlcd.Fault)
  deriving DecidableEq, Repr

inductive Output
  | portStatus (client : ClientId) (alive lockedByOthers lockedBySelf : Bool)
  | dataPacket (client : ClientId) (payload : Payload) (reliable invalid wasSent : Bool)
  | echo (client : ClientId)
  -- `OnDataReceived` is called
  | onDataReceived (client : ClientId) (packetData : PacketData)
  -- `SendPayload` is called on behalf of the client
  | sendPayload (client : ClientId) (packetData : PacketData)
  | transmitHDLCFrame (hdlcFrame : HdlcFrame)
  | triggerNextHDLCFrame
  | doRead
  | doWrite
  -- the port is closed on the first lock, and opened again after the last
  | suspended
  | resumed
  -- `Stop` of the serial port handler is called
  | stop
  -- it calls `Stop` of the client
  | stopClient (client : ClientId)
  | fault (fault : Fault)
  deriving DecidableEq, Repr

abbrev Act := Action Port Output

def live (s : Port) : List ClientId := s.handlerList.filter fun c => (s.handlers c).isSome

/-- `s_bCyclicCallGuard`: a loop over the clients is running. -/
def cyclicCall (s : Port) : Bool :=
  s.calls.any fun
    | .forEach .. => true
    | _ => false

/-- Outdated entries leave the list, unless this is a cyclic call. -/
def rebuildSubscriptions (s : Port) : Port :=
  if s.cyclicCall || s.live == s.handlerList then s
  else
    { s with
      handlerList := s.live
      bufferTypeSubscribers := fun t =>
        s.live.countP fun c => (s.handlers c).any fun h => h.bufferType == t }

def modifyHandler (c : ClientId) (f : HdlcdServerHandler → HdlcdServerHandler) (s : Port) : Port :=
  { s with handlers := fun d => if d = c then (s.handlers d).map f else s.handlers d }

def eraseHandler (c : ClientId) (s : Port) : Port :=
  { s with handlers := fun d => if d = c then none else s.handlers d }

/-- `ForEachHdlcdServerHandler` with a function that concerns only the client. -/
def forEachHdlcdServerHandler
    (f : ClientId → HdlcdServerHandler → HdlcdServerHandler × List Output) : Act := fun s =>
  ({ s.rebuildSubscriptions with
      handlers := fun c =>
        if c ∈ s.live then (s.handlers c).map fun h => (f c h).1 else s.handlers c },
    s.live.flatMap fun c => (s.handlers c).elim [] fun h => (f c h).2)

def propagateSerialPortState : Act := fun s =>
  forEachHdlcdServerHandler
    (fun c h =>
      let updated := h.updateSerialPortState s.protocolState.aliveState.isAlive
        s.serialPortLock.getLockHolders
      (updated.1,
        if updated.2 then
          [.portStatus c updated.1.aliveGuard.alive updated.1.lockGuard.lockedByOthers
            updated.1.lockGuard.lockedBySelf]
        else [])) s

def requiresBufferType (s : Port) (bufferType : BufferType) : Bool :=
  s.bufferTypeSubscribers bufferType != 0

def deliverBufferToClients (bufferType : BufferType) (payload : Payload)
    (reliable invalid wasSent : Bool) : Act :=
  forEachHdlcdServerHandler fun c h =>
    (h, if h.delivers bufferType invalid wasSent then
        [.dataPacket c payload reliable invalid wasSent]
      else [])

def doRead : Act :=
  (emit [.doRead]).andThen (update fun s => { s with serialPort := s.serialPort.asyncReadSome })

def doWrite : Act := fun s =>
  let length := s.sendBuffer.drop s.sendBufferOffset
  ((emit (if s.sendBuffer.length < s.sendBufferOffset then [.doWrite, .fault .lengthUnderflow]
      else [.doWrite])).andThen
    (update fun s => { s with serialPort := s.serialPort.asyncWriteSome length })) s

def changeBaudRate : Act :=
  branch (·.registered)
    ((update fun s => { s with baudRate := s.baudRate.toggleBaudRate }).andThen
      (branch (·.serialPort.isOpen) skip (emit [.fault .portClosed]))) skip

def transmitHDLCFrame (f : HdlcFrame) (buffer : List UInt8) : Act :=
  (emit [.transmitHDLCFrame f]).andThen
  ((branch (·.sendBufferOffset == 0) skip (emit [.fault .sendBufferOffset])).andThen
  ((branch (·.serialPortLock.getSerialPortState) (emit [.fault .suspended]) skip).andThen
  ((update fun s => { s with sendBuffer := buffer }).andThen doWrite)))

def pushCall (c : Call) : Act := update fun s => { s with calls := c :: s.calls }

/-- A call that the protocol state makes on the serial port handler. That of
`QueryForPayload` is always the last one, and is left to the calls. -/
def effect : Effect → Act
  | .deliverIfRequired bufferType payload reliable invalid wasSent =>
    branch (·.requiresBufferType bufferType)
      (deliverBufferToClients bufferType payload reliable invalid wasSent) skip
  | .deliverBufferToClients bufferType payload reliable invalid wasSent =>
    deliverBufferToClients bufferType payload reliable invalid wasSent
  | .changeBaudRate => changeBaudRate
  | .propagateSerialPortState => propagateSerialPortState
  | .transmitHDLCFrame f buffer => transmitHDLCFrame f (FrameGenerator.escapeFrame buffer)
  | .queryForPayload queryReliable queryUnreliable =>
    pushCall (.queryForPayload queryReliable queryUnreliable)
  | .popFrontReliable _ => skip
  | .fault fault => emit [.fault (.protocolState fault)]

def callProtocolState (a : ProtocolState.Act) : Act := fun s =>
  run effect (a s.protocolState).2 { s with protocolState := (a s.protocolState).1 }

/-- All clients are stopped. As the serial port handler is not registered any more, their
locks are not released. -/
def stopClients : Act := fun s =>
  ({ s.rebuildSubscriptions with
    handlers := fun c => if c ∈ s.live then none else s.handlers c }, s.live.map .stopClient)

/-- `cancel` and `close` of the device. -/
def closeSerialPort : Act :=
  (branch (·.serialPort.isOpen) skip (emit [.fault .cancelClosed])).andThen
    (update fun s => { s with serialPort := s.serialPort.close })

/-- What `Stop` and a failing `OpenSerialPort` have in common. -/
def dissolve : Act := (callProtocolState ProtocolState.shutdown).andThen stopClients

def unregister : Act := update fun s => { s with registered := false }

def stop : Act :=
  (emit [.stop]).andThen
    (branch (·.registered) (unregister.andThen (closeSerialPort.andThen dissolve)) skip)

def openPort : Act := update fun s => { s with serialPort := s.serialPort.openPort }

def openSerialPort : OpenResult → Act
  | .opened =>
    openPort.andThen
      ((callProtocolState ProtocolState.start).andThen (doRead.andThen propagateSerialPortState))
  | .failed => unregister.andThen dissolve
  -- the device is not closed
  | .notConfigured => openPort.andThen (unregister.andThen dissolve)

def suspendSerialPort : Act :=
  branch (·.registered)
    (fun s =>
      let suspended := s.serialPortLock.suspendSerialPort
      ((update fun s => { s with serialPortLock := suspended.1 }).andThen
        ((if suspended.2 then
            (emit [.suspended]).andThen ((callProtocolState ProtocolState.stop).andThen closeSerialPort)
          else skip).andThen propagateSerialPortState)) s) skip

def resumeSerialPort (opens : OpenResult) : Act :=
  branch (·.registered)
    (fun s =>
      let resumed := s.serialPortLock.resumeSerialPort
      ((update fun s => { s with serialPortLock := resumed.1 }).andThen
        (if resumed.2 then (emit [.resumed]).andThen (openSerialPort opens)
          else propagateSerialPortState)) s) skip

def setLockedBySelf (lockedBySelf : Bool) (h : HdlcdServerHandler) : HdlcdServerHandler :=
  { h with lockGuard := { h.lockGuard with lockedBySelf := lockedBySelf } }

def acquireLock (c : ClientId) (h : HdlcdServerHandler) : Act :=
  if h.lockGuard.lockedBySelf then skip
  else (update (modifyHandler c (setLockedBySelf true))).andThen suspendSerialPort

def releaseLock (c : ClientId) (h : HdlcdServerHandler) (opens : OpenResult) : Act :=
  if h.lockGuard.lockedBySelf then
    (update (modifyHandler c (setLockedBySelf false))).andThen (resumeSerialPort opens)
  else skip

/-- `DeliverPayloadToHDLC`. -/
def deliverPayloadToHDLC (c : ClientId) (p : PacketData) : Act :=
  (emit [.sendPayload c p]).andThen (callProtocolState (ProtocolState.sendPayload p.data p.reliable))

/-- The packet endpoint stalls, so that it does not go on receiving. -/
def stall (c : ClientId) : Act := update fun s =>
  { modifyHandler c (fun h => { h with stalled := true }) s with
    calls := if s.calls.head? = some (.receiving c) then s.calls.tail else s.calls }

def onDataReceived (c : ClientId) (h : HdlcdServerHandler) (p : PacketData) : Act :=
  (emit [.onDataReceived c p]).andThen
  ((if h.pendingIncomingPacketData.isSome then emit [.fault .pendingPacket] else skip).andThen
  ((update (modifyHandler c fun h => { h with pendingIncomingPacketData := some p })).andThen
    -- one packet can be delivered, regardless of its kind
    (if h.serialPortHandlerAwaitsPacket then
      (update (modifyHandler c fun h => { h with serialPortHandlerAwaitsPacket := false })).andThen
        ((pushCall (.packetDelivery c)).andThen (deliverPayloadToHDLC c p))
    else stall c)))

def onCtrlReceived (c : ClientId) (h : HdlcdServerHandler) (opens : OpenResult) : Packet → Act
  | .portStatus true => acquireLock c h
  | .portStatus false => releaseLock c h opens
  | .echo => emit [.echo c]
  | .portKill => stop
  | .keepAlive | .data _ => skip

/-- The packet endpoint of the client can hand over its next packet. -/
def receives (s : Port) (c : ClientId) (h : HdlcdServerHandler) : Bool :=
  !h.stalled && (s.calls.isEmpty || s.calls.head? == some (.receiving c))

def receive (c : ClientId) (packet : Packet) (opens : OpenResult) : Act := fun s =>
  match s.handlers c with
  | none => (s, [])
  | some h =>
    if s.receives c h then
      match packet with
      | .data p => onDataReceived c h p s
      | _ => onCtrlReceived c h opens packet s
    else (s, [])

/-- The packet endpoint has no further packet at hand. -/
def endReceiving (c : ClientId) : Act :=
  branch (fun s => s.calls.head? == some (.receiving c)) (update fun s => { s with calls := s.calls.tail }) skip

def triggerNextDataPacket (c : ClientId) : Act := fun s =>
  match s.handlers c with
  | none => (s, [.fault .nullPacketEndpoint])
  | some h =>
    if h.stalled then
      ((update (modifyHandler c fun h => { h with stalled := false })).andThen (pushCall (.receiving c))) s
    else (s, [])

/-- `QueryForPayload` of one client. -/
def queryClient (queryReliable queryUnreliable : Bool) (c : ClientId) : Act := fun s =>
  match s.handlers c with
  | none => (s, [])
  | some h =>
    match h.pendingIncomingPacketData with
    | some p =>
      if queryReliable && p.reliable || queryUnreliable && !p.reliable then
        ((pushCall (.pendingDelivery c)).andThen (deliverPayloadToHDLC c p)) s
      else (s, [])
    | none =>
      ((update (modifyHandler c fun h => { h with serialPortHandlerAwaitsPacket := true })).andThen
        (triggerNextDataPacket c)) s

def clearPending (c : ClientId) : Act :=
  update (modifyHandler c fun h => { h with pendingIncomingPacketData := none })

def readBytes (s : Port) (offset bytes : Nat) : List UInt8 := (List.range' offset bytes).map s.readBuffer

/-- One round of `AddReceivedRawBytes`. -/
def addChunk (offset bytes : Nat) : Act := fun s =>
  let chunk := s.protocolState.frameParser.addChunk (s.readBytes offset bytes)
  ((update fun s => { s with protocolState := { s.protocolState with frameParser := chunk.1 } }).andThen
  ((pushCall (.addReceivedRawBytes (offset + chunk.2.2) (bytes - chunk.2.2))).andThen
    (run (fun c : Interpretation => callProtocolState
      (ProtocolState.interpretDeserializedFrame c.payload c.hdlcFrame c.messageInvalid)) chunk.2.1))) s

def resumeCall : Call → Act
  | .queryForPayload queryReliable queryUnreliable => fun s =>
    ({ s.rebuildSubscriptions with
      calls := .forEach queryReliable queryUnreliable s.live :: s.calls }, [])
  | .forEach _ _ [] => skip
  | .forEach queryReliable queryUnreliable (c :: clients) =>
    (pushCall (.forEach queryReliable queryUnreliable clients)).andThen
      (queryClient queryReliable queryUnreliable c)
  | .pendingDelivery c => (clearPending c).andThen (triggerNextDataPacket c)
  | .packetDelivery c => clearPending c
  | .receiving c => pushCall (.receiving c)
  | .addReceivedRawBytes _ 0 => skip
  | .addReceivedRawBytes offset bytes => addChunk offset bytes
  | .readHandler _ => branch (·.serialPortLock.getSerialPortState) skip doRead

/-- The innermost call goes on. -/
def proceed : Act := fun s =>
  match s.calls with
  | [] => (s, [])
  | c :: calls => resumeCall c { s with calls := calls }

def onRead (r : ReadOperation) : ReadResult → Act
  | .success bytesRead =>
    (pushCall (.readHandler r.opening)).andThen
      (branch (·.protocolState.started) (pushCall (.addReceivedRawBytes 0 bytesRead)) skip)
  | .error => branch (·.serialPortLock.getSerialPortState) skip stop

def onWrite : WriteResult → Act
  | .success bytesSent =>
    (update fun s => { s with sendBufferOffset := s.sendBufferOffset + bytesSent }).andThen
      (branch (fun s => s.sendBufferOffset == s.sendBuffer.length)
        ((update fun s => { s with sendBufferOffset := 0 }).andThen
          (branch (·.serialPortLock.getSerialPortState) skip
            ((emit [.triggerNextHDLCFrame]).andThen
              (callProtocolState ProtocolState.triggerNextHDLCFrame))))
        (branch (·.serialPortLock.getSerialPortState) skip doWrite))
  | .error => branch (·.serialPortLock.getSerialPortState) skip stop

def readHandler (i : Nat) : Act := fun s =>
  match s.serialPort.reads[i]? with
  | some r =>
    match r.result with
    | some result =>
      onRead r result
        { s with serialPort := { s.serialPort with reads := s.serialPort.reads.eraseIdx i } }
    | none => (s, [])
  | none => (s, [])

def writeHandler (i : Nat) : Act := fun s =>
  match s.serialPort.writes[i]? with
  | some w =>
    match w.result with
    | some result =>
      onWrite result
        { s with serialPort := { s.serialPort with writes := s.serialPort.writes.eraseIdx i } }
    | none => (s, [])
  | none => (s, [])

def fillReadBuffer (bytes : List UInt8) (s : Port) : Port :=
  { s with readBuffer := fun k => bytes.getD k (s.readBuffer k) }

/-- The bytes are in the read buffer before the handler runs. -/
def readCompletes (i : Nat) (completion : ReadCompletion) : Act :=
  (branch (·.serialPort.readPending i) (update (fillReadBuffer completion.bytes)) skip).andThen
    (update fun s => { s with serialPort := s.serialPort.readCompletes i completion.result })

/-- A write sends at least one byte of its buffer. -/
def validWrite (s : Port) (i : Nat) : WriteResult → Bool
  | .success bytesSent =>
    (s.serialPort.writes[i]?).any fun w => 1 ≤ bytesSent && bytesSent ≤ w.buffer.length
  | .error => true

def addHdlcdServerHandler (c : ClientId) (h : HdlcdServerHandler) : Act :=
  (update fun s =>
    { s with
      bufferTypeSubscribers := fun t =>
        if t = h.bufferType then s.bufferTypeSubscribers t + 1 else s.bufferTypeSubscribers t
      handlerList := s.handlerList ++ [c]
      handlers := fun d => if d = c then some h else s.handlers d
      connections := s.connections ++ [c] }).andThen
    (branch (·.protocolState.started) propagateSerialPortState skip)

/-- `LockGuard::Init` and the initial port status, unless the port could not be opened. -/
def initLockGuard (c : ClientId) : Act := fun s =>
  match s.handlers c with
  | none => (s, [])
  | some h =>
    ((emit (if h.lockGuard.lockedBySelf || h.lockGuard.lockedByOthers then
      [.fault .lockGuardInit] else [])).andThen propagateSerialPortState) s

/-- The first client creates the serial port handler, which has to be started. -/
def addClient (c : ClientId) (h : HdlcdServerHandler) (opens : OpenResult) : Act := fun s =>
  ((addHdlcdServerHandler c h).andThen
    ((if s.connections.isEmpty then openSerialPort opens else skip).andThen (initLockGuard c))) s

/-- A client sends its session header once. One that comes when the serial port handler is
stopped gets another one. -/
def attach (c : ClientId) (sap : UInt8) (opens : OpenResult) : Act := fun s =>
  match HdlcdServerHandler.onFrame sap with
  | none => (s, [])
  | some h =>
    if s.registered && s.calls.isEmpty && !s.connections.contains c then addClient c h opens s else (s, [])

/-- The client is stopped and gone: a held lock is released, and the last client stops the
serial port handler. -/
def disconnect (c : ClientId) (opens : OpenResult) : Act := fun s =>
  match s.handlers c with
  | none => (s, [])
  | some h =>
    if s.calls.isEmpty then
      ((update (eraseHandler c)).andThen
        ((if h.lockGuard.lockedBySelf then resumeSerialPort opens else skip).andThen
          (branch (fun s => s.live.isEmpty) stop skip))) s
    else (s, [])

inductive TimerEvent
  | timerExpires
  | timerHandler (handler : TimerHandler)
  | stateTimerExpires
  | stateTimerHandler
  | probeTimerExpires
  | probeTimerHandler
  deriving DecidableEq, Repr

def TimerEvent.localEvent : TimerEvent → LocalEvent
  | .timerExpires => .timerExpires
  | .timerHandler handler => .timerHandler handler
  | .stateTimerExpires => .stateTimerExpires
  | .stateTimerHandler => .stateTimerHandler
  | .probeTimerExpires => .probeTimerExpires
  | .probeTimerHandler => .probeTimerHandler

inductive Event
  | attach (client : ClientId) (sap : UInt8) (opens : OpenResult)
  | disconnect (client : ClientId) (opens : OpenResult)
  -- the packet endpoint hands over a packet
  | receive (client : ClientId) (packet : Packet) (opens : OpenResult)
  | endReceiving (client : ClientId)
  -- the innermost call goes on
  | proceed
  | timer (event : TimerEvent)
  -- an operation completes, and later its handler runs
  | readCompletes (i : Nat) (completion : ReadCompletion)
  | readHandler (i : Nat)
  | writeCompletes (i : Nat) (result : WriteResult)
  | writeHandler (i : Nat)
  deriving DecidableEq, Repr

/-- A new handler only runs when the last one has returned. -/
def whenIdle (a : Act) : Act := branch (·.calls.isEmpty) a skip

def step : Event → Act
  | .attach c sap opens => attach c sap opens
  | .disconnect c opens => disconnect c opens
  | .receive c packet opens => receive c packet opens
  | .endReceiving c => endReceiving c
  | .proceed => proceed
  | .timer e => whenIdle (callProtocolState (ProtocolState.handleLocal e.localEvent))
  | .readCompletes i completion => if completion.valid then readCompletes i completion else skip
  | .readHandler i => whenIdle (readHandler i)
  | .writeCompletes i result =>
    branch (fun s => s.validWrite i result)
      (update fun s => { s with serialPort := s.serialPort.writeCompletes i result }) skip
  | .writeHandler i => whenIdle (writeHandler i)

def initial : Port := {}

end Port
end Hdlcd
