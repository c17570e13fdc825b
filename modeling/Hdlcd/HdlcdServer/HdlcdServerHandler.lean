import Hdlcd.Hdlc.ProtocolState
import Hdlcd.HdlcdServer.LockGuard

/-! The client side of HdlcdServerHandler.cpp: its members, the session header, and the
methods that touch nothing else. The packet endpoint is a third party: it hands over the
packets in order, and is stalled from a data packet that is not accepted at once until
`TriggerNextDataPacket`. -/

namespace Hdlcd

abbrev ClientId := Nat

/-- A data packet from a client. -/
structure PacketData where
  data : Payload
  reliable : Bool
  deriving DecidableEq, Repr

inductive Packet
  | data (packetData : PacketData)
  | portStatus (desiredLockState : Bool)
  | echo
  | portKill
  -- the other control packets are dropped
  | keepAlive
  deriving DecidableEq, Repr

structure HdlcdServerHandler where
  serialPortHandlerAwaitsPacket : Bool := true
  pendingIncomingPacketData : Option PacketData := none
  deliverInitialState : Bool := true
  aliveGuard : AliveGuard := {}
  lockGuard : LockGuard := {}
  bufferType : BufferType
  deliverSent : Bool
  deliverRcvd : Bool
  deliverInvalidData : Bool
  -- of the packet endpoint
  stalled : Bool := false
  deriving DecidableEq, Repr

namespace HdlcdServerHandler

/-- The type of data in the session header, `none` for an unknown session type. -/
def typeOfData (sap : UInt8) : Option BufferType :=
  if sap &&& 0xF0 = 0x00 then some .payload
  else if sap &&& 0xF0 = 0x10 then some .portStatus
  else if sap &&& 0xF0 = 0x20 then some .payload
  else if sap &&& 0xF0 = 0x30 then some .raw
  else if sap &&& 0xF0 = 0x40 then some .dissected
  else none

/-- The client behind a service access point specifier, `none` if it is rejected. -/
def onFrame (sap : UInt8) : Option HdlcdServerHandler :=
  match typeOfData sap with
  | none => none
  | some bufferType =>
    -- the reserved bit
    if sap &&& 0x08 ≠ 0 then none
    else some
      { bufferType := bufferType
        deliverInvalidData := sap &&& 0x04 != 0
        deliverSent := sap &&& 0x02 != 0
        deliverRcvd := sap &&& 0x01 != 0 }

/-- Whether `DeliverBufferToClient` sends the buffer. -/
def delivers (h : HdlcdServerHandler) (bufferType : BufferType) (invalid wasSent : Bool) : Bool :=
  bufferType == h.bufferType && !(wasSent && !h.deliverSent || !wasSent && !h.deliverRcvd) &&
    !(!h.deliverInvalidData && invalid)

/-- The second component tells whether a port status is sent. -/
def updateSerialPortState (alive : Bool) (lockHolders : Nat) (h : HdlcdServerHandler) :
    HdlcdServerHandler × Bool :=
  let aliveUpdate := h.aliveGuard.updateSerialPortState alive
  let lockUpdate := h.lockGuard.updateSerialPortState lockHolders
  ({ h with deliverInitialState := false, aliveGuard := aliveUpdate.1, lockGuard := lockUpdate.1 },
    h.deliverInitialState || aliveUpdate.2 || lockUpdate.2)

end HdlcdServerHandler
end Hdlcd
