import Hdlcd.Hdlc.FrameGenerator

/-! The receive side of FrameParser.cpp: chunk reassembly, unstuffing, the check
sequence test and deserialization. A call of `InterpretDeserializedFrame` is an
output of the parser. -/

namespace Hdlcd

structure Interpretation where
  payload : List UInt8
  hdlcFrame : HdlcFrame
  messageInvalid : Bool
  deriving DecidableEq, Repr

structure FrameParser where
  buffer : List UInt8
  startTokenSeen : Bool
  deriving DecidableEq, Repr

namespace FrameParser
open FCS16

def maxLength : Nat := 1024

def reset : FrameParser := { buffer := [0x7E], startTokenSeen := false }

def uFrameType (ucType : UInt8) : FrameType :=
  if ucType = 0b00000 then .uUI
  else if ucType = 0b00001 then .uSIM
  else if ucType = 0b00011 then .uSARM
  else if ucType = 0b00100 then .uUP
  else if ucType = 0b00111 then .uSABM
  else if ucType = 0b01000 then .uDISC
  else if ucType = 0b01100 then .uUA
  else if ucType = 0b10000 then .uSNRM
  else if ucType = 0b10001 then .uCMDR
  else if ucType = 0b11100 then .uTEST
  else if ucType = 0b11101 then .uXID
  else .unset

def sFrameType (ucType : UInt8) : FrameType :=
  if ucType = 0x00 then .sRR
  else if ucType = 0x01 then .sRNR
  else if ucType = 0x02 then .sREJ
  else .sSREJ

def appendsPayload : FrameType → Bool
  | .uUI | .uCMDR | .uTEST | .uXID => true
  | _ => false

/-- Everything but the address and the payload, from the control field alone. -/
def deserializeControl (ucCtrl : UInt8) : HdlcFrame × Bool :=
  let f : HdlcFrame := { pf := (ucCtrl &&& 0x10) >>> 4 != 0 }
  if ucCtrl &&& 0x01 = 0 then
    ({ f with
        hdlcFrameType := .i
        sSeq := (ucCtrl &&& 0x0E) >>> 1
        rSeq := (ucCtrl &&& 0xE0) >>> 5 }, true)
  else if ucCtrl &&& 0x02 = 0 then
    ({ f with
        rSeq := (ucCtrl &&& 0xE0) >>> 5
        hdlcFrameType := sFrameType ((ucCtrl &&& 0x0c) >>> 2) }, false)
  else
    let hdlcFrameType := uFrameType (((ucCtrl &&& 0x0c) >>> 2) ||| ((ucCtrl &&& 0xe0) >>> 3))
    ({ f with hdlcFrameType := hdlcFrameType }, appendsPayload hdlcFrameType)

/-- Reads `unescapedBuffer[1]`, `unescapedBuffer[2]` and the bytes up to the check
sequence; the callers guarantee six bytes. -/
def deserializeFrame (unescapedBuffer : List UInt8) : HdlcFrame :=
  match unescapedBuffer with
  | _ :: address :: ucCtrl :: rest =>
    let control := deserializeControl ucCtrl
    { control.1 with
      address := address
      payload := if control.2 then rest.take (rest.length - 3) else [] }
  | _ => {}

/-- The unescaped bytes, and whether an illegal escape sequence was met. The source
never calls it with the escape character in last position. -/
def unescape : List UInt8 → List UInt8 × Bool
  | [] => ([], false)
  | [b] => if b = 0x7D then ([], true) else ([b], false)
  | b :: c :: rest =>
    if b = 0x7D then
      if c = 0x5E then (0x7E :: (unescape rest).1, (unescape rest).2)
      else if c = 0x5D then (0x7D :: (unescape rest).1, (unescape rest).2)
      else (c :: (unescape rest).1, true)
    else (b :: (unescape (c :: rest)).1, (unescape (c :: rest)).2)

/-- An escape character right before the closing flag is illegal and leaves the buffer as
it is; otherwise the escape sequences are removed. -/
def unescapeBuffer (buffer : List UInt8) : List UInt8 × Bool :=
  if buffer.getD (buffer.length - 2) 0 = 0x7D then (buffer, true) else unescape buffer

/-- The new `m_Buffer`, the call that is made, and the return value. -/
def removeEscapeCharacters (buffer : List UInt8) : List UInt8 × List Interpretation × Bool :=
  if buffer.length = 2 then (buffer, [], false)
  else
    let unescaped := unescapeBuffer buffer
    if unescaped.1.length < 6 ∨ unescaped.1.length > maxLength then (unescaped.1, [], false)
    else
      let messageInvalid := unescaped.2 ||
        pppfcs16 pppInitFcs16 ((unescaped.1.drop 1).dropLast) != pppGoodFcs16
      (unescaped.1, [⟨unescaped.1, deserializeFrame unescaped.1, messageInvalid⟩], !messageInvalid)

/-- One pass over the offered bytes: the parser, the call that is made, and the number
of bytes consumed. -/
def addChunk (p : FrameParser) (bytes : List UInt8) :
    FrameParser × List Interpretation × Nat :=
  if p.startTokenSeen = false then
    match bytes.idxOf? 0x7E with
    | some startToken => ({ p with startTokenSeen := true }, [], startToken + 1)
    | none => (p, [], bytes.length)
  else
    match bytes.idxOf? 0x7E with
    | some endToken =>
      let nbrOfBytes := endToken + 1
      if p.buffer.length + nbrOfBytes ≤ 2 * maxLength then
        let removed := removeEscapeCharacters (p.buffer ++ bytes.take nbrOfBytes)
        ({ buffer := removed.1.take 1, startTokenSeen := !removed.2.2 }, removed.2.1, nbrOfBytes)
      else ({ p with buffer := p.buffer.take 1 }, [], nbrOfBytes)
    | none =>
      if p.buffer.length + bytes.length > 2 * maxLength then
        ({ buffer := p.buffer.take 1, startTokenSeen := false }, [], bytes.length)
      else ({ p with buffer := p.buffer ++ bytes }, [], bytes.length)

theorem addChunk_consumed (p : FrameParser) {bytes : List UInt8} (h : bytes ≠ []) :
    1 ≤ (p.addChunk bytes).2.2 ∧ (p.addChunk bytes).2.2 ≤ bytes.length := by
  have hlen : 1 ≤ bytes.length := List.length_pos_iff.mpr h
  unfold addChunk
  cases hidx : bytes.idxOf? 0x7E with
  | none => split_ifs <;> exact ⟨hlen, le_refl _⟩
  | some i =>
    have hi : i < bytes.length := (List.idxOf?_eq_some_iff.mp hidx).1
    dsimp only
    split_ifs <;> exact ⟨Nat.le_add_left 1 i, hi⟩

def addReceivedRawBytes (p : FrameParser) (bytes : List UInt8) :
    FrameParser × List Interpretation :=
  if _ : bytes = [] then (p, [])
  else
    let chunk := p.addChunk bytes
    let rest := chunk.1.addReceivedRawBytes (bytes.drop chunk.2.2)
    (rest.1, chunk.2.1 ++ rest.2)
termination_by bytes.length
decreasing_by
  have hc := addChunk_consumed p (by assumption)
  rw [List.length_drop]
  omega

def addReceivedChunks (p : FrameParser) : List (List UInt8) → FrameParser × List Interpretation
  | [] => (p, [])
  | chunk :: chunks =>
    let first := p.addReceivedRawBytes chunk
    let rest := first.1.addReceivedChunks chunks
    (rest.1, first.2 ++ rest.2)

end FrameParser
end Hdlcd
