import Mathlib.Data.List.Basic

/-! HDLC frames as HdlcFrame.h holds them, with the text that Dissect() prints. -/

namespace Hdlcd

inductive FrameType
  | unset
  | i
  | sRR | sRNR | sREJ | sSREJ
  | uUI | uSIM | uSARM | uUP | uSABM | uDISC | uUA | uSNRM | uCMDR | uTEST | uXID
  deriving DecidableEq, Repr

structure HdlcFrame where
  address : UInt8 := 0
  hdlcFrameType : FrameType := .unset
  pf : Bool := false
  rSeq : UInt8 := 0
  sSeq : UInt8 := 0
  payload : List UInt8 := []
  deriving DecidableEq, Repr

namespace HdlcFrame

def isEmpty (f : HdlcFrame) : Bool := f.hdlcFrameType == .unset

def isIFrame (f : HdlcFrame) : Bool := f.hdlcFrameType == .i

def isSFrame (f : HdlcFrame) : Bool :=
  match f.hdlcFrameType with
  | .sRR | .sRNR | .sREJ | .sSREJ => true
  | _ => false

def isUFrame (f : HdlcFrame) : Bool :=
  match f.hdlcFrameType with
  | .uUI | .uSIM | .uSARM | .uUP | .uSABM | .uDISC | .uUA | .uSNRM | .uCMDR | .uTEST | .uXID => true
  | _ => false

def hasPayload (f : HdlcFrame) : Bool := !f.payload.isEmpty

def decimal (n : Nat) : String := toString n

def hex (n : Nat) : String := String.ofList (Nat.toDigits 16 n)

/-- `std::setw(2)` with fill character `0`. -/
def hex2 (n : Nat) : String := if n < 16 then "0" ++ hex n else hex n

def flag (b : Bool) : String := if b then "1" else "0"

def sFrameName : FrameType → String
  | .sRR => "RR"
  | .sRNR => "RNR"
  | .sREJ => "REJ"
  | .sSREJ => "SREJ"
  | _ => ""

def uFrameName : FrameType → String
  | .uUI => "UI"
  | .uSIM => "SIM"
  | .uSARM => "SARM"
  | .uUP => "UP"
  | .uSABM => "SABM"
  | .uDISC => "DISC"
  | .uUA => "UA"
  | .uSNRM => "SNRM"
  | .uCMDR => "FRMR/CMDR"
  | .uTEST => "TEST"
  | .uXID => "XID"
  | _ => ""

def printsPayload (f : HdlcFrame) : Bool :=
  match f.hdlcFrameType with
  | .i | .uUI | .uCMDR | .uTEST | .uXID => true
  | _ => false

def dissectText (f : HdlcFrame) : String :=
  let header :=
    if f.isIFrame then
      "HDLC frame, Addr=0x" ++ hex f.address.toNat ++ ", I-Frame, PF=" ++ flag f.pf ++
        ", SSeq=" ++ decimal f.sSeq.toNat ++ ", RSeq=" ++ decimal f.rSeq.toNat
    else if f.isSFrame then
      "HDLC frame, Addr=0x" ++ hex f.address.toNat ++ ", S-Frame: " ++ sFrameName f.hdlcFrameType ++
        ", PF=" ++ flag f.pf ++ ", RSeq=" ++ decimal f.rSeq.toNat
    else if f.isUFrame then
      "HDLC frame, Addr=0x" ++ hex f.address.toNat ++ ", U-Frame: " ++ uFrameName f.hdlcFrameType ++
        ", PF=" ++ flag f.pf
    else "Unparseable HDLC frame"
  if f.printsPayload then
    header ++ ", with " ++ decimal f.payload.length ++ " bytes payload:" ++
      String.join (f.payload.map fun b => " " ++ hex2 b.toNat)
  else header

def dissect (f : HdlcFrame) : List UInt8 :=
  f.dissectText.toList.map fun c => UInt8.ofNat c.toNat

end HdlcFrame
end Hdlcd
