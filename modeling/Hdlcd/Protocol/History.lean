import Mathlib.Data.List.DropRight
import Hdlcd.Protocol.Handlers

/-! The history of a run: which payloads were submitted, sent and removed, and what was
sent since the last start. -/

namespace Hdlcd.ProtocolState
open Reactive Action

abbrev History := List (Event ⊕ Effect)

def history (es : List Event) : History := log handle initial es

/-- The payloads passed to `SendPayload(_, reliable)`. -/
def submitted (reliable : Bool) (h : History) : List Payload :=
  h.filterMap fun
    | .inl (.internal (.sendPayload payload r)) => if r = reliable then some payload else none
    | _ => none

def removed (h : History) : List Payload :=
  h.filterMap fun
    | .inr (.popFrontReliable payload) => some payload
    | _ => none

def transmitted (h : History) : List HdlcFrame :=
  h.filterMap fun
    | .inr (.transmitHDLCFrame f _) => some f
    | _ => none

def iFrames (h : History) : List HdlcFrame := (transmitted h).filter (·.isIFrame)

def transmittedUI (h : History) : List Payload :=
  ((transmitted h).filter (·.hdlcFrameType == .uUI)).map (·.payload)

/-- The part of the history after the last `Start`. -/
def sinceStart (h : History) : History := h.rtakeWhile fun x => decide (x ≠ .inl (.internal .start))

def lastEvent (h : History) : Option Event := (h.filterMap Sum.getLeft?).getLast?

def serialized (f : HdlcFrame) : List UInt8 := (FrameGenerator.serializeFrame f).getD []

def received (f : HdlcFrame) : Event := .frame (serialized f) false

/-- Everything up to the first I-frame with this payload: the probe is sent, the peer
answers with an UI-frame. -/
def firstSent (payload : Payload) : List Event :=
  [.internal .start, .internal .triggerNextHDLCFrame,
    received { address := 0x30, hdlcFrameType := .uUI, payload := [0x55] },
    .internal (.sendPayload payload true)]

section
variable {h : History}

theorem submitted_append (r : Bool) (h h' : History) :
    submitted r (h ++ h') = submitted r h ++ submitted r h' := List.filterMap_append

theorem iFrames_append (h h' : History) : iFrames (h ++ h') = iFrames h ++ iFrames h' := by
  rw [iFrames, transmitted, List.filterMap_append, List.filter_append]
  rfl

@[simp] theorem submitted_effect (r : Bool) (x : Effect) :
    submitted r (h ++ [.inr x]) = submitted r h := by
  simp [submitted]

theorem submitted_frame (r : Bool) (buffer : List UInt8) (messageInvalid : Bool) :
    submitted r (h ++ [.inl (.frame buffer messageInvalid)]) = submitted r h := by
  simp [submitted]

@[simp] theorem removed_event (e : Event) : removed (h ++ [.inl e]) = removed h := by
  simp [removed]

@[simp] theorem iFrames_event (e : Event) : iFrames (h ++ [.inl e]) = iFrames h := by
  simp [iFrames, transmitted]

@[simp] theorem transmittedUI_event (e : Event) : transmittedUI (h ++ [.inl e]) = transmittedUI h := by
  simp [transmittedUI, transmitted]

@[simp] theorem removed_transmit (f : HdlcFrame) (buffer : List UInt8) :
    removed (h ++ [.inr (.transmitHDLCFrame f buffer)]) = removed h := by
  simp [removed]

@[simp] theorem removed_pop (payload : Payload) :
    removed (h ++ [.inr (.popFrontReliable payload)]) = removed h ++ [payload] := by
  simp [removed]

@[simp] theorem transmittedUI_pop (payload : Payload) :
    transmittedUI (h ++ [.inr (.popFrontReliable payload)]) = transmittedUI h := by
  simp [transmittedUI, transmitted]

@[simp] theorem iFrames_pop (payload : Payload) :
    iFrames (h ++ [.inr (.popFrontReliable payload)]) = iFrames h := by
  simp [iFrames, transmitted]

@[simp] theorem sinceStart_effect (x : Effect) :
    sinceStart (h ++ [.inr x]) = sinceStart h ++ [.inr x] := by
  rw [sinceStart, List.rtakeWhile_concat, if_pos (by simp), sinceStart]

@[simp] theorem sinceStart_event {e : Event} (he : e ≠ .internal .start) :
    sinceStart (h ++ [.inl e]) = sinceStart h ++ [.inl e] := by
  rw [sinceStart, List.rtakeWhile_concat, if_pos (by simpa using he), sinceStart]

theorem lastEvent_effects (o : List Effect) : lastEvent (h ++ o.map .inr) = lastEvent h := by
  have hnone : (o.map (Sum.inr : Effect → Event ⊕ Effect)).filterMap Sum.getLeft? = [] := by
    rw [List.filterMap_map]
    exact List.filterMap_eq_nil_iff.mpr fun _ _ => rfl
  rw [lastEvent, List.filterMap_append, hnone, List.append_nil, lastEvent]

@[simp] theorem lastEvent_event (e : Event) : lastEvent (h ++ [.inl e]) = some e := by
  simp [lastEvent]

theorem Quiet.removed {s : ProtocolState} {x : Effect} (hx : Quiet s x) :
    removed (h ++ [.inr x]) = removed h := by
  cases x <;> first | exact hx.elim | simp [ProtocolState.removed]

theorem Quiet.iFrames {s : ProtocolState} {x : Effect} (hx : Quiet s x) :
    iFrames (h ++ [.inr x]) = iFrames h := by
  cases x with
  | transmitHDLCFrame f buffer =>
    have hf : f.isIFrame = false := beq_eq_false_iff_ne.mpr hx.ne_iFrame
    simp [ProtocolState.iFrames, transmitted, hf]
  | _ => simp [ProtocolState.iFrames, transmitted]

theorem Quiet.transmittedUI {s : ProtocolState} {x : Effect} (hx : Quiet s x) :
    transmittedUI (h ++ [.inr x]) = transmittedUI h := by
  cases x with
  | transmitHDLCFrame f buffer =>
    have hf : (f.hdlcFrameType == .uUI) = false := by
      rcases hx.2 with ⟨hf, _⟩ | hf | hf <;> simp [hf]
    simp [ProtocolState.transmittedUI, transmitted, hf]
  | _ => simp [ProtocolState.transmittedUI, transmitted]

end

structure StableHistory (I : ProtocolState → History → Prop) : Prop where
  kept : ∀ {s s' h}, I s h → Kept s s' → I s' h
  quiet : ∀ {s h x}, I s h → Quiet s x → I s (h ++ [.inr x])
  iFrame : ∀ {s h front rest buffer}, I s h → s.serialPortHandler = true →
    s.waitQueueReliable = front :: rest → s.waitForAck = false → s.peerStoppedFlow = false →
    I { s with waitForAck := true } (h ++ [.inr (.transmitHDLCFrame (s.prepareIFrame front) buffer)])
  uiFrame : ∀ {s h front rest buffer}, I s h → s.waitQueueUnreliable = front :: rest →
    I { s with waitQueueUnreliable := rest }
      (h ++ [.inr (.transmitHDLCFrame (prepareUFrameUI front) buffer)])

theorem StableHistory.recorded {I : ProtocolState → History → Prop} (hI : StableHistory I)
    (h : History) : Stable (recorded I h) where
  kept hs hk := hI.kept hs hk
  quiet hs hx := recorded_concat.mpr (hI.quiet hs hx)
  iFrame hs hhandler hq hwait hflow _ :=
    recorded_concat.mpr (hI.iFrame hs hhandler hq hwait hflow)
  uiFrame hs hq _ := recorded_concat.mpr (hI.uiFrame hs hq)

end Hdlcd.ProtocolState
