import Hdlcd.Framing.ControlField
import Hdlcd.Hdlc.ProtocolState

/-! What `OpportunityForTransmission` can do: it sends an I-frame, an UI-frame, or
nothing that carries payload. Assertions that survive these three survive every handler
up to the part that is its own. -/

namespace Hdlcd.ProtocolState
open Reactive Action FrameGenerator

theorem exists_serializeFrame {f : HdlcFrame} (h : (controlField f).isSome) :
    ∃ buffer, serializeFrame f = some buffer := by
  obtain ⟨⟨c, appendPayload⟩, hc⟩ := Option.isSome_iff_exists.mp h
  exact ⟨_, serializeFrame_eq hc⟩

theorem transmitFrame_eq {f : HdlcFrame} {buffer : List UInt8} (h : serializeFrame f = some buffer)
    (s : ProtocolState) :
    transmitFrame f s =
      ({ s with awaitsNextHDLCFrame := false },
        [.deliverIfRequired .raw buffer f.isIFrame false true,
          .deliverIfRequired .dissected f.dissect f.isIFrame false true,
          .transmitHDLCFrame f buffer]) := by
  rw [transmitFrame, h]

/-- The members that only frames with payload, acknowledgements and resets change. -/
structure Kept (s s' : ProtocolState) : Prop where
  started : s'.started = s.started
  sSeqOutgoing : s'.sSeqOutgoing = s.sSeqOutgoing
  rSeqIncoming : s'.rSeqIncoming = s.rSeqIncoming
  peerStoppedFlow : s'.peerStoppedFlow = s.peerStoppedFlow
  waitForAck : s'.waitForAck = s.waitForAck
  serialPortHandler : s'.serialPortHandler = s.serialPortHandler
  frameParser : s'.frameParser = s.frameParser
  waitQueueReliable : s'.waitQueueReliable = s.waitQueueReliable
  waitQueueUnreliable : s'.waitQueueUnreliable = s.waitQueueUnreliable

def Quiet (s : ProtocolState) : Effect → Prop
  | .transmitHDLCFrame f buffer =>
    serializeFrame f = some buffer ∧
      (f.hdlcFrameType = .sRR ∧ f.rSeq = s.rSeqIncoming ∨ f.hdlcFrameType = .sSREJ ∨
        f.hdlcFrameType = .uTEST)
  | .popFrontReliable _ => False
  | _ => True

theorem Quiet.ne_iFrame {s : ProtocolState} {f : HdlcFrame} {buffer : List UInt8}
    (h : Quiet s (.transmitHDLCFrame f buffer)) : f.hdlcFrameType ≠ .i := by
  rcases h.2 with ⟨hf, _⟩ | hf | hf <;> simp [hf]

structure Steady (P : Assertion ProtocolState Effect) : Prop where
  kept : ∀ {s s' o}, P s o → Kept s s' → P s' o
  quiet : ∀ {s o x}, P s o → Quiet s x → P s (o ++ [x])

structure Stable (P : Assertion ProtocolState Effect) : Prop extends Steady P where
  iFrame : ∀ {s o front rest buffer}, P s o → s.serialPortHandler = true →
    s.waitQueueReliable = front :: rest → s.waitForAck = false → s.peerStoppedFlow = false →
    serializeFrame (s.prepareIFrame front) = some buffer →
    P { s with waitForAck := true } (o ++ [.transmitHDLCFrame (s.prepareIFrame front) buffer])
  uiFrame : ∀ {s o front rest buffer}, P s o → s.waitQueueUnreliable = front :: rest →
    serializeFrame (prepareUFrameUI front) = some buffer →
    P { s with waitQueueUnreliable := rest }
      (o ++ [.transmitHDLCFrame (prepareUFrameUI front) buffer])

section
variable {P : Assertion ProtocolState Effect} {s : ProtocolState} {o : List Effect}

theorem Steady.quiets (hP : Steady P) {xs : List Effect} (h : P s o) (hxs : ∀ x ∈ xs, Quiet s x) :
    P s (o ++ xs) := by
  induction xs generalizing o with
  | nil => rwa [List.append_nil]
  | cons x xs ih =>
    have hx := hP.quiet h (hxs x (List.mem_cons_self ..))
    have hrest := ih hx (fun y hy => hxs y (List.mem_cons_of_mem _ hy))
    rwa [List.append_assoc] at hrest

theorem Steady.emit (hP : Steady P) {xs : List Effect} (h : P s o) (hxs : ∀ x ∈ xs, Quiet s x) :
    (Action.emit xs).wp P s o := wp_emit.mpr (hP.quiets h hxs)

theorem Steady.update (hP : Steady P) {f : ProtocolState → ProtocolState} (h : P s o)
    (hf : Kept s (f s)) : (Action.update f).wp P s o := wp_update.mpr (hP.kept h hf)

theorem Steady.withSerialPortHandler (hP : Steady P) {a : Act} (h : P s o)
    (ha : s.serialPortHandler = true → a.wp P s o) : (withSerialPortHandler a).wp P s o := by
  apply wp_branch
  · exact ha
  · intro _
    apply hP.emit h
    intro x hx
    rw [List.mem_singleton.mp hx]
    trivial

theorem Steady.transmitFrame_of (hP : Steady P) {f : HdlcFrame} {buffer : List UInt8}
    (hf : serializeFrame f = some buffer) {s' : ProtocolState} (h : P s o)
    (ht : ∀ o', P s o' → P s' (o' ++ [.transmitHDLCFrame f buffer])) :
    (transmitFrame f).wp P s' o := by
  have hquiet : P s (o ++ [.deliverIfRequired .raw buffer f.isIFrame false true,
      .deliverIfRequired .dissected f.dissect f.isIFrame false true]) := by
    apply hP.quiets h
    intro x hx
    simp only [List.mem_cons, List.not_mem_nil, or_false] at hx
    rcases hx with rfl | rfl <;> trivial
  have hsent := ht _ hquiet
  rw [List.append_assoc] at hsent
  unfold wp
  rw [transmitFrame_eq hf]
  exact hP.kept hsent (by constructor <;> rfl)

theorem Steady.transmitFrame (hP : Steady P) {f : HdlcFrame} (h : P s o)
    (hc : (controlField f).isSome)
    (hf : f.hdlcFrameType = .sRR ∧ f.rSeq = s.rSeqIncoming ∨ f.hdlcFrameType = .sSREJ ∨
      f.hdlcFrameType = .uTEST) : (transmitFrame f).wp P s o := by
  obtain ⟨buffer, hbuffer⟩ := exists_serializeFrame hc
  exact hP.transmitFrame_of hbuffer h fun _ h' => hP.quiet h' ⟨hbuffer, hf⟩

theorem Steady.queryWaitQueues (hP : Steady P) (h : P s o) : queryWaitQueues.wp P s o := by
  unfold wp ProtocolState.queryWaitQueues
  dsimp only
  split_ifs
  · apply hP.withSerialPortHandler h
    intro _
    apply hP.emit h
    intro x hx
    rw [List.mem_singleton.mp hx]
    trivial
  · rwa [List.append_nil]

theorem Stable.sendUnreliable (hP : Stable P) (h : P s o) : sendUnreliable.wp P s o := by
  have hS := hP.toSteady
  unfold wp ProtocolState.sendUnreliable
  cases hq : s.waitQueueUnreliable with
  | nil => exact hS.queryWaitQueues h
  | cons front rest =>
    apply hS.withSerialPortHandler h
    intro _
    simp only [wp_andThen, wp_emit, wp_update]
    obtain ⟨buffer, hbuffer⟩ := exists_serializeFrame (f := prepareUFrameUI front) rfl
    have hdelivered : P s (o ++ [.deliverBufferToClients .payload front false false true]) :=
      hS.quiet h trivial
    exact hS.transmitFrame_of hbuffer hdelivered fun _ h' => hP.uiFrame h' hq hbuffer

theorem Steady.sendRR (hP : Steady P) (h : P s o) : sendRR.wp P s o := by
  have hsend (f : HdlcFrame) (s' : ProtocolState) (hs' : Kept s s')
      (hf : f.hdlcFrameType = .sRR ∧ f.rSeq = s'.rSeqIncoming) :
      (ProtocolState.withSerialPortHandler (ProtocolState.transmitFrame f)).wp P s' o := by
    have h' := hP.kept h hs'
    apply hP.withSerialPortHandler h'
    intro _
    exact hP.transmitFrame h' (by rw [controlField, hf.1]; rfl) (.inl hf)
  unfold wp ProtocolState.sendRR
  dsimp only
  split_ifs
  · exact hsend _ _ (by constructor <;> rfl) ⟨rfl, rfl⟩
  · exact hsend _ _ (by constructor <;> rfl) ⟨rfl, rfl⟩

theorem Stable.sendAck (hP : Stable P) (h : P s o) : sendAck.wp P s o := by
  have hS := hP.toSteady
  apply wp_branch
  · intro _
    rw [wp_andThen, wp_update]
    exact hP.sendUnreliable (hS.kept h (by constructor <;> rfl))
  · intro _
    apply wp_branch
    · intro _
      exact hS.sendRR h
    · intro _
      exact hP.sendUnreliable h

theorem Stable.sendReliable (hP : Stable P) (h : P s o) : sendReliable.wp P s o := by
  have hS := hP.toSteady
  unfold wp ProtocolState.sendReliable
  cases hq : s.waitQueueReliable with
  | nil => exact hP.sendAck h
  | cons front rest =>
    dsimp only
    split_ifs with hsend
    · simp only [Bool.and_eq_true, Bool.not_eq_true'] at hsend
      obtain ⟨hwait, hflow⟩ := hsend
      apply hS.withSerialPortHandler h
      intro hhandler
      simp only [wp_andThen, wp_emit, wp_update]
      obtain ⟨buffer, hbuffer⟩ := exists_serializeFrame (f := s.prepareIFrame front) rfl
      have hdelivered : P s (o ++ [.deliverIfRequired .payload front true false true]) :=
        hS.quiet h trivial
      refine hS.transmitFrame_of hbuffer hdelivered fun _ h' => ?_
      exact hS.kept (hP.iFrame h' hhandler hq hwait hflow hbuffer) (by constructor <;> rfl)
    · exact hP.sendAck h

theorem Stable.sendOutstanding (hP : Stable P) (h : P s o) : sendOutstanding.wp P s o := by
  have hS := hP.toSteady
  unfold wp ProtocolState.sendOutstanding
  cases s.srejs with
  | nil => exact hP.sendReliable h
  | cons front rest =>
    have h' : P { s with srejs := rest } o := hS.kept h (by constructor <;> rfl)
    apply hS.withSerialPortHandler h'
    intro _
    exact hS.transmitFrame h' rfl (.inr (.inl rfl))

theorem Stable.opportunityForTransmission (hP : Stable P) (h : P s o) :
    opportunityForTransmission.wp P s o := by
  have hS := hP.toSteady
  apply wp_branch
  · intro _
    exact wp_skip.mpr h
  intro _
  apply wp_branch
  · intro _
    rw [wp_andThen, wp_update]
    have h' : P { s with sendProbe := false } o := hS.kept h (by constructor <;> rfl)
    apply hS.withSerialPortHandler h'
    intro _
    exact hS.transmitFrame h' rfl (.inr (.inr rfl))
  intro _
  apply wp_branch
  · intro _
    exact hP.sendOutstanding h
  · intro _
    exact wp_skip.mpr h

end

end Hdlcd.ProtocolState
