import Hdlcd.Framing.Wire
import Hdlcd.Protocol.Handlers

/-! Received bytes are frame events, one for each call of the parser. -/

namespace Hdlcd.ProtocolState
open Reactive Action FrameGenerator FrameParser Framing

theorem removeEscapeCharacters_call {buffer : List UInt8} {c : Interpretation}
    (h : c ∈ (removeEscapeCharacters buffer).2.1) : c.hdlcFrame = deserializeFrame c.payload := by
  unfold removeEscapeCharacters at h
  dsimp only at h
  split_ifs at h
  · exact absurd h List.not_mem_nil
  · exact absurd h List.not_mem_nil
  · rw [List.mem_singleton.mp h]

theorem addChunk_call {p : FrameParser} {bytes : List UInt8} {c : Interpretation}
    (h : c ∈ (p.addChunk bytes).2.1) : c.hdlcFrame = deserializeFrame c.payload := by
  unfold addChunk at h
  cases hidx : bytes.idxOf? 0x7E with
  | none =>
    simp only [hidx] at h
    split_ifs at h <;> exact absurd h List.not_mem_nil
  | some endToken =>
    simp only [hidx] at h
    split_ifs at h
    · exact absurd h List.not_mem_nil
    · exact removeEscapeCharacters_call h
    · exact absurd h List.not_mem_nil

theorem addChunk_calls (p : FrameParser) (bytes : List UInt8) :
    (p.addChunk bytes).2.1 = [] ∨ ∃ c, (p.addChunk bytes).2.1 = [c] := by
  have hremoved (buffer : List UInt8) : (removeEscapeCharacters buffer).2.1 = [] ∨
      ∃ c, (removeEscapeCharacters buffer).2.1 = [c] := by
    unfold removeEscapeCharacters
    dsimp only
    split_ifs
    · exact .inl rfl
    · exact .inl rfl
    · exact .inr ⟨_, rfl⟩
  unfold addChunk
  cases bytes.idxOf? 0x7E with
  | none => split_ifs <;> exact .inl rfl
  | some endToken =>
    dsimp only
    split_ifs
    · exact .inl rfl
    · exact hremoved _
    · exact .inl rfl

theorem addReceivedRawBytes_call {p : FrameParser} {bytes : List UInt8} {c : Interpretation}
    (h : c ∈ (p.addReceivedRawBytes bytes).2) : c.hdlcFrame = deserializeFrame c.payload := by
  induction p, bytes using FrameParser.addReceivedRawBytes.induct with
  | case1 p =>
    rw [FrameParser.addReceivedRawBytes, dif_pos rfl] at h
    exact absurd h List.not_mem_nil
  | case2 p bytes hne chunk ih =>
    rw [FrameParser.addReceivedRawBytes, dif_neg hne] at h
    rcases List.mem_append.mp h with hchunk | hrest
    · exact addChunk_call hchunk
    · exact ih hrest

theorem addReceivedRawBytes_eq_run {s : ProtocolState} (h : s.started = true) (bytes : List UInt8) :
    s.addReceivedRawBytes bytes =
      run handle ((s.frameParser.addReceivedRawBytes bytes).2.map fun c => .frame c.payload c.messageInvalid)
        { s with frameParser := (s.frameParser.addReceivedRawBytes bytes).1 } := by
  rw [addReceivedRawBytes, if_neg (by simp [h]), run_map]
  refine congrFun (run_congr _ fun c hc => ?_) _
  rw [handle, addReceivedRawBytes_call hc]

theorem handle_frame_stopped {s : ProtocolState} (h : ¬ s.started = true) (buffer : List UInt8)
    (messageInvalid : Bool) : handle (.frame buffer messageInvalid) s = (s, []) := by
  simp [handle, interpretDeserializedFrame, branch, skip, h]

/-- The bytes of a frame that is sent are one frame event, and the parser waits for the
next frame. -/
theorem addReceivedRawBytes_escapeFrame {s : ProtocolState} (hidle : s.frameParser = FrameParser.reset)
    {f : HdlcFrame} {buffer : List UInt8} (hbuffer : serializeFrame f = some buffer)
    (hfit : buffer.length ≤ maxLength) :
    s.addReceivedRawBytes (escapeFrame buffer) = handle (.frame buffer false) s := by
  by_cases hstarted : s.started = true
  · have hparsed : s.frameParser.addReceivedRawBytes (escapeFrame buffer) =
        (FrameParser.reset, [validCall buffer]) := by
      rw [hidle, ← parser_hunting, addReceivedRawBytes_phase,
        feed_escapeFrame_idle hbuffer idle_hunting, if_pos hfit]
    have hsame : { s with frameParser := FrameParser.reset } = s := by rw [← hidle]
    rw [addReceivedRawBytes_eq_run hstarted, hparsed, hsame]
    exact congrFun (run_singleton _ _) s
  · rw [handle_frame_stopped hstarted, addReceivedRawBytes, if_pos (by simpa using hstarted)]

def Framed : Assertion ProtocolState Effect := fun s o =>
  s.frameParser = FrameParser.reset ∧
    ∀ f buffer, .transmitHDLCFrame f buffer ∈ o → serializeFrame f = some buffer

theorem Framed.concat {s : ProtocolState} {o : List Effect} {x : Effect} (h : Framed s o)
    (hx : ∀ f buffer, x = .transmitHDLCFrame f buffer → serializeFrame f = some buffer) :
    Framed s (o ++ [x]) := by
  refine ⟨h.1, fun f buffer hmem => ?_⟩
  rcases List.mem_append.mp hmem with hold | hnew
  · exact h.2 f buffer hold
  · exact hx f buffer (List.mem_singleton.mp hnew).symm

theorem stable_framed : Stable Framed where
  kept h hk := ⟨hk.frameParser.trans h.1, h.2⟩
  quiet h hx := h.concat fun f buffer heq => by
    subst heq
    exact hx.1
  iFrame {s o front rest buffer} h _ _ _ _ hbuffer := by
    have hsent : Framed { s with waitForAck := true } o := h
    refine hsent.concat fun f buffer' heq => ?_
    obtain ⟨rfl, rfl⟩ := Effect.transmitHDLCFrame.inj heq
    exact hbuffer
  uiFrame {s o front rest buffer} h _ hbuffer := by
    have hsent : Framed { s with waitQueueUnreliable := rest } o := h
    refine hsent.concat fun f buffer' heq => ?_
    obtain ⟨rfl, rfl⟩ := Effect.transmitHDLCFrame.inj heq
    exact hbuffer

theorem handle_framed {s : ProtocolState} (h : s.frameParser = FrameParser.reset) (e : Event) :
    (handle e).wp Framed s [] := by
  have hsteady := stable_framed.toSteady
  have hnone (t : ProtocolState) (ht : t.frameParser = FrameParser.reset) : Framed t [] :=
    ⟨ht, fun _ _ hmem => absurd hmem List.not_mem_nil⟩
  cases e with
  | internal e =>
    apply stable_framed.handleLocal
    refine prologue_cases (Q := fun t => Framed t []) ?_ ?_ ?_ ?_
    · exact fun _ _ _ _ _ => hnone _ rfl
    · intro payload reliable _
      cases reliable <;> exact hnone _ h
    · exact fun _ => hnone _ h
    · exact fun _ _ => hnone _ h
  | frame buffer messageInvalid =>
    refine stable_framed.interpretDeserializedFrame hsteady hsteady (fun _ _ _ h' => h') ?_ ?_ (hnone s h)
    · intro _ t o ht
      unfold afterPayload
      split_ifs <;> exact ht
    · intro _ t o ht
      refine ⟨fun front rest b _ _ _ _ => ?_, fun _ _ _ => ht⟩
      exact Framed.concat ht fun _ _ heq => Effect.noConfusion heq

end Hdlcd.ProtocolState
