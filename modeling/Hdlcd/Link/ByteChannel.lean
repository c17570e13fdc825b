import Hdlcd.Link.Link
import Hdlcd.Protocol.Reception

/-! What the channels of a link carry are serialized frames, and their delivery is the
reception of their escaped bytes. -/

namespace Hdlcd.Link
open Reactive Action FrameGenerator FrameParser

/-- Both parsers wait for a frame, and both channels carry serialized frames. -/
structure Framed (l : Link) : Prop where
  parserA : l.a.frameParser = FrameParser.reset
  parserB : l.b.frameParser = FrameParser.reset
  ab : ∀ buffer ∈ l.ab, ∃ f, serializeFrame f = some buffer
  ba : ∀ buffer ∈ l.ba, ∃ f, serializeFrame f = some buffer

namespace Framed

variable {l : Link}

theorem serialized_of_mem_buffers {s : ProtocolState} {o : List Effect} (h : s.Framed o)
    {buffer : List UInt8} (hmem : buffer ∈ buffers o) : ∃ f, serializeFrame f = some buffer := by
  obtain ⟨x, hx, hbuffer⟩ := List.mem_filterMap.mp hmem
  cases x with
  | transmitHDLCFrame f buffer' =>
    obtain rfl := Option.some.inj hbuffer
    exact ⟨f, h.2 f buffer' hx⟩
  | _ => exact absurd hbuffer (Option.some_ne_none _).symm

theorem actA (h : Framed l) (e : Event) : Framed (actA (ProtocolState.handle e) l).1 := by
  have hhandled := ProtocolState.handle_framed h.parserA e
  refine ⟨hhandled.1, h.parserB, fun buffer hmem => ?_, h.ba⟩
  rcases List.mem_append.mp hmem with hold | hnew
  · exact h.ab buffer hold
  · exact serialized_of_mem_buffers hhandled hnew

theorem actB (h : Framed l) (e : Event) : Framed (actB (ProtocolState.handle e) l).1 := by
  have hhandled := ProtocolState.handle_framed h.parserB e
  refine ⟨h.parserA, hhandled.1, h.ab, fun buffer hmem => ?_⟩
  rcases List.mem_append.mp hmem with hold | hnew
  · exact h.ba buffer hold
  · exact serialized_of_mem_buffers hhandled hnew

theorem lose (h : Framed l) {ab ba : List (List UInt8)} (hab : ab.Sublist l.ab)
    (hba : ba.Sublist l.ba) : Framed { l with ab := ab, ba := ba } :=
  ⟨h.parserA, h.parserB, fun buffer hmem => h.ab buffer (hab.subset hmem),
    fun buffer hmem => h.ba buffer (hba.subset hmem)⟩

theorem deliverToA (h : Framed l) : Framed (deliverToA l).1 := by
  rcases hba : l.ba with _ | ⟨buffer, rest⟩
  · rw [deliverToA_nil hba]
    exact h
  · have hrest : Framed { l with ba := rest } :=
      h.lose (List.Sublist.refl _) (hba ▸ List.sublist_cons_self ..)
    rw [deliverToA_cons hba, branch]
    split_ifs
    · exact hrest.actA (.frame buffer false)
    · exact hrest

theorem deliverToB (h : Framed l) : Framed (deliverToB l).1 := by
  rcases hab : l.ab with _ | ⟨buffer, rest⟩
  · rw [deliverToB_nil hab]
    exact h
  · have hrest : Framed { l with ab := rest } :=
      h.lose (hab ▸ List.sublist_cons_self ..) (List.Sublist.refl _)
    rw [deliverToB_cons hab, branch]
    split_ifs
    · exact hrest.actB (.frame buffer false)
    · exact hrest

theorem handle (h : Framed l) (e : LinkEvent) : Framed (handle e l).1 := by
  cases e with
  | a event => exact h.actA (.internal event)
  | b event => exact h.actB (.internal event)
  | deliverToA => exact h.deliverToA
  | deliverToB => exact h.deliverToB
  | dropAB i => exact h.lose (List.eraseIdx_sublist ..) (List.Sublist.refl _)
  | dropBA i => exact h.lose (List.Sublist.refl _) (List.eraseIdx_sublist ..)
  | aliveA eAliveState => exact ⟨h.parserA, h.parserB, h.ab, h.ba⟩
  | aliveB eAliveState => exact ⟨h.parserA, h.parserB, h.ab, h.ba⟩

theorem run (es : List LinkEvent) : Framed (run Link.handle es freshlyStarted).1 := by
  have hempty : Framed
      { a := ProtocolState.initial, b := ProtocolState.initial, ab := [], ba := [] } :=
    ⟨rfl, rfl, fun _ hmem => absurd hmem List.not_mem_nil, fun _ hmem => absurd hmem List.not_mem_nil⟩
  have hstarted : Framed freshlyStarted := (hempty.handle (.a .start)).handle (.b .start)
  exact run_invariant Link.handle (C := fun _ _ => True) (fun _ e _ h => h.handle e) hstarted
    (along_of_forall _ (fun _ _ _ => trivial) _)

end Framed

theorem deliverToA_bytes (es : List LinkEvent) {buffer : List UInt8} {rest : List (List UInt8)}
    (h : (run handle es freshlyStarted).1.ba = buffer :: rest) (hfit : buffer.length ≤ maxLength) :
    (deliverToA (run handle es freshlyStarted).1).1 =
      (actA (ProtocolState.addReceivedRawBytes (escapeFrame buffer))
        { (run handle es freshlyStarted).1 with ba := rest }).1 := by
  have hframed := Framed.run es
  obtain ⟨f, hbuffer⟩ := hframed.ba buffer (h ▸ List.mem_cons_self ..)
  have hbytes := ProtocolState.addReceivedRawBytes_escapeFrame hframed.parserA hbuffer hfit
  rw [deliverToA_cons h, branch]
  split_ifs with hstarted
  · simp only [actA, andThen_apply, emit, hbytes]
  · have hignored := ProtocolState.handle_frame_stopped hstarted buffer false
    simp only [actA, skip, hbytes, hignored, buffers, List.filterMap_nil, List.append_nil]

theorem deliverToB_bytes (es : List LinkEvent) {buffer : List UInt8} {rest : List (List UInt8)}
    (h : (run handle es freshlyStarted).1.ab = buffer :: rest) (hfit : buffer.length ≤ maxLength) :
    (deliverToB (run handle es freshlyStarted).1).1 =
      (actB (ProtocolState.addReceivedRawBytes (escapeFrame buffer))
        { (run handle es freshlyStarted).1 with ab := rest }).1 := by
  have hframed := Framed.run es
  obtain ⟨f, hbuffer⟩ := hframed.ab buffer (h ▸ List.mem_cons_self ..)
  have hbytes := ProtocolState.addReceivedRawBytes_escapeFrame hframed.parserB hbuffer hfit
  rw [deliverToB_cons h, branch]
  split_ifs with hstarted
  · simp only [actB, andThen_apply, emit, hbytes]
  · have hignored := ProtocolState.handle_frame_stopped hstarted buffer false
    simp only [actB, skip, hbytes, hignored, buffers, List.filterMap_nil, List.append_nil]

end Hdlcd.Link
