import Mathlib.Data.List.Flatten
import Hdlcd.Port.Audience
import Hdlcd.Port.Reading

/-! Two ports on one line, from the packets that the clients of one of them submit to the
packets that a client of the other one is sent. -/

namespace Hdlcd

namespace ProtocolState
open Reactive Action FrameGenerator

theorem transmitted_serializable {s : ProtocolState} {es : List Event} {f : HdlcFrame}
    (h : f ∈ transmitted (log handle s es)) : ∃ buffer, serializeFrame f = some buffer := by
  induction es generalizing s with
  | nil => exact absurd h List.not_mem_nil
  | cons e es ih =>
    rw [log, ← List.singleton_append, transmitted_append, transmitted_append] at h
    rcases List.mem_append.mp h with hevent | h
    · exact absurd hevent List.not_mem_nil
    rcases List.mem_append.mp h with hnow | hlater
    · obtain ⟨x, hx, hf⟩ := List.mem_filterMap.mp hnow
      obtain ⟨effect, heffect, rfl⟩ := List.mem_map.mp hx
      cases effect with
      | transmitHDLCFrame f' buffer =>
        cases Option.some.inj hf
        exact ⟨buffer, serialized_of_transmitted heffect⟩
      | _ => cases hf
    · exact ih hlater

end ProtocolState

namespace Port
open Reactive Action ProtocolState FrameGenerator FrameParser Framing Replay

/-- The payloads of the packets of one kind about what the device sent. -/
def packetsReceived (reliable : Bool) (ps : List DataPacket) : List Payload :=
  ps.filterMap fun p => if !p.wasSent && p.reliable == reliable then some p.payload else none

section
variable {s : Port} {h : HdlcdServerHandler} {c : ClientId}

theorem wire_eq (fs : List HdlcFrame) : wire fs = escapedStream (fs.map serialized) := by
  rw [escapedStream, List.flatMap_map]
  rfl

theorem received_eq (s : Port) (e : Event) : s.received e =
    if s.protocolState.started then (s.interpreted e).map fun c => .received c.payload c.messageInvalid else [] := by
  have hnone : (if s.protocolState.started then [] else []) = ([] : List Traffic) := ite_self _
  cases e with
  | proceed =>
    unfold received
    dsimp only
    split
    · rename_i hcalls
      rw [interpreted_chunk hcalls]
    · rename_i hcalls
      rw [interpreted_eq_nil fun _ => hcalls]
      exact hnone.symm
  | _ => exact hnone.symm

theorem traffic_sublist {γ : Type*} {g : Traffic → List γ} (hsent : ∀ f, g (.sent f) = []) (s : Port)
    (es : List Event) : ((traffic s es).flatMap g).Sublist
      ((interpretations s es).flatMap fun c => g (.received c.payload c.messageInvalid)) := by
  induction es generalizing s with
  | nil => exact List.Sublist.refl _
  | cons e es ih =>
    have hreceived : ((s.received e).flatMap g).Sublist
        ((s.interpreted e).flatMap fun c => g (.received c.payload c.messageInvalid)) := by
      rw [received_eq]
      split_ifs
      · rw [List.flatMap_map]
      · exact List.nil_sublist _
    have hnone : ((framesSent (step e s).2).map Traffic.sent).flatMap g = [] := by
      rw [List.flatMap_map, List.flatMap_eq_nil_iff]
      exact fun f _ => hsent f
    rw [traffic, interpretations, List.flatMap_append, List.flatMap_append, List.flatMap_append, hnone,
      List.append_nil]
    exact hreceived.append (ih _)

theorem packetsReceived_filterMap (r : Bool) (g : Traffic → Option DataPacket) (l : List Traffic) :
    packetsReceived r (l.filterMap g) = l.flatMap fun x => packetsReceived r (g x).toList := by
  induction l with
  | nil => rfl
  | cons x l ih =>
    rw [List.filterMap_cons, List.flatMap_cons, ← ih]
    cases g x with
    | none => rfl
    | some p =>
      show packetsReceived r ([p] ++ l.filterMap g) = _
      exact List.filterMap_append

theorem told_sent (htype : h.bufferType = .payload) (r : Bool) (f : HdlcFrame) :
    packetsReceived r (h.told (.sent f)).toList = [] := by
  unfold HdlcdServerHandler.told HdlcdServerHandler.reads
  rw [htype]
  dsimp only
  split_ifs <;> rfl

theorem told_received (htype : h.bufferType = .payload) (r : Bool) (f : HdlcFrame) {buffer : List UInt8}
    (hbuffer : serializeFrame f = some buffer) :
    (packetsReceived r (h.told (.received buffer false)).toList).Sublist (ofKind r (userDataOn f)) := by
  rw [← payloadTaken_serialized hbuffer]
  unfold HdlcdServerHandler.told HdlcdServerHandler.reads payloadTaken
  rw [htype]
  dsimp only
  by_cases hpayload : (deserializeFrame buffer).hasPayload = true
  · rw [hpayload]
    cases h.deliverRcvd with
    | false => exact List.nil_sublist _
    | true => cases (deserializeFrame buffer).isIFrame <;> cases r <;> exact List.Sublist.refl _
  · rw [Bool.not_eq_true] at hpayload
    rw [hpayload, Bool.and_false, Bool.and_false, if_neg Bool.false_ne_true]
    exact List.nil_sublist _

theorem interpretations_append (s : Port) (es es' : List Event) :
    interpretations s (es ++ es') = interpretations s es ++ interpretations (run step es s).1 es' := by
  induction es generalizing s with
  | nil => rfl
  | cons e es ih =>
    rw [List.cons_append, interpretations, ih, interpretations, List.append_assoc]
    rfl

theorem framesSent_serialized (es : List Event) {f : HdlcFrame} (hf : f ∈ framesSent (run step es initial).2) :
    serializeFrame f = some (serialized f) := by
  obtain ⟨ps, haccount⟩ := driven_run es
  rw [← haccount.transmitted] at hf
  obtain ⟨buffer, hbuffer⟩ := transmitted_serializable hf
  rw [hbuffer, serialized, hbuffer]
  rfl

theorem acceptedBytes_unbroken (es : List Event) (ho : Unbroken (run step es initial).2) :
    acceptedBytes initial es <+: wire (framesSent (run step es initial).2) := by
  rcases run_carrying es ho with ⟨-, hnone⟩ | hcarrying
  · rw [hnone]
    exact List.nil_prefix
  · exact (hcarrying.2 ho).line.accepted.1

theorem packets_of_frames {esA : List Event} {fs : List HdlcFrame}
    (hfs : fs.Sublist (framesSent (run step esA initial).2)) (pre post : List Event) {sap : UInt8} (opens : OpenResult)
    (hsap : HdlcdServerHandler.onFrame sap = some h) (htype : h.bufferType = .payload)
    (hnew : c ∉ (run step pre initial).1.connections)
    (hstays : Stays c (step (.attach c sap opens) (run step pre initial).1).1 post)
    (hunhurried : Along step Unhurried initial (pre ++ .attach c sap opens :: post))
    (hline : bytesRead initial (pre ++ .attach c sap opens :: post) <+: wire fs) (r : Bool) :
    (packetsReceived r (dataPackets c (run step (.attach c sap opens :: post) (run step pre initial).1).2)).Sublist
      (ofKind r ((framesSent (run step esA initial).2).flatMap userDataOn)) := by
  have hserialized : ∀ f ∈ fs, serializeFrame f = some (serialized f) := fun f hf =>
    framesSent_serialized esA (hfs.subset hf)
  rw [wire_eq] at hline
  have hcalls : (interpretations (run step pre initial).1 (.attach c sap opens :: post)).Sublist
      ((fs.map serialized).map validCall) := by
    have hbuffers : Serialized (fs.map serialized) := by
      intro buffer hbuffer
      obtain ⟨f, hf, rfl⟩ := List.mem_map.mp hbuffer
      exact ⟨f, hserialized f hf⟩
    have hall := (Fed.initial.run hunhurried).sublist hbuffers hline
    rw [List.nil_append, interpretations_append] at hall
    exact (List.sublist_append_right _ _).trans hall
  have hpackets : ∀ gs : List HdlcFrame, (∀ f ∈ gs, serializeFrame f = some (serialized f)) →
      (((gs.map serialized).map validCall).flatMap fun c =>
        packetsReceived r (h.told (.received c.payload c.messageInvalid)).toList).Sublist
          (ofKind r (gs.flatMap userDataOn)) := by
    intro gs hgs
    induction gs with
    | nil => exact List.Sublist.refl _
    | cons f gs ih =>
      rw [List.flatMap_cons, ofKind_append]
      exact (told_received htype r f (hgs f (List.mem_cons_self ..))).append
        (ih fun g hg => hgs g (List.mem_cons_of_mem _ hg))
  rw [Shown.attached pre post opens hsap hnew hstays, packetsReceived_filterMap]
  have hreceived := traffic_sublist (g := fun x => packetsReceived r (h.told x).toList) (told_sent htype r)
    (run step pre initial).1 (.attach c sap opens :: post)
  have hsent := (hfs.flatMap userDataOn).filterMap fun d => if d.2 = r then some d.1 else none
  exact hreceived.trans ((hcalls.flatMap _).trans ((hpackets fs hserialized).trans hsent))

/-- Two ports on one line. A client of the second one that stays attached is sent what the
clients of the first one submitted: the reliable packets in order and repeated only in
succession, the unreliable ones in order and at most once. The first port was opened once, the
second one may be locked, stopped and opened meanwhile, and the reads may cut the bytes
anywhere, unless bytes in its read buffer are overwritten. -/
theorem arrives_in_order {esA : List Event} (hunbroken : Unbroken (run step esA initial).2) (pre post : List Event)
    {sap : UInt8} (opens : OpenResult) (hsap : HdlcdServerHandler.onFrame sap = some h)
    (htype : h.bufferType = .payload)
    (hnew : c ∉ (run step pre initial).1.connections)
    (hstays : Stays c (step (.attach c sap opens) (run step pre initial).1).1 post)
    (hunhurried : Along step Unhurried initial (pre ++ .attach c sap opens :: post))
    (hline : bytesRead initial (pre ++ .attach c sap opens :: post) <+: acceptedBytes initial esA) :
    (∃ counts, packetsReceived true
          (dataPackets c (run step (.attach c sap opens :: post) (run step pre initial).1).2) =
      replay counts (submissions true (run step esA initial).2)) ∧
    (packetsReceived false (dataPackets c (run step (.attach c sap opens :: post) (run step pre initial).1).2)).Sublist
      (submissions false (run step esA initial).2) := by
  have hpackets := packets_of_frames (List.Sublist.refl _) pre post opens hsap htype hnew hstays hunhurried
    (hline.trans (acceptedBytes_unbroken esA hunbroken))
  obtain ⟨ps, haccount⟩ := driven_run esA
  obtain ⟨t, hqueue⟩ := QueueInvariant.history ps
  have hsent (r : Bool) : ofKind r ((framesSent (run step esA initial).2).flatMap userDataOn) =
      ofKind r (sentUserData (history ps)) := by
    rw [← haccount.transmitted]
    rfl
  rw [← haccount.submitted, ← haccount.submitted]
  constructor
  · have hreliable := (hpackets true).trans (hsent true ▸ ofKind_reliable_sublist (history ps))
    obtain ⟨counts, -, -, hcounts⟩ := hqueue.replays.sublist hreliable
    exact ⟨counts, hcounts⟩
  · have hunreliable := (hpackets false).trans (hsent false ▸ ofKind_unreliable_sublist (history ps))
    rw [← hqueue.unreliable]
    exact hunreliable.trans (List.sublist_append_left _ _)

end

/-- The device of the first port becomes alive, and a client submits a reliable packet. -/
def onePacketSent : List Event :=
  .attach 0 0x00 .opened :: (oneFrame [0x7E, 0x30, 0x03, 0x01, 0x83, 0x7B, 0x7E] ++
    [.proceed, .proceed, .writeCompletes 0 (.success 6), .writeHandler 0, .proceed, .proceed, .proceed,
      .receive 0 (.data ⟨[0x41], true⟩) .opened, .proceed, .writeCompletes 0 (.success 7)])

/-- The second port reads the probe and the I-frame in one piece. -/
def onePacketRead : List Event :=
  oneFrame [0x7E, 0x30, 0xE3, 0x70, 0x6C, 0x7E, 0x7E, 0x30, 0x00, 0x41, 0xEF, 0x13, 0x7E] ++ [.proceed, .proceed]

theorem arrives_in_order_onePacket :
    (∃ counts, [[0x41]] = replay counts (submissions true (run step onePacketSent initial).2)) ∧
      packetsReceived true
        (dataPackets 0 (run step (.attach 0 0x01 .opened :: onePacketRead) initial).2) = [[0x41]] := by
  have hstays : ∀ pre ∈ onePacketRead.inits,
      ((run step pre (step (.attach 0 0x01 .opened) initial).1).1.handlers 0).isSome := by decide +kernel
  have hpackets : packetsReceived true (dataPackets 0 (run step (.attach 0 0x01 .opened :: onePacketRead) initial).2) =
      [[0x41]] := by decide +kernel
  refine ⟨?_, hpackets⟩
  rw [← hpackets]
  have hunbroken : Unbroken (run step onePacketSent initial).2 := by constructor <;> decide +kernel
  exact (arrives_in_order hunbroken [] onePacketRead (h := listener)
    (c := 0) .opened (by decide) rfl List.not_mem_nil (fun pre hpre => hstays pre ((List.mem_inits ..).mpr hpre))
    (by decide +kernel) (by decide +kernel)).1

end Port
end Hdlcd
