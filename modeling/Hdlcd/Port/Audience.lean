import Hdlcd.Port.Sniffers

/-! What any client is sent: one packet for each frame of the traffic that its session shows,
whether it listens to user data, to raw or to dissected frames. -/

namespace Hdlcd

namespace HdlcdServerHandler

def reads (h : HdlcdServerHandler) : Traffic → Option DataPacket
  | .sent f =>
    if h.deliverSent && f.carriesUserData then some ⟨f.payload, f.isIFrame, false, true⟩ else none
  | .received buffer messageInvalid =>
    let f := FrameParser.deserializeFrame buffer
    if h.deliverRcvd && (!messageInvalid && f.hasPayload) then some ⟨f.payload, f.isIFrame, false, false⟩
    else none

/-- The packet about a frame for any session. -/
def told (h : HdlcdServerHandler) (x : Traffic) : Option DataPacket :=
  match h.bufferType with
  | .raw | .dissected => h.delivered x
  | .payload => h.reads x
  | .portStatus => none

end HdlcdServerHandler

namespace ProtocolState
open Reactive Action FrameGenerator FrameParser

/-- The calls of the protocol state about one frame make the packet of `shows`. -/
structure Presents (h : HdlcdServerHandler) (shows : Traffic → Option DataPacket) : Prop where
  sent : ∀ {f buffer}, serializeFrame f = some buffer →
    (handover f buffer).filterMap (packetOf h) = (shows (.sent f)).toList
  received : ∀ {s : ProtocolState}, (s.started = true → s.serialPortHandler = true) →
    ∀ buffer messageInvalid, (prepareFrame buffer messageInvalid s).effects.filterMap (packetOf h) =
      (if s.started then [Traffic.received buffer messageInvalid] else []).filterMap shows

section
variable {h : HdlcdServerHandler} {shows : Traffic → Option DataPacket} {s : ProtocolState}

theorem filterMap_singleton_toList {α β : Type*} (g : α → Option β) (a : α) :
    [a].filterMap g = (g a).toList := by
  cases hg : g a <;> simp [hg]

theorem presents_sniffed (hsniffs : h.Sniffs) : Presents h h.delivered where
  sent hf := by rw [packetOf_handover hsniffs hf, filterMap_singleton_toList]
  received hset buffer messageInvalid := prepareFrame_packets hsniffs hset buffer messageInvalid

theorem prepareFrame_effects (hset : s.started = true → s.serialPortHandler = true) (buffer : List UInt8)
    (messageInvalid : Bool) : ∃ before after, (∀ x ∈ before ++ after, Plain x) ∧
      (prepareFrame buffer messageInvalid s).effects = if s.started then
        frameCopies buffer messageInvalid ++ if messageInvalid then [] else
          before ++ ((receivePayload (deserializeFrame buffer) (frameReceived s).1).2 ++ after)
      else [] := by
  refine ⟨(frameReceived s).2,
    (checkAcks (deserializeFrame buffer) (afterReceive (deserializeFrame buffer) s)).2, ?_, ?_⟩
  · intro x hx
    rcases List.mem_append.mp hx with hx | hx
    · unfold frameReceived at hx
      dsimp only at hx
      split_ifs at hx
      · rw [List.mem_singleton.mp hx]
        trivial
      · exact absurd hx List.not_mem_nil
    · have hpop := checkAcks_pops _ _ x hx
      cases x with
      | popFrontReliable | fault => trivial
      | _ => exact hpop.elim
  · unfold prepareFrame
    cases hstarted : s.started with
    | false => rfl
    | true =>
      rw [hset hstarted]
      cases messageInvalid with
      | true => exact (List.append_nil _).symm
      | false => rfl

theorem packetOf_copies_of_ne (hraw : h.bufferType ≠ .raw) (hdissected : h.bufferType ≠ .dissected)
    (raw dissected : Payload) (reliable invalid wasSent : Bool) :
    [Effect.deliverIfRequired .raw raw reliable invalid wasSent,
      .deliverIfRequired .dissected dissected reliable invalid wasSent].filterMap (packetOf h) = [] := by
  have hother {t : BufferType} (ht : h.bufferType ≠ t) : h.delivers t invalid wasSent = false := by
    have hne : (t == h.bufferType) = false := beq_eq_false_iff_ne.mpr (Ne.symm ht)
    rw [HdlcdServerHandler.delivers, hne, Bool.false_and, Bool.false_and]
  simp [packetOf, hother hraw, hother hdissected]

theorem delivers_payload (htype : h.bufferType = .payload) (wasSent : Bool) :
    h.delivers .payload false wasSent = if wasSent then h.deliverSent else h.deliverRcvd := by
  unfold HdlcdServerHandler.delivers
  rw [htype]
  cases wasSent <;> simp

theorem packetOf_payloadCopy (htype : h.bufferType = .payload) (f : HdlcFrame) :
    (payloadCopy f).filterMap (packetOf h) = (h.reads (.sent f)).toList := by
  have hsent : h.delivers .payload false true = h.deliverSent := delivers_payload htype true
  unfold payloadCopy HdlcdServerHandler.reads
  dsimp only
  split
  · rename_i hi
    have hf : f.isIFrame = true ∧ f.carriesUserData = true := by
      simp [HdlcFrame.carriesUserData, HdlcFrame.isIFrame, hi]
    rw [filterMap_singleton_toList, packetOf, hsent, hf.1, hf.2, Bool.and_true]
  · rename_i hui
    have hf : f.isIFrame = false ∧ f.carriesUserData = true := by
      simp [HdlcFrame.carriesUserData, HdlcFrame.isIFrame, hui]
    rw [filterMap_singleton_toList, packetOf, hsent, hf.1, hf.2, Bool.and_true]
  · rename_i hi hui
    have hf : f.carriesUserData = false :=
      Bool.or_eq_false_iff.mpr ⟨beq_eq_false_iff_ne.mpr hi, beq_eq_false_iff_ne.mpr hui⟩
    rw [hf, Bool.and_false, if_neg Bool.false_ne_true]
    rfl

theorem packetOf_receivePayload (htype : h.bufferType = .payload) (f : HdlcFrame) (s : ProtocolState) :
    (receivePayload f s).2.filterMap (packetOf h) =
      if h.deliverRcvd && f.hasPayload then [⟨f.payload, f.isIFrame, false, false⟩] else [] := by
  have hrcvd : h.delivers .payload false false = h.deliverRcvd := delivers_payload htype false
  have hpacket : [Effect.deliverIfRequired .payload f.payload f.isIFrame false false].filterMap
      (packetOf h) = if h.deliverRcvd then [⟨f.payload, f.isIFrame, false, false⟩] else [] := by
    rw [filterMap_singleton_toList, packetOf, hrcvd]
    split_ifs <;> rfl
  unfold receivePayload
  cases f.hasPayload with
  | false => rw [Bool.and_false, if_neg Bool.false_ne_true, if_neg Bool.false_ne_true]; rfl
  | true =>
    rw [if_pos rfl, Bool.and_true, ← hpacket]
    split_ifs <;> rfl

theorem packetOf_handover_of_ne (hraw : h.bufferType ≠ .raw) (hdissected : h.bufferType ≠ .dissected)
    (f : HdlcFrame) (buffer : List UInt8) :
    (handover f buffer).filterMap (packetOf h) = (payloadCopy f).filterMap (packetOf h) := by
  have hcopies := packetOf_copies_of_ne hraw hdissected buffer f.dissect f.isIFrame false true
  have hsplit : handover f buffer = payloadCopy f ++
      ([.deliverIfRequired .raw buffer f.isIFrame false true,
        .deliverIfRequired .dissected f.dissect f.isIFrame false true] ++
          [.transmitHDLCFrame f buffer]) := rfl
  rw [hsplit, List.filterMap_append, List.filterMap_append, hcopies]
  exact List.append_nil _

theorem prepareFrame_packets_of_ne (hraw : h.bufferType ≠ .raw) (hdissected : h.bufferType ≠ .dissected)
    (hset : s.started = true → s.serialPortHandler = true) (buffer : List UInt8) (messageInvalid : Bool) :
    (prepareFrame buffer messageInvalid s).effects.filterMap (packetOf h) =
      if s.started && !messageInvalid then
        (receivePayload (deserializeFrame buffer) (frameReceived s).1).2.filterMap (packetOf h)
      else [] := by
  obtain ⟨before, after, hplain, heffects⟩ := prepareFrame_effects hset buffer messageInvalid
  have hbefore := packetOf_plain (h := h) fun x hx => hplain x (List.mem_append_left _ hx)
  have hafter := packetOf_plain (h := h) fun x hx => hplain x (List.mem_append_right _ hx)
  have hcopies : (frameCopies buffer messageInvalid).filterMap (packetOf h) = [] :=
    packetOf_copies_of_ne hraw hdissected ..
  rw [heffects]
  cases s.started with
  | false => rfl
  | true =>
    rw [if_pos rfl, List.filterMap_append, hcopies]
    cases messageInvalid with
    | true => rfl
    | false =>
      rw [if_neg Bool.false_ne_true, List.filterMap_append, List.filterMap_append, hbefore, hafter,
        List.append_nil]
      rfl

theorem presents_payload (htype : h.bufferType = .payload) : Presents h h.reads where
  sent _ := by
    rw [packetOf_handover_of_ne (by simp [htype]) (by simp [htype]), packetOf_payloadCopy htype]
  received {s} hset buffer messageInvalid := by
    rw [prepareFrame_packets_of_ne (by simp [htype]) (by simp [htype]) hset,
      packetOf_receivePayload htype]
    cases s.started with
    | false => rfl
    | true =>
      rw [if_pos rfl, filterMap_singleton_toList, HdlcdServerHandler.reads]
      cases messageInvalid with
      | true =>
        have hnot : ¬ (h.deliverRcvd && (!true && (deserializeFrame buffer).hasPayload)) = true := by simp
        rw [if_neg hnot]
        rfl
      | false =>
        simp only [Bool.not_false, Bool.true_and, if_true]
        split_ifs <;> rfl

theorem presents_portStatus (htype : h.bufferType = .portStatus) : Presents h fun _ => none := by
  have hpayload (invalid wasSent : Bool) : h.delivers .payload invalid wasSent = false := by
    rw [HdlcdServerHandler.delivers, htype]
    rfl
  constructor
  · intro f buffer _
    rw [packetOf_handover_of_ne (by simp [htype]) (by simp [htype]), payloadCopy]
    split <;> simp [packetOf, hpayload]
  · intro s hset buffer messageInvalid
    have hnone : (receivePayload (deserializeFrame buffer) (frameReceived s).1).2.filterMap (packetOf h) = [] := by
      unfold receivePayload
      split_ifs <;> simp [andThen_apply, emit, update, skip, packetOf, hpayload]
    rw [prepareFrame_packets_of_ne (by simp [htype]) (by simp [htype]) hset, hnone, ite_self]
    exact (List.filterMap_eq_nil_iff.mpr fun _ _ => rfl).symm

theorem presents_told (h : HdlcdServerHandler) : Presents h h.told := by
  have htold : h.told = match h.bufferType with
      | .raw | .dissected => h.delivered
      | .payload => h.reads
      | .portStatus => fun _ => none := by
    funext x
    unfold HdlcdServerHandler.told
    cases h.bufferType <;> rfl
  rw [htold]
  cases htype : h.bufferType with
  | raw => exact presents_sniffed (.inl htype)
  | dissected => exact presents_sniffed (.inr htype)
  | payload => exact presents_payload htype
  | portStatus => exact presents_portStatus htype

theorem HandsOver.presented (hshows : Presents h shows) {xs : List Effect} (hover : HandsOver xs) :
    xs.filterMap (packetOf h) = ((xs.filterMap frameOf).map Traffic.sent).filterMap shows := by
  cases hover with
  | none hplain =>
    have hnone : xs.filterMap frameOf = [] := List.filterMap_eq_nil_iff.mpr fun x hx => by
      have hx' := hplain x hx
      cases x with
      | transmitHDLCFrame => exact hx'.elim
      | _ => rfl
    rw [packetOf_plain hplain, hnone]
    rfl
  | frame hf =>
    rw [hshows.sent hf, frameOf_handover, List.map_singleton, filterMap_singleton_toList]

theorem handle_presented (hshows : Presents h shows) {e : Event} {q : List Traffic}
    (hq : (prepare e s).effects.filterMap (packetOf h) = q.filterMap shows) :
    (handle e s).2.filterMap (packetOf h) =
      (q ++ ((handle e s).2.filterMap frameOf).map Traffic.sent).filterMap shows := by
  obtain ⟨sent, hsent, hover⟩ := mild_append_handsOver e s
  have hmild : (prepare e s).effects.filterMap frameOf = [] := List.filterMap_eq_nil_iff.mpr fun x hx => by
    have hx' := prepare_mild e s x hx
    cases x with
    | transmitHDLCFrame => exact hx'.elim
    | _ => rfl
  rw [hsent, List.filterMap_append, List.filterMap_append, List.filterMap_append, hmild, hq,
    hover.presented hshows, List.nil_append]

end
end ProtocolState

namespace Port
open Reactive Action ProtocolState FrameGenerator

section
variable {s t : Port} {o : List Output} {c : ClientId} {h : HdlcdServerHandler}
  {shows : Traffic → Option DataPacket} {r : List Traffic}

def Shown (shows : Traffic → Option DataPacket) (c : ClientId) (h : HdlcdServerHandler) (r : List Traffic) :
    Assertion Port Output := fun s o =>
  Enrolled s ∧ c ∈ s.connections ∧ (s.handlers c = none ∨ Sniffing c h s ∧
    dataPackets c o = (r ++ (framesSent o).map Traffic.sent).filterMap shows)

namespace Shown

theorem tally (hs : Shown shows c h r s o) :
    Tally c h ((r ++ (framesSent o).map Traffic.sent).filterMap shows) (framesSent o) s o :=
  ⟨hs.1, hs.2.1, hs.2.2.imp_right fun hthere => ⟨hthere.1, hthere.2, rfl⟩⟩

theorem call (hshows : Presents h shows) (hs : Shown shows c h r s o) {e : Hdlcd.Event} {q : List Traffic}
    (hq : (prepare e s.protocolState).effects.filterMap (packetOf h) = q.filterMap shows)
    (hfirst : q = [] ∨ framesSent o = []) : (callProtocolState (handle e)).wp (Shown shows c h (r ++ q)) s o := by
  obtain ⟨henrolled, hknown, hthere⟩ := hs.tally
  have hchanged := henrolled.protocolState (henrolled.consistent.handle e)
  have hbefore : Tally c h ((r ++ (framesSent o).map Traffic.sent).filterMap shows) (framesSent o)
      { s with protocolState := (handle e s.protocolState).1 } o :=
    ⟨hchanged, hknown, hthere.imp_right fun ⟨hsniffing, hpackets⟩ =>
      ⟨⟨hsniffing.attached, hsniffing.subscribed⟩, hpackets⟩⟩
  obtain ⟨henrolled', hknown', hthere'⟩ := effects_tally (handle e s.protocolState).2 hbefore
  refine ⟨henrolled', hknown', hthere'.imp_right fun ⟨hsniffing, hpackets, hframes⟩ => ⟨hsniffing, ?_⟩⟩
  have hsent : framesSent (o ++ (callProtocolState (handle e) s).2) =
      framesSent o ++ (handle e s.protocolState).2.filterMap frameOf := hframes
  refine hpackets.trans ?_
  rw [handle_presented hshows hq, hsent, List.map_append, ← List.filterMap_append]
  refine congrArg (List.filterMap shows) ?_
  rcases hfirst with rfl | hnone
  · simp only [List.nil_append, List.append_nil, List.append_assoc]
  · rw [hnone]
    simp only [List.map_nil, List.append_nil, List.nil_append, List.append_assoc]

theorem internal (hshows : Presents h shows) (e : LocalEvent) :
    Maintains (Shown shows c h r) (callProtocolState (handle (.internal e))) := by
  intro s o hs
  have hcalled := hs.call hshows (e := .internal e) (q := [])
    (packetOf_plain (prepareLocal_plain (prepared e s.protocolState))) (.inl rfl)
  rwa [List.append_nil] at hcalled

theorem of_client (hs : Shown shows c h r s o) (ht : Enrolled t) (hconnections : t.connections = s.connections)
    (hclient : (t.handlers c).map HdlcdServerHandler.settings = (s.handlers c).map HdlcdServerHandler.settings)
    (hsubscribers : Sniffing c h s → t.bufferTypeSubscribers h.bufferType ≠ 0) : Shown shows c h r t o := by
  obtain ⟨-, hknown, hthere⟩ := hs
  refine ⟨ht, hconnections ▸ hknown, ?_⟩
  rcases hthere with hgone | ⟨hsniffing, hpackets⟩
  · rw [hgone, Option.map_none, Option.map_eq_none_iff] at hclient
    exact .inl hclient
  · obtain ⟨h', hc, hsame⟩ := hsniffing.attached
    rw [hc, Option.map_some] at hclient
    obtain ⟨h'', hc', hsame'⟩ := Option.map_eq_some_iff.mp hclient
    exact .inr ⟨⟨⟨h'', hc', hsame'.trans hsame⟩, hsubscribers hsniffing⟩, hpackets⟩

theorem quiet (hs : Shown shows c h r s o) {xs : List Output}
    (hxs : ∀ y ∈ xs, y.Frameless ∧ y.Packetless) : Shown shows c h r s (o ++ xs) := by
  obtain ⟨henrolled, hknown, hthere⟩ := hs
  refine ⟨henrolled, hknown, hthere.imp_right fun ⟨hsniffing, hpackets⟩ => ⟨hsniffing, ?_⟩⟩
  rw [dataPackets_append, dataPackets_packetless fun y hy => (hxs y hy).2, framesSent_append,
    framesSent_frameless fun y hy => (hxs y hy).1, List.append_nil, List.append_nil]
  exact hpackets

theorem modify (hs : Shown shows c h r s o) {f : HdlcdServerHandler → HdlcdServerHandler}
    (hf : ∀ h, (f h).settings = h.settings) (d : ClientId) : Shown shows c h r (modifyHandler d f s) o :=
  hs.of_client (hs.1.modifyHandler d f) rfl (modifyHandler_settings hf d s c) fun hsniffing =>
    hsniffing.subscribed

theorem control (hs : Shown shows c h r s o) (hsame : audienceMembers t = audienceMembers s) :
    Shown shows c h r t o := by
  simp only [audienceMembers, Prod.mk.injEq] at hsame
  obtain ⟨hps, hhandlers, hlist, hconnections, hsubscribers⟩ := hsame
  refine hs.of_client (hs.1.of_members (hps ▸ hs.1.consistent) ?_) hconnections (by rw [hhandlers]) ?_
  · unfold clientMembers
    rw [hhandlers, hlist, hconnections]
  · rw [hsubscribers]
    exact fun hsniffing => hsniffing.subscribed

theorem leave (hs : Shown shows c h r s o) (gone : ClientId → Bool) :
    Shown shows c h r { s with handlers := fun c => if gone c then none else s.handlers c } o := by
  obtain ⟨henrolled, hknown, hthere⟩ := hs
  refine ⟨henrolled.leave gone, hknown, ?_⟩
  by_cases hc : gone c = true
  · exact .inl (if_pos hc)
  · rcases hthere with hgone | ⟨hsniffing, hpackets⟩
    · exact .inl ((if_neg hc).trans hgone)
    · obtain ⟨h', hh, hsame⟩ := hsniffing.attached
      exact .inr ⟨⟨⟨h', (if_neg hc).trans hh, hsame⟩, hsniffing.subscribed⟩, hpackets⟩

theorem propagate : Maintains (Shown shows c h r) propagateSerialPortState := by
  intro s o hs
  obtain ⟨henrolled, hknown, hthere⟩ := effects_tally [.propagateSerialPortState] hs.tally
  rw [run_singleton] at henrolled hknown hthere
  refine ⟨henrolled, hknown, ?_⟩
  rcases hthere with hgone | ⟨hsniffing, hpackets, hframes⟩
  · exact .inl hgone
  · have hkept : framesSent (o ++ (propagateSerialPortState s).2) = framesSent o ++ [] := hframes
    refine .inr ⟨hsniffing, ?_⟩
    rw [hkept, List.append_nil]
    exact hpackets.trans (List.append_nil _)

theorem rebuild (hs : Shown shows c h r s o) : Shown shows c h r s.rebuildSubscriptions o := by
  have hserved := rebuildSubscriptions_served s
  exact hs.of_client (hs.1.served hserved) (congrArg (·.2.2.2.2.1) hserved.same)
    (by rw [rebuildSubscriptions_handlers]) fun hsniffing => rebuildSubscriptions_subscribed hs.1 hsniffing

theorem lockless (hshows : Presents h shows) (r : List Traffic) : Lockless (Shown shows c h r) where
  members hs hsame := hs.control (audience_of_session hsame)
  parser _ hs := hs.of_client (hs.1.protocolState (hs.1.consistent.congr rfl)) rfl rfl fun hsniffing =>
    hsniffing.subscribed
  aloof {s o xs} hs hxs := by
    refine hs.quiet fun y hy => ?_
    have haloof := hxs y hy
    cases y with
    | transmitHDLCFrame | dataPacket => exact haloof.elim
    | _ => exact ⟨trivial, trivial⟩
  modify d hf hs := hs.modify (fun hh => settings_of_session (hf hh)) d
  rebuild := rebuild
  inward {e} he := by
    cases e with
    | internal e => exact internal hshows e
    | frame => exact he.elim
  control hs hsame := hs.control hsame
  stopClients := stopClients_maintains (fun gone hs => hs.leave gone) rebuild fun hs hxs => by
    refine hs.quiet fun y hy => ?_
    obtain ⟨d, rfl⟩ := hxs y hy
    exact ⟨trivial, trivial⟩
  hold d lockedBySelf hs := hs.modify (f := setLockedBySelf lockedBySelf) (fun _ => rfl) d
  propagate := propagate
  internal e := internal hshows e

theorem lockGuardInit (hs : Shown shows c h r s o) : Shown shows c h r s (o ++ [.fault .lockGuardInit]) :=
  hs.quiet (by simp [Output.Frameless, Output.Packetless])

theorem attach (hshows : Presents h shows) (d : ClientId) (sap : UInt8) (opens : OpenResult) :
    Maintains (Shown shows c h r) (attach d sap opens) := by
  have hshown := lockless (c := c) hshows r
  refine attach_maintains hshown.propagate lockGuardInit hshown.openSerialPort
    (fun {s o d sap hd} _ hnew hs => ?_) d sap opens
  have hother : c ≠ d := fun hcd => hnew (hcd ▸ hs.2.1)
  have hkept : (withHandler d hd s).handlers c = s.handlers c := if_neg hother
  refine ⟨hs.1.withHandler hnew hd, List.mem_append_left _ hs.2.1, ?_⟩
  rw [hkept]
  refine hs.2.2.imp_right fun ⟨hsniffing, hpackets⟩ => ⟨⟨?_, ?_⟩, hpackets⟩
  · rw [hkept]
    exact hsniffing.attached
  · show (if _ then _ + 1 else _) ≠ 0
    split_ifs
    · exact Nat.succ_ne_zero _
    · exact hsniffing.subscribed

theorem attach_self (hshows : Presents h shows) (hs : Enrolled s) (hnew : c ∉ s.connections) {sap : UInt8}
    (hsap : HdlcdServerHandler.onFrame sap = some h) (opens : OpenResult)
    (hsome : ((Port.attach c sap opens s).1.handlers c).isSome) :
    (Port.attach c sap opens).wp (Shown shows c h []) s [] := by
  by_cases hcond : (s.registered && s.calls.isEmpty && !s.connections.contains c) = true
  · have hshown := lockless (c := c) hshows []
    refine attach_added hshown.propagate lockGuardInit hshown.openSerialPort hsap hcond ?_ opens
    refine ⟨hs.withHandler hnew h, List.mem_append_right _ (List.mem_singleton_self c), .inr ⟨⟨?_, ?_⟩, rfl⟩⟩
    · exact ⟨h, if_pos rfl, rfl⟩
    · show (if h.bufferType = h.bufferType then _ + 1 else _) ≠ 0
      rw [if_pos rfl]
      exact Nat.succ_ne_zero _
  · unfold Port.attach at hsome
    rw [hsap] at hsome
    dsimp only at hsome
    rw [if_neg hcond, hs.unknown hnew] at hsome
    exact absurd hsome Bool.false_ne_true

theorem addChunk (hshows : Presents h shows) (hs : Shown shows c h [] s [])
    (hset : s.protocolState.serialPortHandler = true) (offset bytes : Nat) (calls : List Call) :
    (addChunk offset bytes).wp (Shown shows c h (if s.protocolState.started then
      (s.protocolState.frameParser.addChunk (s.readBytes offset bytes)).2.1.map
        fun x => .received x.payload x.messageInvalid else []))
      { s with calls := calls } [] := by
  have hshown := lockless (c := c) hshows []
  have hparsed : Shown shows c h [] (parsed offset bytes calls s) [] :=
    hshown.members (hshown.parser (s.protocolState.frameParser.addChunk (s.readBytes offset bytes)).1 hs) rfl
  unfold wp
  rw [addChunk_eq]
  rcases addChunk_calls s.protocolState.frameParser (s.readBytes offset bytes) with hnone | ⟨x, hone⟩
  · rw [hnone, List.map_nil, ite_self]
    exact hparsed
  · have hx := addChunk_call (hone ▸ List.mem_singleton_self x)
    rw [hone, List.map_singleton, run_singleton, interpret, hx]
    exact hparsed.call hshows (e := .frame x.payload x.messageInvalid)
      (hshows.received (s := (parsed offset bytes calls s).protocolState) (fun _ => hset) x.payload
        x.messageInvalid) (.inr rfl)

theorem step (hshows : Presents h shows) (hs : Shown shows c h [] s [])
    (hset : s.protocolState.serialPortHandler = true) (e : Event) :
    (step e).wp (Shown shows c h (s.received e)) s [] := by
  by_cases he : e = .proceed ∧ ∃ offset bytes calls, s.calls = .addReceivedRawBytes offset (bytes + 1) :: calls
  · obtain ⟨rfl, offset, bytes, calls, hcalls⟩ := he
    have hproceed : proceed s = Port.addChunk offset (bytes + 1) { s with calls := calls } := by
      unfold proceed
      rw [hcalls]
      rfl
    have hreceived : s.received .proceed = if s.protocolState.started then
        (s.protocolState.frameParser.addChunk (s.readBytes offset (bytes + 1))).2.1.map
          fun x => .received x.payload x.messageInvalid else [] := by
      unfold received
      rw [hcalls]
    rw [hreceived]
    exact wp_of_eq hproceed (addChunk hshows hs hset offset (bytes + 1) calls)
  · rw [received_of_quiet he]
    refine (lockless hshows []).step (attach hshows) (eraseHandler_maintains fun gone hs => hs.leave gone) hs
      fun hproceed offset bytes calls hcalls => ?_
    exact absurd ⟨hproceed, offset, bytes, calls, hcalls⟩ he

theorem told (hs : Shown shows c h r s o) (hc : (s.handlers c).isSome) : Sniffing c h s ∧
    dataPackets c o = (r ++ (framesSent o).map Traffic.sent).filterMap shows := by
  refine hs.2.2.resolve_left fun hgone => ?_
  rw [hgone] at hc
  exact Bool.false_ne_true hc

theorem run (hshows : Presents h shows) {es : List Event} (hs : Steadfast s o) (hshown : Shown shows c h [] s [])
    (hstays : Stays c s es) : dataPackets c (run Port.step es s).2 = (traffic s es).filterMap shows := by
  induction es generalizing s o with
  | nil => rfl
  | cons e es ih =>
    have hnext : Shown shows c h (s.received e) (Port.step e s).1 (Port.step e s).2 :=
      step hshows hshown (hs.set hstays.here) e
    obtain ⟨hsniffing, hpackets⟩ := hnext.told hstays.tail.here
    have hrest := ih (hs.step e) ⟨hnext.1, hnext.2.1, .inr ⟨hsniffing, rfl⟩⟩ hstays.tail
    show dataPackets c ((Port.step e s).2 ++ (Reactive.run Port.step es (Port.step e s).1).2) = _
    rw [dataPackets_append, hpackets, hrest, traffic, ← List.filterMap_append]

theorem attached (pre post : List Event) {sap : UInt8} (opens : OpenResult)
    (hsap : HdlcdServerHandler.onFrame sap = some h) (hnew : c ∉ (Reactive.run Port.step pre initial).1.connections)
    (hstays : Stays c (Port.step (.attach c sap opens) (Reactive.run Port.step pre initial).1).1 post) :
    dataPackets c (Reactive.run Port.step (.attach c sap opens :: post)
        (Reactive.run Port.step pre initial).1).2 =
      (traffic (Reactive.run Port.step pre initial).1 (.attach c sap opens :: post)).filterMap h.told := by
  have hshows := presents_told h
  have hsteadfast : Steadfast (Reactive.run Port.step pre initial).1 (Reactive.run Port.step pre initial).2 :=
    ⟨run_locked pre, run_supplied pre⟩
  generalize (Reactive.run Port.step pre initial).1 = s at hnew hstays hsteadfast ⊢
  have hattached : Shown h.told c h [] (Port.step (.attach c sap opens) s).1 (Port.step (.attach c sap opens) s).2 :=
    attach_self hshows hsteadfast.locked.enrolled hnew hsap opens hstays.here
  obtain ⟨hsniffing, hfirst⟩ := hattached.told hstays.here
  have hrest := run hshows (hsteadfast.step (.attach c sap opens))
    ⟨hattached.1, hattached.2.1, .inr ⟨hsniffing, rfl⟩⟩ hstays
  show dataPackets c ((Port.step (.attach c sap opens) s).2 ++
    (Reactive.run Port.step post (Port.step (.attach c sap opens) s).1).2) = _
  rw [dataPackets_append, hfirst, hrest, traffic, ← List.filterMap_append]
  rfl

end Shown

/-- A new client of any kind that stays attached is sent one packet for each frame of the
traffic that its session shows, in order, and nothing else. -/
theorem attached_told (pre post : List Event) {sap : UInt8} (opens : OpenResult)
    (hsap : HdlcdServerHandler.onFrame sap = some h) (hnew : c ∉ (run step pre initial).1.connections)
    (hstays : Stays c (step (.attach c sap opens) (run step pre initial).1).1 post) :
    dataPackets c (run step (.attach c sap opens :: post) (run step pre initial).1).2 =
      (traffic (run step pre initial).1 (.attach c sap opens :: post)).filterMap h.told :=
  Shown.attached pre post opens hsap hnew hstays

def listener : HdlcdServerHandler :=
  { bufferType := .payload, deliverSent := false, deliverRcvd := true, deliverInvalidData := false }

/-- An I-frame reaches the client as a reliable packet. -/
theorem attached_told_iFrame :
    dataPackets 0 (run step (.attach 0 0x01 .opened :: oneFrame [0x7E, 0x30, 0x00, 0x01, 0xEB, 0x51, 0x7E]) initial).2 =
      [⟨[0x01], true, false, false⟩] := by
  have hstays : ∀ pre ∈ (oneFrame [0x7E, 0x30, 0x00, 0x01, 0xEB, 0x51, 0x7E]).inits,
      ((run step pre (step (.attach 0 0x01 .opened) initial).1).1.handlers 0).isSome := by decide +kernel
  exact (attached_told [] _ (h := listener) (c := 0) .opened (by decide) List.not_mem_nil
    fun pre hpre => hstays pre ((List.mem_inits ..).mpr hpre)).trans (by decide +kernel)

end
end Port
end Hdlcd
