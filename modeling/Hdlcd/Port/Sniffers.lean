import Mathlib.Data.List.Infix
import Hdlcd.Port.Reports
import Hdlcd.Port.Sessions
import Hdlcd.Port.WholeFrames

/-! What a client sees that listens to raw or dissected frames: the frames that were sent and
received while it was attached. -/

namespace Hdlcd

/-- A frame that the port sent, or a buffer that its parser took for a frame. -/
inductive Traffic
  | sent (f : HdlcFrame)
  | received (buffer : List UInt8) (messageInvalid : Bool)
  deriving DecidableEq, Repr

namespace Traffic

def frame : Traffic → HdlcFrame
  | sent f => f
  | received buffer _ => FrameParser.deserializeFrame buffer

def bytes : Traffic → List UInt8
  | sent f => ProtocolState.serialized f
  | received buffer _ => buffer

def damaged : Traffic → Bool
  | sent _ => false
  | received _ messageInvalid => messageInvalid

def wasSent : Traffic → Bool
  | sent _ => true
  | received .. => false

end Traffic

/-- A data packet to a client. -/
structure DataPacket where
  payload : Payload
  reliable : Bool
  invalid : Bool
  wasSent : Bool
  deriving DecidableEq, Repr

namespace HdlcdServerHandler

/-- The session was opened for raw or dissected frames. -/
def Sniffs (h : HdlcdServerHandler) : Prop := h.bufferType = .raw ∨ h.bufferType = .dissected

instance (h : HdlcdServerHandler) : Decidable h.Sniffs := inferInstanceAs (Decidable (_ ∨ _))

def passes (h : HdlcdServerHandler) (x : Traffic) : Bool :=
  (if x.wasSent then h.deliverSent else h.deliverRcvd) && (!x.damaged || h.deliverInvalidData)

def shows (h : HdlcdServerHandler) (x : Traffic) : Payload :=
  if h.bufferType = .raw then x.bytes else x.frame.dissect

/-- The packet about a frame that the session asks for. -/
def expected (h : HdlcdServerHandler) (x : Traffic) : Option DataPacket :=
  if h.passes x then some ⟨h.shows x, x.frame.isIFrame, x.damaged, x.wasSent⟩ else none

/-- The packet that the code makes: only sent frames are called reliable. -/
def delivered (h : HdlcdServerHandler) (x : Traffic) : Option DataPacket :=
  if h.passes x then some ⟨h.shows x, x.wasSent && x.frame.isIFrame, x.damaged, x.wasSent⟩ else none

def settings (h : HdlcdServerHandler) := (h.bufferType, h.deliverSent, h.deliverRcvd, h.deliverInvalidData)

theorem delivers_of_settings {h h' : HdlcdServerHandler} (hsame : h'.settings = h.settings)
    (bufferType : BufferType) (invalid wasSent : Bool) :
    h'.delivers bufferType invalid wasSent = h.delivers bufferType invalid wasSent := by
  simp only [settings, Prod.mk.injEq] at hsame
  obtain ⟨htype, hsent, hrcvd, hinvalid⟩ := hsame
  unfold delivers
  rw [htype, hsent, hrcvd, hinvalid]

end HdlcdServerHandler

namespace ProtocolState
open Reactive Action FrameGenerator FrameParser

def packetOf (h : HdlcdServerHandler) : Effect → Option DataPacket
  | .deliverIfRequired bufferType payload reliable invalid wasSent
  | .deliverBufferToClients bufferType payload reliable invalid wasSent =>
    if h.delivers bufferType invalid wasSent then some ⟨payload, reliable, invalid, wasSent⟩ else none
  | _ => none

def frameOf : Effect → Option HdlcFrame
  | .transmitHDLCFrame f _ => some f
  | _ => none

section
variable {h : HdlcdServerHandler} {s : ProtocolState}

theorem packetOf_plain {xs : List Effect} (hxs : ∀ x ∈ xs, Plain x) : xs.filterMap (packetOf h) = [] := by
  refine List.filterMap_eq_nil_iff.mpr fun x hx => ?_
  have hplain := hxs x hx
  cases x with
  | deliverIfRequired | deliverBufferToClients => exact hplain.elim
  | _ => rfl

theorem packetOf_payload (hsniffs : h.Sniffs) (payload : Payload) (reliable invalid wasSent : Bool) :
    packetOf h (.deliverIfRequired .payload payload reliable invalid wasSent) = none ∧
      packetOf h (.deliverBufferToClients .payload payload reliable invalid wasSent) = none := by
  have hother : (BufferType.payload == h.bufferType) = false := by
    rcases hsniffs with hraw | hdissected
    · rw [hraw]; rfl
    · rw [hdissected]; rfl
  have hnone : h.delivers .payload invalid wasSent = false := by
    unfold HdlcdServerHandler.delivers
    rw [hother, Bool.false_and, Bool.false_and]
  have hpacket : (if h.delivers .payload invalid wasSent = true then
      some (⟨payload, reliable, invalid, wasSent⟩ : DataPacket) else none) = none :=
    if_neg (by rw [hnone]; exact Bool.false_ne_true)
  exact ⟨hpacket, hpacket⟩

theorem packetOf_copies (hsniffs : h.Sniffs) (x : Traffic) (reliable : Bool) :
    [Effect.deliverIfRequired .raw x.bytes reliable x.damaged x.wasSent,
        .deliverIfRequired .dissected x.frame.dissect reliable x.damaged x.wasSent].filterMap (packetOf h) =
      if h.passes x then [⟨h.shows x, reliable, x.damaged, x.wasSent⟩] else [] := by
  have hpasses (bufferType : BufferType) : h.delivers bufferType x.damaged x.wasSent =
      (bufferType == h.bufferType && h.passes x) := by
    unfold HdlcdServerHandler.delivers HdlcdServerHandler.passes
    cases x.wasSent <;> cases x.damaged <;> cases h.deliverSent <;> cases h.deliverRcvd <;>
      cases h.deliverInvalidData <;> simp
  have hshows : h.shows x = if h.bufferType = .raw then x.bytes else x.frame.dissect := rfl
  simp only [List.filterMap_cons, List.filterMap_nil, packetOf, hpasses]
  rcases hsniffs with hraw | hdissected
  · rw [hshows, hraw]
    cases h.passes x <;> rfl
  · rw [hshows, hdissected]
    cases h.passes x <;> rfl

theorem packetOf_handover (hsniffs : h.Sniffs) {f : HdlcFrame} {buffer : List UInt8}
    (hf : serializeFrame f = some buffer) :
    (handover f buffer).filterMap (packetOf h) = [Traffic.sent f].filterMap h.delivered := by
  have hbytes : buffer = (Traffic.sent f).bytes := by
    show buffer = (serializeFrame f).getD []
    rw [hf]
    rfl
  have hpayload : (payloadCopy f).filterMap (packetOf h) = [] := by
    unfold payloadCopy
    split
    · exact List.filterMap_eq_nil_iff.mpr (by simp [packetOf_payload hsniffs])
    · exact List.filterMap_eq_nil_iff.mpr (by simp [packetOf_payload hsniffs])
    · rfl
  have hcopies := packetOf_copies hsniffs (.sent f) f.isIFrame
  have hsplit : handover f buffer = payloadCopy f ++
      ([.deliverIfRequired .raw buffer f.isIFrame false true,
        .deliverIfRequired .dissected f.dissect f.isIFrame false true] ++ [.transmitHDLCFrame f buffer]) := rfl
  rw [hsplit, List.filterMap_append, hpayload, List.nil_append, List.filterMap_append, hbytes]
  show [_, _].filterMap (packetOf h) ++ [] = _
  rw [List.append_nil]
  refine hcopies.trans ?_
  simp only [List.filterMap_cons, List.filterMap_nil, HdlcdServerHandler.delivered]
  split_ifs <;> rfl

theorem frameOf_handover (f : HdlcFrame) (buffer : List UInt8) : (handover f buffer).filterMap frameOf = [f] := by
  have hpayload : (payloadCopy f).filterMap frameOf = [] := by
    unfold payloadCopy
    split <;> rfl
  unfold handover
  rw [List.filterMap_append, hpayload]
  rfl

theorem HandsOver.packets {o : List Effect} (ho : HandsOver o) (hsniffs : h.Sniffs) :
    o.filterMap (packetOf h) = ((o.filterMap frameOf).map .sent).filterMap h.delivered := by
  cases ho with
  | none hplain =>
    have hnone : o.filterMap frameOf = [] := List.filterMap_eq_nil_iff.mpr fun x hx => by
      have hx' := hplain x hx
      cases x with
      | transmitHDLCFrame => exact hx'.elim
      | _ => rfl
    rw [packetOf_plain hplain, hnone]
    rfl
  | frame hf =>
    rw [packetOf_handover hsniffs hf, frameOf_handover]
    rfl

theorem prepareLocal_plain {e : LocalEvent} {p : Preparation} (hp : Prepared s e p) :
    ∀ x ∈ p.effects, Plain x := by
  cases hp with
  | stop =>
    unfold memberCall
    split_ifs <;> simp [Plain]
  | stateTimer _ _ _ _ heffects =>
    intro x hx
    rw [heffects x hx]
    trivial
  | probe =>
    unfold prepareProbeTimer
    dsimp only
    split_ifs <;> simp [Plain]
  | _ => simp

theorem prepareFrame_packets (hsniffs : h.Sniffs) (hset : s.started = true → s.serialPortHandler = true)
    (buffer : List UInt8) (messageInvalid : Bool) :
    (prepareFrame buffer messageInvalid s).effects.filterMap (packetOf h) =
      (if s.started then [Traffic.received buffer messageInvalid] else []).filterMap h.delivered := by
  have hcopies (invalid : Bool) : (frameCopies buffer invalid).filterMap (packetOf h) =
      [Traffic.received buffer invalid].filterMap h.delivered := by
    refine (packetOf_copies hsniffs (.received buffer invalid) false).trans ?_
    simp only [List.filterMap_cons, List.filterMap_nil, HdlcdServerHandler.delivered]
    split_ifs <;> rfl
  unfold prepareFrame
  cases hstarted : s.started with
  | false => rfl
  | true =>
    rw [hset hstarted]
    simp only [Bool.not_true, Bool.false_eq_true, if_false, if_true]
    cases messageInvalid with
    | true => exact hcopies true
    | false =>
      have hreceived : ∀ x ∈ (frameReceived s).2, Plain x := by
        unfold frameReceived
        dsimp only
        split_ifs <;> simp [Plain]
      have hacked : ∀ x ∈ (checkAcks (deserializeFrame buffer) (afterReceive (deserializeFrame buffer) s)).2,
          Plain x := by
        intro x hx
        have hpop := checkAcks_pops _ _ x hx
        cases x with
        | popFrontReliable | fault => trivial
        | _ => exact hpop.elim
      have hpayload : (receivePayload (deserializeFrame buffer) (frameReceived s).1).2.filterMap (packetOf h) = [] := by
        refine List.filterMap_eq_nil_iff.mpr fun x hx => ?_
        unfold receivePayload at hx
        split_ifs at hx with hpresent
        · simp only [andThen_apply, emit, update, List.append_nil, List.mem_singleton] at hx
          rw [hx]
          exact (packetOf_payload hsniffs _ _ _ _).1
        · simp only [andThen_apply, emit, skip, List.append_nil, List.mem_singleton] at hx
          rw [hx]
          exact (packetOf_payload hsniffs _ _ _ _).1
        · exact absurd hx List.not_mem_nil
      show (frameCopies buffer false ++ ((frameReceived s).2 ++ ((receivePayload (deserializeFrame buffer)
        (frameReceived s).1).2 ++ (checkAcks _ _).2))).filterMap (packetOf h) = _
      rw [List.filterMap_append, List.filterMap_append, List.filterMap_append, hpayload, packetOf_plain hreceived,
        packetOf_plain hacked]
      show _ ++ [] = _
      rw [List.append_nil]
      exact hcopies false

theorem handle_packets (hsniffs : h.Sniffs) {e : Event} {r : List Traffic}
    (hr : (prepare e s).effects.filterMap (packetOf h) = r.filterMap h.delivered) :
    (handle e s).2.filterMap (packetOf h) =
      (r ++ ((handle e s).2.filterMap frameOf).map Traffic.sent).filterMap h.delivered := by
  obtain ⟨sent, hsent, hover⟩ := mild_append_handsOver e s
  have hmild : (prepare e s).effects.filterMap frameOf = [] := List.filterMap_eq_nil_iff.mpr fun x hx => by
    have hx' := prepare_mild e s x hx
    cases x with
    | transmitHDLCFrame => exact hx'.elim
    | _ => rfl
  rw [hsent, List.filterMap_append, List.filterMap_append, List.filterMap_append, hmild, hr,
    hover.packets hsniffs, List.nil_append]

end
end ProtocolState

namespace Port
open Reactive Action Desks ProtocolState FrameGenerator

/-- The data packets that the client was sent. -/
def dataPackets (c : ClientId) (o : List Output) : List DataPacket :=
  o.filterMap fun
    | .dataPacket d payload reliable invalid wasSent =>
      if d = c then some ⟨payload, reliable, invalid, wasSent⟩ else none
    | _ => none

/-- What the device sent, as the parser hands it over. -/
def received (s : Port) : Event → List Traffic
  | .proceed =>
    match s.calls with
    | .addReceivedRawBytes offset (bytes + 1) :: _ =>
      if s.protocolState.started then
        (s.protocolState.frameParser.addChunk (s.readBytes offset (bytes + 1))).2.1.map
          fun c => .received c.payload c.messageInvalid
      else []
    | _ => []
  | _ => []

/-- The frames of a run, in the order in which they are received and sent. -/
def traffic : Port → List Event → List Traffic
  | _, [] => []
  | s, e :: es => s.received e ++ (framesSent (step e s).2).map .sent ++ traffic (step e s).1 es

/-- The client is there, with the settings of `h`, and its type of data is required. -/
structure Sniffing (c : ClientId) (h : HdlcdServerHandler) (s : Port) : Prop where
  attached : ∃ h', s.handlers c = some h' ∧ h'.settings = h.settings
  subscribed : s.bufferTypeSubscribers h.bufferType ≠ 0

def Tally (c : ClientId) (h : HdlcdServerHandler) (ps : List DataPacket) (fs : List HdlcFrame) :
    Assertion Port Output := fun s o =>
  Enrolled s ∧ c ∈ s.connections ∧
    (s.handlers c = none ∨ Sniffing c h s ∧ dataPackets c o = ps ∧ framesSent o = fs)

section
variable {s t : Port} {o : List Output} {c : ClientId} {h : HdlcdServerHandler} {ps : List DataPacket}
  {fs : List HdlcFrame} {r : List Traffic}

theorem dataPackets_append (c : ClientId) (o o' : List Output) :
    dataPackets c (o ++ o') = dataPackets c o ++ dataPackets c o' := List.filterMap_append

def Output.Packetless : Output → Prop
  | .dataPacket .. => False
  | _ => True

theorem dataPackets_packetless {xs : List Output} (hxs : ∀ y ∈ xs, y.Packetless) (c : ClientId) :
    dataPackets c xs = [] := by
  refine List.filterMap_eq_nil_iff.mpr fun y hy => ?_
  have hpacketless := hxs y hy
  cases y with
  | dataPacket => exact hpacketless.elim
  | _ => rfl

theorem settings_untold (h : HdlcdServerHandler) : h.untold.settings = h.settings := rfl

theorem Served.attached (hserved : Served s t) (hs : ∃ h', s.handlers c = some h' ∧ h'.settings = h.settings) :
    ∃ h', t.handlers c = some h' ∧ h'.settings = h.settings := by
  obtain ⟨h', hc, hsame⟩ := hs
  have huntold := hserved.handlers c
  rw [hc, Option.map_some] at huntold
  obtain ⟨h'', hc', hequal⟩ := Option.map_eq_some_iff.mp huntold
  refine ⟨h'', hc', ?_⟩
  rw [← settings_untold h'', hequal, settings_untold, hsame]

theorem rebuildSubscriptions_subscribed (hs : Enrolled s) (h' : Sniffing c h s) :
    s.rebuildSubscriptions.bufferTypeSubscribers h.bufferType ≠ 0 := by
  obtain ⟨hh, hc, hsame⟩ := h'.attached
  have hlive : c ∈ s.live := hs.mem_live.mpr (Option.isSome_of_eq_some hc)
  have htype : hh.bufferType = h.bufferType := congrArg (·.1) hsame
  unfold rebuildSubscriptions
  split_ifs
  · exact h'.subscribed
  · refine Nat.pos_iff_ne_zero.mp (List.countP_pos_iff.mpr ⟨c, hlive, ?_⟩)
    rw [hc, Option.any_some, htype]
    exact beq_self_eq_true _

theorem effect_subscribers (x : Effect) (s : Port) :
    (effect x s).1.bufferTypeSubscribers = s.bufferTypeSubscribers ∨
      (effect x s).1.bufferTypeSubscribers = s.rebuildSubscriptions.bufferTypeSubscribers := by
  have huntold (hx : ¬ Notifies x) := effect_untold hx s
  cases x with
  | deliverIfRequired =>
    rw [effect, branch]
    split_ifs
    · exact .inr rfl
    · exact .inl rfl
  | deliverBufferToClients | propagateSerialPortState => exact .inr rfl
  | _ => exact .inl (congrArg (·.2.2.2) (huntold id).1)

theorem Sniffing.effect (hs : Enrolled s) (h' : Sniffing c h s) (x : Effect) : Sniffing c h (effect x s).1 := by
  refine ⟨(effect_done x s).served.attached h'.attached, ?_⟩
  rcases effect_subscribers x s with hsame | hsame
  · rw [hsame]
    exact h'.subscribed
  · rw [hsame]
    exact rebuildSubscriptions_subscribed hs h'

theorem deliver_packets (hs : Enrolled s) (h' : Sniffing c h s) (bufferType : BufferType) (payload : Payload)
    (reliable invalid wasSent : Bool) :
    dataPackets c (deliverBufferToClients bufferType payload reliable invalid wasSent s).2 =
      if h.delivers bufferType invalid wasSent then [⟨payload, reliable, invalid, wasSent⟩] else [] := by
  obtain ⟨hh, hc, hsame⟩ := h'.attached
  refine (hs.forEach_filterMap (c := c) fun d hd' hd => ?_).trans ?_
  · dsimp only
    split_ifs <;> simp [hd]
  · rw [hc, ← HdlcdServerHandler.delivers_of_settings hsame]
    dsimp only [Option.elim_some]
    split_ifs <;> simp

theorem effect_packets (hs : Enrolled s) (h' : Sniffing c h s) (x : Effect) :
    dataPackets c (effect x s).2 = (packetOf h x).toList := by
  have hdelivered (bufferType : BufferType) (payload : Payload) (reliable invalid wasSent : Bool) :
      dataPackets c (deliverBufferToClients bufferType payload reliable invalid wasSent s).2 =
        (packetOf h (.deliverBufferToClients bufferType payload reliable invalid wasSent)).toList := by
    rw [deliver_packets hs h', packetOf]
    split_ifs <;> rfl
  have huntold (hx : ¬ Notifies x) := effect_untold hx s
  cases x with
  | deliverIfRequired bufferType payload reliable invalid wasSent =>
    rw [effect, branch]
    split_ifs with hrequired
    · exact hdelivered _ _ _ _ _
    · have hzero : s.bufferTypeSubscribers bufferType = 0 := by
        unfold requiresBufferType at hrequired
        simpa using hrequired
      have hother : (bufferType == h.bufferType) = false := beq_eq_false_iff_ne.mpr fun hsame =>
        h'.subscribed (hsame ▸ hzero)
      have hnone : h.delivers bufferType invalid wasSent = false := by
        unfold HdlcdServerHandler.delivers
        rw [hother, Bool.false_and, Bool.false_and]
      rw [packetOf, hnone]
      rfl
  | deliverBufferToClients => exact hdelivered _ _ _ _ _
  | propagateSerialPortState =>
    refine dataPackets_packetless (fun y hy => ?_) c
    obtain ⟨d, alive, others, self, rfl⟩ := propagateSerialPortState_outputs hy
    trivial
  | _ =>
    refine dataPackets_packetless (fun y hy => ?_) c
    have honline := (huntold id).2 y hy
    cases y with
    | dataPacket => exact honline
    | _ => trivial

theorem effect_frames (x : Effect) (s : Port) : framesSent (effect x s).2 = (frameOf x).toList := by
  cases x with
  | transmitHDLCFrame f buffer => exact transmitHDLCFrame_frames f _ s
  | _ =>
    refine framesSent_frameless fun y hy => ((effect_noFrame ?_ s).2 y hy).frameless
    trivial

theorem effects_frames (xs : List Effect) (s : Port) :
    framesSent (run effect xs s).2 = xs.filterMap frameOf := by
  induction xs generalizing s with
  | nil => rfl
  | cons x xs ih =>
    show framesSent ((effect x s).2 ++ (run effect xs (effect x s).1).2) = _
    rw [framesSent_append, effect_frames, ih, List.filterMap_cons]
    cases frameOf x <;> rfl

theorem effects_tally (xs : List Effect) : ∀ {s o ps fs}, Tally c h ps fs s o →
    Tally c h (ps ++ xs.filterMap (packetOf h)) (fs ++ xs.filterMap frameOf) (run effect xs s).1
      (o ++ (run effect xs s).2) := by
  induction xs with
  | nil =>
    intro s o ps fs hs
    simpa only [List.filterMap_nil, List.append_nil, run, skip] using hs
  | cons x xs ih =>
    intro s o ps fs hs
    obtain ⟨henrolled, hknown, hthere⟩ := hs
    have hserved := (effect_done x s).served
    have hconnections : (effect x s).1.connections = s.connections := congrArg (·.2.2.2.2.1) hserved.same
    have hnext : Tally c h (ps ++ (packetOf h x).toList) (fs ++ (frameOf x).toList) (effect x s).1
        (o ++ (effect x s).2) := by
      refine ⟨henrolled.served hserved, hconnections ▸ hknown, ?_⟩
      rcases hthere with hgone | ⟨hsniffing, hps, hfs⟩
      · exact .inl (hserved.gone hgone)
      · refine .inr ⟨hsniffing.effect henrolled x, ?_, ?_⟩
        · rw [dataPackets_append, hps, effect_packets henrolled hsniffing]
        · rw [framesSent_append, hfs, effect_frames]
    have hrest := ih hnext
    have hpackets : ps ++ (packetOf h x).toList ++ xs.filterMap (packetOf h) =
        ps ++ (x :: xs).filterMap (packetOf h) := by
      rw [List.append_assoc, List.filterMap_cons]
      cases packetOf h x <;> rfl
    have hframes : fs ++ (frameOf x).toList ++ xs.filterMap frameOf = fs ++ (x :: xs).filterMap frameOf := by
      rw [List.append_assoc, List.filterMap_cons]
      cases frameOf x <;> rfl
    rw [hpackets, hframes, List.append_assoc] at hrest
    exact hrest

def Heard (c : ClientId) (h : HdlcdServerHandler) (r : List Traffic) : Assertion Port Output := fun s o =>
  Enrolled s ∧ c ∈ s.connections ∧ (s.handlers c = none ∨ Sniffing c h s ∧
    dataPackets c o = (r ++ (framesSent o).map Traffic.sent).filterMap h.delivered)

theorem Heard.call (hsniffs : h.Sniffs) (hs : Heard c h r s o) {e : Hdlcd.Event} {q : List Traffic}
    (hq : (prepare e s.protocolState).effects.filterMap (packetOf h) = q.filterMap h.delivered)
    (hfirst : q = [] ∨ framesSent o = []) : (callProtocolState (handle e)).wp (Heard c h (r ++ q)) s o := by
  obtain ⟨henrolled, hknown, hthere⟩ := hs
  have hchanged := henrolled.protocolState (henrolled.consistent.handle e)
  have hbefore : Tally c h ((r ++ (framesSent o).map Traffic.sent).filterMap h.delivered) (framesSent o)
      { s with protocolState := (handle e s.protocolState).1 } o :=
    ⟨hchanged, hknown, hthere.imp_right fun ⟨hsniffing, hpackets⟩ =>
      ⟨⟨hsniffing.attached, hsniffing.subscribed⟩, hpackets, rfl⟩⟩
  obtain ⟨henrolled', hknown', hthere'⟩ := effects_tally (handle e s.protocolState).2 hbefore
  refine ⟨henrolled', hknown', hthere'.imp_right fun ⟨hsniffing, hpackets, hframes⟩ => ⟨hsniffing, ?_⟩⟩
  refine hpackets.trans ?_
  have hsent : framesSent (o ++ (callProtocolState (handle e) s).2) =
      framesSent o ++ (handle e s.protocolState).2.filterMap frameOf := hframes
  rw [handle_packets hsniffs hq, hsent, List.map_append, ← List.filterMap_append]
  refine congrArg (List.filterMap h.delivered) ?_
  rcases hfirst with rfl | hnone
  · simp only [List.nil_append, List.append_nil, List.append_assoc]
  · rw [hnone]
    simp only [List.map_nil, List.append_nil, List.nil_append, List.append_assoc]

theorem Heard.internal (hsniffs : h.Sniffs) (e : LocalEvent) :
    Maintains (Heard c h r) (callProtocolState (handle (.internal e))) := by
  intro s o hs
  have hcalled := hs.call hsniffs (e := .internal e) (q := [])
    (packetOf_plain (prepareLocal_plain (prepared e s.protocolState))) (.inl rfl)
  rwa [List.append_nil] at hcalled

theorem Heard.of_client (hs : Heard c h r s o) (ht : Enrolled t) (hconnections : t.connections = s.connections)
    (hclient : (t.handlers c).map HdlcdServerHandler.settings = (s.handlers c).map HdlcdServerHandler.settings)
    (hsubscribers : Sniffing c h s → t.bufferTypeSubscribers h.bufferType ≠ 0) : Heard c h r t o := by
  obtain ⟨-, hknown, hthere⟩ := hs
  refine ⟨ht, hconnections ▸ hknown, ?_⟩
  rcases hthere with hgone | ⟨hsniffing, hpackets⟩
  · rw [hgone, Option.map_none, Option.map_eq_none_iff] at hclient
    exact .inl hclient
  · obtain ⟨h', hc, hsame⟩ := hsniffing.attached
    rw [hc, Option.map_some] at hclient
    obtain ⟨h'', hc', hsame'⟩ := Option.map_eq_some_iff.mp hclient
    exact .inr ⟨⟨⟨h'', hc', hsame'.trans hsame⟩, hsubscribers hsniffing⟩, hpackets⟩

theorem Heard.quiet (hs : Heard c h r s o) {xs : List Output} (hframes : ∀ y ∈ xs, y.Frameless)
    (hpacketless : ∀ y ∈ xs, y.Packetless) : Heard c h r s (o ++ xs) := by
  obtain ⟨henrolled, hknown, hthere⟩ := hs
  refine ⟨henrolled, hknown, hthere.imp_right fun ⟨hsniffing, hpackets⟩ => ⟨hsniffing, ?_⟩⟩
  rw [dataPackets_append, dataPackets_packetless hpacketless, framesSent_append, framesSent_frameless hframes,
    List.append_nil, List.append_nil]
  exact hpackets

theorem modifyHandler_settings {f : HdlcdServerHandler → HdlcdServerHandler} (hf : ∀ h, (f h).settings = h.settings)
    (d : ClientId) (s : Port) (c : ClientId) :
    ((modifyHandler d f s).handlers c).map HdlcdServerHandler.settings =
      (s.handlers c).map HdlcdServerHandler.settings := by
  unfold modifyHandler
  dsimp only
  split_ifs
  · rw [Option.map_map]
    exact congrArg (fun g => (s.handlers c).map g) (funext hf)
  · rfl

theorem settings_of_session {h h' : HdlcdServerHandler} (hsame : h'.session = h.session) :
    h'.settings = h.settings := by
  simp only [HdlcdServerHandler.session, Prod.mk.injEq] at hsame
  obtain ⟨_, _, _, htype, hsent, hrcvd, hinvalid⟩ := hsame
  unfold HdlcdServerHandler.settings
  rw [htype, hsent, hrcvd, hinvalid]

theorem Heard.modify (hs : Heard c h r s o) {f : HdlcdServerHandler → HdlcdServerHandler}
    (hf : ∀ h, (f h).settings = h.settings) (d : ClientId) : Heard c h r (modifyHandler d f s) o :=
  hs.of_client (hs.1.modifyHandler d f) rfl (modifyHandler_settings hf d s c) fun hsniffing => hsniffing.subscribed

theorem Heard.control (hs : Heard c h r s o) (hsame : audienceMembers t = audienceMembers s) : Heard c h r t o := by
  simp only [audienceMembers, Prod.mk.injEq] at hsame
  obtain ⟨hps, hhandlers, hlist, hconnections, hsubscribers⟩ := hsame
  refine hs.of_client (hs.1.of_members (hps ▸ hs.1.consistent) ?_) hconnections (by rw [hhandlers]) ?_
  · unfold clientMembers
    rw [hhandlers, hlist, hconnections]
  · rw [hsubscribers]
    exact fun hsniffing => hsniffing.subscribed

theorem Heard.leave (hs : Heard c h r s o) (gone : ClientId → Bool) :
    Heard c h r { s with handlers := fun c => if gone c then none else s.handlers c } o := by
  obtain ⟨henrolled, hknown, hthere⟩ := hs
  refine ⟨henrolled.leave gone, hknown, ?_⟩
  by_cases hc : gone c = true
  · exact .inl (if_pos hc)
  · rcases hthere with hgone | ⟨hsniffing, hpackets⟩
    · exact .inl ((if_neg hc).trans hgone)
    · obtain ⟨h', hh, hsame⟩ := hsniffing.attached
      exact .inr ⟨⟨⟨h', (if_neg hc).trans hh, hsame⟩, hsniffing.subscribed⟩, hpackets⟩

theorem Heard.propagate : Maintains (Heard c h r) propagateSerialPortState := by
  intro s o hs
  have hbefore : Tally c h ((r ++ (framesSent o).map Traffic.sent).filterMap h.delivered) (framesSent o) s o :=
    ⟨hs.1, hs.2.1, hs.2.2.imp_right fun hthere => ⟨hthere.1, hthere.2, rfl⟩⟩
  obtain ⟨henrolled, hknown, hthere⟩ := effects_tally [.propagateSerialPortState] hbefore
  rw [run_singleton] at henrolled hknown hthere
  refine ⟨henrolled, hknown, ?_⟩
  rcases hthere with hgone | ⟨hsniffing, hpackets, hframes⟩
  · exact .inl hgone
  · have hkept : framesSent (o ++ (propagateSerialPortState s).2) = framesSent o ++ [] := hframes
    refine .inr ⟨hsniffing, ?_⟩
    rw [hkept, List.append_nil]
    exact hpackets.trans (List.append_nil _)

theorem Heard.rebuild (hs : Heard c h r s o) : Heard c h r s.rebuildSubscriptions o := by
  have hserved := rebuildSubscriptions_served s
  exact hs.of_client (hs.1.served hserved) (congrArg (·.2.2.2.2.1) hserved.same)
    (by rw [rebuildSubscriptions_handlers]) fun hsniffing => rebuildSubscriptions_subscribed hs.1 hsniffing

theorem heard_lockless (hsniffs : h.Sniffs) (r : List Traffic) : Lockless (Heard c h r) where
  members hs hsame := hs.control (audience_of_session hsame)
  parser _ hs := hs.of_client (hs.1.protocolState (hs.1.consistent.congr rfl)) rfl rfl fun hsniffing =>
    hsniffing.subscribed
  aloof {s o xs} hs hxs := by
    refine hs.quiet (fun y hy => ?_) fun y hy => ?_
    all_goals
      have haloof := hxs y hy
      cases y with
      | transmitHDLCFrame | dataPacket => exact haloof.elim
      | _ => trivial
  modify d hf hs := hs.modify (fun hh => settings_of_session (hf hh)) d
  rebuild := Heard.rebuild
  inward {e} he := by
    cases e with
    | internal e => exact Heard.internal hsniffs e
    | frame => exact he.elim
  control hs hsame := hs.control hsame
  stopClients := stopClients_maintains (fun gone hs => hs.leave gone) Heard.rebuild fun hs hxs => by
    refine hs.quiet (fun y hy => ?_) fun y hy => ?_
    all_goals
      obtain ⟨d, rfl⟩ := hxs y hy
      trivial
  hold d lockedBySelf hs := hs.modify (f := setLockedBySelf lockedBySelf) (fun _ => rfl) d
  propagate := Heard.propagate
  internal e := Heard.internal hsniffs e

theorem Heard.lockGuardInit (hs : Heard c h r s o) : Heard c h r s (o ++ [.fault .lockGuardInit]) :=
  hs.quiet (by simp [Output.Frameless]) (by simp [Output.Packetless])

theorem heard_attach (hsniffs : h.Sniffs) (d : ClientId) (sap : UInt8) (opens : OpenResult) :
    Maintains (Heard c h r) (attach d sap opens) := by
  have hheard := heard_lockless (c := c) hsniffs r
  refine attach_maintains hheard.propagate Heard.lockGuardInit hheard.openSerialPort
    (fun {s o d sap hd} _ hnew hs => ?_) d sap opens
  have hother : c ≠ d := fun hcd => hnew (hcd ▸ hs.2.1)
  have hkept : (withHandler d hd s).handlers c = s.handlers c := if_neg hother
  refine ⟨hs.1.withHandler hnew hd, List.mem_append_left _ hs.2.1, ?_⟩
  rw [hkept]
  refine hs.2.2.imp_right fun ⟨hsniffing, hpackets⟩ => ⟨⟨?_, ?_⟩, hpackets⟩
  · rw [hkept]
    exact hsniffing.attached
  · show (if _ then _ + 1 else _) ≠ 0
    split_ifs
    · exact Nat.succ_ne_zero _
    · exact hsniffing.subscribed

theorem attach_self (hs : Enrolled s) (hnew : c ∉ s.connections) {sap : UInt8} (hsniffs : h.Sniffs)
    (hsap : HdlcdServerHandler.onFrame sap = some h) (opens : OpenResult)
    (hsome : ((attach c sap opens s).1.handlers c).isSome) : (attach c sap opens).wp (Heard c h []) s [] := by
  by_cases hcond : (s.registered && s.calls.isEmpty && !s.connections.contains c) = true
  · have hheard := heard_lockless (c := c) hsniffs []
    refine attach_added hheard.propagate Heard.lockGuardInit hheard.openSerialPort hsap hcond ?_ opens
    refine ⟨hs.withHandler hnew h, List.mem_append_right _ (List.mem_singleton_self c), .inr ⟨⟨?_, ?_⟩, rfl⟩⟩
    · exact ⟨h, if_pos rfl, rfl⟩
    · show (if h.bufferType = h.bufferType then _ + 1 else _) ≠ 0
      rw [if_pos rfl]
      exact Nat.succ_ne_zero _
  · unfold attach at hsome
    rw [hsap] at hsome
    dsimp only at hsome
    rw [if_neg hcond, hs.unknown hnew] at hsome
    exact absurd hsome Bool.false_ne_true

theorem Sniffing.heard (h' : Sniffing c h s) (hs : Enrolled s) (hknown : c ∈ s.connections) : Heard c h [] s [] :=
  ⟨hs, hknown, .inr ⟨h', rfl⟩⟩

theorem heard_addChunk (hsniffs : h.Sniffs) (hs : Heard c h [] s [])
    (hset : s.protocolState.serialPortHandler = true) (offset bytes : Nat) (calls : List Call) :
    (addChunk offset bytes).wp (Heard c h (if s.protocolState.started then
      (s.protocolState.frameParser.addChunk (s.readBytes offset bytes)).2.1.map
        fun x => .received x.payload x.messageInvalid else []))
      { s with calls := calls } [] := by
  have hheard := heard_lockless (c := c) hsniffs []
  have hparsed : Heard c h [] (parsed offset bytes calls s) [] :=
    hheard.members (hheard.parser (s.protocolState.frameParser.addChunk (s.readBytes offset bytes)).1 hs) rfl
  unfold wp
  rw [addChunk_eq]
  rcases addChunk_calls s.protocolState.frameParser (s.readBytes offset bytes) with hnone | ⟨x, hone⟩
  · rw [hnone, List.map_nil, ite_self]
    exact hparsed
  · have hx := addChunk_call (hone ▸ List.mem_singleton_self x)
    rw [hone, List.map_singleton, run_singleton, interpret, hx]
    exact hparsed.call hsniffs (e := .frame x.payload x.messageInvalid)
      (prepareFrame_packets (s := (parsed offset bytes calls s).protocolState) hsniffs (fun _ => hset) x.payload
        x.messageInvalid) (.inr rfl)

theorem received_of_quiet {e : Event}
    (he : ¬ (e = .proceed ∧ ∃ offset bytes calls, s.calls = .addReceivedRawBytes offset (bytes + 1) :: calls)) :
    s.received e = [] := by
  cases e with
  | proceed =>
    show (match s.calls with
      | .addReceivedRawBytes offset (bytes + 1) :: _ => _
      | _ => []) = []
    split
    · rename_i offset bytes calls hcalls
      exact absurd ⟨rfl, offset, bytes, calls, hcalls⟩ he
    · rfl
  | _ => rfl

theorem step_heard (hsniffs : h.Sniffs) (hs : Heard c h [] s [])
    (hset : s.protocolState.serialPortHandler = true) (e : Event) : (step e).wp (Heard c h (s.received e)) s [] := by
  by_cases he : e = .proceed ∧ ∃ offset bytes calls, s.calls = .addReceivedRawBytes offset (bytes + 1) :: calls
  · obtain ⟨rfl, offset, bytes, calls, hcalls⟩ := he
    have hproceed : proceed s = addChunk offset (bytes + 1) { s with calls := calls } := by
      unfold proceed
      rw [hcalls]
      rfl
    have hreceived : s.received .proceed = if s.protocolState.started then
        (s.protocolState.frameParser.addChunk (s.readBytes offset (bytes + 1))).2.1.map
          fun x => .received x.payload x.messageInvalid else [] := by
      unfold received
      rw [hcalls]
    rw [hreceived]
    exact wp_of_eq hproceed (heard_addChunk hsniffs hs hset offset (bytes + 1) calls)
  · rw [received_of_quiet he]
    refine (heard_lockless hsniffs []).step (heard_attach hsniffs)
      (eraseHandler_maintains fun gone hs => hs.leave gone) hs fun hproceed offset bytes calls hcalls => ?_
    exact absurd ⟨hproceed, offset, bytes, calls, hcalls⟩ he

/-- The client stays attached. -/
def Stays (c : ClientId) (s : Port) (es : List Event) : Prop :=
  ∀ pre, pre <+: es → ((run step pre s).1.handlers c).isSome

theorem Stays.here {es : List Event} (hstays : Stays c s es) : (s.handlers c).isSome :=
  hstays [] (List.nil_prefix ..)

theorem Stays.tail {e : Event} {es : List Event} (hstays : Stays c s (e :: es)) : Stays c (step e s).1 es :=
  fun pre hpre => hstays (e :: pre) (List.cons_prefix_cons.mpr ⟨rfl, hpre⟩)

/-- What a port keeps in every run, apart from the sniffers. -/
structure Steadfast (s : Port) (o : List Output) : Prop where
  locked : Locked s o
  supplied : Supplied s

theorem Steadfast.step (hs : Steadfast s o) (e : Event) : (step e).wp Steadfast s o :=
  ⟨step_locked e s o hs.locked, step_supplied e s o hs.supplied⟩

theorem Steadfast.set (hs : Steadfast s o) (hc : (s.handlers c).isSome) :
    s.protocolState.serialPortHandler = true := by
  refine hs.supplied.set (Bool.eq_true_of_not_eq_false fun hretired => ?_)
  rw [hs.locked.retired hretired c] at hc
  exact Bool.false_ne_true hc

theorem Heard.sniffing (hs : Heard c h r s o) (hc : (s.handlers c).isSome) : Sniffing c h s ∧
    dataPackets c o = (r ++ (framesSent o).map Traffic.sent).filterMap h.delivered := by
  refine hs.2.2.resolve_left fun hgone => ?_
  rw [hgone] at hc
  exact Bool.false_ne_true hc

theorem run_sniffed (hsniffs : h.Sniffs) {es : List Event} (hs : Steadfast s o) (hheard : Heard c h [] s [])
    (hstays : Stays c s es) : dataPackets c (run step es s).2 = (traffic s es).filterMap h.delivered := by
  induction es generalizing s o with
  | nil => rfl
  | cons e es ih =>
    have hnext : Heard c h (s.received e) (step e s).1 (step e s).2 :=
      step_heard hsniffs hheard (hs.set hstays.here) e
    obtain ⟨hsniffing, hpackets⟩ := hnext.sniffing hstays.tail.here
    have hrest := ih (hs.step e) (hsniffing.heard hnext.1 hnext.2.1) hstays.tail
    show dataPackets c ((step e s).2 ++ (run step es (step e s).1).2) = _
    rw [dataPackets_append, hpackets, hrest, traffic, ← List.filterMap_append]

theorem expected_iff (x : Traffic) : h.delivered x = h.expected x ↔
    (h.passes x = true → x.frame.isIFrame = true → x.wasSent = true) := by
  unfold HdlcdServerHandler.delivered HdlcdServerHandler.expected
  split_ifs with hpasses
  · simp only [Option.some.injEq, DataPacket.mk.injEq, and_true, true_and, hpasses, true_implies]
    cases x.wasSent <;> cases x.frame.isIFrame <;> simp
  · simp only [hpasses, false_implies, reduceCtorEq]

theorem filterMap_expected_iff (l : List Traffic) : l.filterMap h.delivered = l.filterMap h.expected ↔
    ∀ x ∈ l, h.delivered x = h.expected x := by
  constructor
  · intro hsame
    induction l with
    | nil => simp
    | cons x l ih =>
      rw [List.filterMap_cons, List.filterMap_cons] at hsame
      rw [List.forall_mem_cons]
      unfold HdlcdServerHandler.delivered HdlcdServerHandler.expected at hsame ⊢
      split_ifs at hsame ⊢ with hpasses
      · obtain ⟨hhead, htail⟩ := List.cons.inj hsame
        exact ⟨congrArg some hhead, ih htail⟩
      · exact ⟨rfl, ih hsame⟩
  · exact List.filterMap_congr

/-- No I-frame is received that the session shows. -/
def ShowsNoIFrame (h : HdlcdServerHandler) (s : Port) (e : Event) : Prop :=
  ∀ x ∈ s.received e, h.passes x = true → x.frame.isIFrame = false

instance (h : HdlcdServerHandler) (s : Port) (e : Event) : Decidable (ShowsNoIFrame h s e) :=
  inferInstanceAs (Decidable (∀ x ∈ s.received e, _ → _))

theorem received_wasSent {e : Event} {x : Traffic} (hx : x ∈ s.received e) : x.wasSent = false := by
  unfold received at hx
  split at hx
  · split at hx
    · split_ifs at hx
      · obtain ⟨i, _, rfl⟩ := List.mem_map.mp hx
        rfl
      · exact absurd hx List.not_mem_nil
    · exact absurd hx List.not_mem_nil
  · exact absurd hx List.not_mem_nil

theorem traffic_iff (h : HdlcdServerHandler) (s : Port) (es : List Event) :
    (∀ x ∈ traffic s es, h.delivered x = h.expected x) ↔ Along step (ShowsNoIFrame h) s es := by
  induction es generalizing s with
  | nil => simp [traffic, Along]
  | cons e es ih =>
    rw [traffic, List.forall_mem_append, List.forall_mem_append, ih, Along]
    have hsent : ∀ x ∈ (framesSent (step e s).2).map Traffic.sent, h.delivered x = h.expected x := by
      intro x hx
      obtain ⟨f, _, rfl⟩ := List.mem_map.mp hx
      exact (expected_iff _).mpr fun _ _ => rfl
    have hreceived : (∀ x ∈ s.received e, h.delivered x = h.expected x) ↔ ShowsNoIFrame h s e := by
      refine forall₂_congr fun x hx => ?_
      rw [expected_iff, received_wasSent hx]
      simp only [Bool.false_eq_true, imp_false, Bool.not_eq_true]
    rw [hreceived, and_iff_left hsent]

/-- A new client that listens to raw or dissected frames and stays attached is sent a packet
about every frame that its session asks for, in order and with the right flags, exactly if
no I-frame is received that the session shows. -/
theorem sniffed_iff (pre post : List Event) {sap : UInt8} (opens : OpenResult)
    (hsap : HdlcdServerHandler.onFrame sap = some h) (hsniffs : h.Sniffs)
    (hnew : c ∉ (run step pre initial).1.connections)
    (hstays : Stays c (step (.attach c sap opens) (run step pre initial).1).1 post) :
    dataPackets c (run step (.attach c sap opens :: post) (run step pre initial).1).2 =
        (traffic (run step pre initial).1 (.attach c sap opens :: post)).filterMap h.expected ↔
      Along step (ShowsNoIFrame h) (run step pre initial).1 (.attach c sap opens :: post) := by
  have hsteadfast : Steadfast (run step pre initial).1 (run step pre initial).2 :=
    ⟨run_locked pre, run_supplied pre⟩
  generalize (run step pre initial).1 = s at hnew hstays hsteadfast ⊢
  have henrolled := hsteadfast.locked.enrolled
  have hattached : Heard c h [] (step (.attach c sap opens) s).1 (step (.attach c sap opens) s).2 :=
    attach_self henrolled hnew hsniffs hsap opens hstays.here
  obtain ⟨hsniffing, hfirst⟩ := hattached.sniffing hstays.here
  have hrest := run_sniffed hsniffs (hsteadfast.step (.attach c sap opens))
    (hsniffing.heard hattached.1 hattached.2.1) hstays
  have hall : dataPackets c (run step (.attach c sap opens :: post) s).2 =
      (traffic s (.attach c sap opens :: post)).filterMap h.delivered := by
    show dataPackets c ((step (.attach c sap opens) s).2 ++ (run step post (step (.attach c sap opens) s).1).2) = _
    rw [dataPackets_append, hfirst, hrest, traffic, ← List.filterMap_append]
    rfl
  rw [hall, filterMap_expected_iff, traffic_iff]

/-- The device sends one frame. -/
def oneFrame (bytes : List UInt8) : List Event :=
  [.readCompletes 0 (.success bytes), .readHandler 0, .proceed, .proceed]

/-- The client behind 0x33, which listens to the raw frames of both directions. -/
def rawSniffer : HdlcdServerHandler :=
  { bufferType := .raw, deliverSent := true, deliverRcvd := true, deliverInvalidData := false }

/-- A UI-frame is shown as it is. -/
theorem sniffed_iff_uiFrame :
    dataPackets 0 (run step (.attach 0 0x33 .opened :: oneFrame [0x7E, 0x30, 0x03, 0x01, 0x83, 0x7B, 0x7E]) initial).2 =
      (traffic initial (.attach 0 0x33 .opened :: oneFrame [0x7E, 0x30, 0x03, 0x01, 0x83, 0x7B, 0x7E])).filterMap
        rawSniffer.expected := by
  have hstays : ∀ pre ∈ (oneFrame [0x7E, 0x30, 0x03, 0x01, 0x83, 0x7B, 0x7E]).inits,
      ((run step pre (step (.attach 0 0x33 .opened) initial).1).1.handlers 0).isSome := by decide +kernel
  exact (sniffed_iff [] _ (h := rawSniffer) (c := 0) .opened (by decide) (.inl rfl) List.not_mem_nil
    fun pre hpre => hstays pre ((List.mem_inits ..).mpr hpre)).mpr (by decide +kernel)

/-- An I-frame is shown as if it had come in a UI-frame. -/
theorem iFrame_shown_unreliable : HdlcdServerHandler.onFrame 0x33 = some rawSniffer ∧
    ((run step (.attach 0 0x33 .opened :: oneFrame [0x7E, 0x30, 0x00, 0x01, 0xEB, 0x51, 0x7E]) initial).1.handlers
      0).isSome ∧
    dataPackets 0 (run step (.attach 0 0x33 .opened :: oneFrame [0x7E, 0x30, 0x00, 0x01, 0xEB, 0x51, 0x7E]) initial).2 ≠
      (traffic initial (.attach 0 0x33 .opened :: oneFrame [0x7E, 0x30, 0x00, 0x01, 0xEB, 0x51, 0x7E])).filterMap
        rawSniffer.expected := by decide +kernel

end
end Port
end Hdlcd
