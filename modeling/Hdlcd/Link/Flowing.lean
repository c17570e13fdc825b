import Hdlcd.Link.Link
import Hdlcd.Protocol.Ending
import Hdlcd.Protocol.WakeUp

/-! An entity on a link with its like: nobody sends RNR, so the flow is never stopped, every
outstanding I-frame has its retransmission armed, and the parser of the other side takes every
frame that is sent. -/

namespace Hdlcd.Link
open Reactive Action FrameGenerator FrameParser Framing ProtocolState

def Carriable (payload : Payload) : Prop := payload ≠ [] ∧ payload.length + 6 ≤ maxLength

instance (payload : Payload) : Decidable (Carriable payload) := inferInstanceAs (Decidable (_ ∧ _))

structure Welcome (buffer : List UInt8) : Prop where
  length : buffer.length ≤ maxLength
  flowing : (deserializeFrame buffer).hdlcFrameType ≠ .sRNR

def Ordinary : Event → Prop
  | .internal (.sendPayload payload _) => Carriable payload
  | .internal _ => True
  | .frame buffer _ => (deserializeFrame buffer).hdlcFrameType ≠ .sRNR

instance : ∀ e, Decidable (Ordinary e)
  | .internal (.sendPayload payload _) => inferInstanceAs (Decidable (Carriable payload))
  | .frame _ _ => inferInstanceAs (Decidable (_ ≠ _))
  | .internal .start | .internal .stop | .internal .shutdown | .internal .triggerNextHDLCFrame
  | .internal .timerExpires | .internal (.timerHandler _) | .internal .stateTimerExpires
  | .internal .stateTimerHandler | .internal .probeTimerExpires | .internal .probeTimerHandler => isTrue trivial

/-- The flow is not stopped, and every payload gets through. -/
structure Unhindered (s : ProtocolState) : Prop where
  flow : s.peerStoppedFlow = false
  fresh : s.peerStoppedFlowNew = false
  reliable : ∀ payload ∈ s.waitQueueReliable, Carriable payload
  unreliable : ∀ payload ∈ s.waitQueueUnreliable, Carriable payload

structure Flowing (s : ProtocolState) : Prop extends Unhindered s where
  consistent : Consistent s
  watched : Watched s
  nothingLeft : NothingLeft s

section
variable {s t : ProtocolState} {o o' : List Effect} {f : HdlcFrame} {buffer : List UInt8}

theorem buffers_append (o o' : List Effect) : buffers (o ++ o') = buffers o ++ buffers o' :=
  List.filterMap_append

theorem buffers_mild (ho : AllMild o) : buffers o = [] := by
  apply List.filterMap_eq_nil_iff.mpr
  intro x hx
  have hmild := ho x hx
  cases x with
  | transmitHDLCFrame => exact hmild.elim
  | _ => rfl

theorem buffers_transmits (h : Transmits f o) : ∃ buffer, serializeFrame f = some buffer ∧ buffers o = [buffer] := by
  obtain ⟨copies, buffer, rfl, hbuffer, hcopies⟩ := h
  have hnone : buffers copies = [] := by
    apply List.filterMap_eq_nil_iff.mpr
    intro x hx
    have hcopy := hcopies x hx
    cases x with
    | transmitHDLCFrame => exact hcopy.elim
    | _ => rfl
  refine ⟨buffer, hbuffer, ?_⟩
  rw [buffers_append, hnone, List.nil_append]
  rfl

theorem welcome_of_sent (h : serializeFrame f = some buffer) (hrnr : f.hdlcFrameType ≠ .sRNR)
    (hlength : f.onWire.payload.length + 6 ≤ maxLength) : Welcome buffer := by
  refine ⟨serializeFrame_length h ▸ hlength, ?_⟩
  rw [deserializeFrame_serializeFrame h]
  exact (onWire_hdlcFrameType (· ≠ .sRNR) (by simp) f).mpr hrnr

def Spoken : Assertion ProtocolState Effect := fun t o => Unhindered t ∧ ∀ buffer ∈ buffers o, Welcome buffer

theorem Unhindered.sends (h : Unhindered { s with awaitsNextHDLCFrame := false })
    (hrnr : f.hdlcFrameType ≠ .sRNR) (hlength : f.onWire.payload.length + 6 ≤ maxLength) : Sends Spoken f s [] := by
  intro xs hxs
  obtain ⟨buffer, hbuffer, hsent⟩ := buffers_transmits hxs
  refine ⟨h, fun buffer' hmem => ?_⟩
  rw [List.nil_append, hsent, List.mem_singleton] at hmem
  rw [hmem]
  exact welcome_of_sent hbuffer hrnr hlength

theorem Unhindered.unacknowledged (h : Unhindered s) (ht : Unacknowledged s t) : Unhindered t := by
  obtain ⟨_, ⟨_, rfl⟩ | ⟨_, _, rfl⟩⟩ := ht
  · exact ⟨h.flow, rfl, h.reliable, h.unreliable⟩
  · exact h

theorem Unhindered.outcome (h : Unhindered s) : Outcome Spoken s [] := by
  have hshort : ([] : Payload).length + 6 ≤ maxLength := by decide
  constructor
  case silent => exact fun _ => ⟨h, by simp [buffers]⟩
  case fault => exact fun _ _ _ => ⟨⟨h.flow, h.fresh, h.reliable, h.unreliable⟩, by simp [buffers]⟩
  case probe =>
    exact fun _ _ _ => sends ⟨h.flow, h.fresh, h.reliable, h.unreliable⟩ (by decide) hshort
  case srej =>
    exact fun _ _ _ _ => sends ⟨h.flow, h.fresh, h.reliable, h.unreliable⟩ (by simp [prepareSFrameSREJ]) hshort
  case iFrame =>
    intro front rest _ _ hq _ _
    have hfront := h.reliable front (hq ▸ List.mem_cons_self)
    exact sends ⟨h.flow, h.fresh, h.reliable, h.unreliable⟩ (by simp [prepareIFrame]) hfront.2
  case poll =>
    exact fun _ _ _ _ _ => sends ⟨h.flow, h.fresh, h.reliable, h.unreliable⟩ (by simp [prepareSFrameRR]) hshort
  case rr =>
    exact fun _ _ _ _ => sends ⟨h.flow, h.fresh, h.reliable, h.unreliable⟩ (by simp [prepareSFrameRR]) hshort
  case uiFrame =>
    intro t front rest ht hq
    have ht' := h.unacknowledged ht
    have hall (payload : Payload) (hmem : payload ∈ front :: rest) : Carriable payload :=
      ht'.unreliable payload (hq ▸ hmem)
    refine sends ⟨ht'.flow, ht'.fresh, ht'.reliable, fun payload hmem => ?_⟩ (by simp [prepareUFrameUI])
      (hall front List.mem_cons_self).2
    exact hall payload (List.mem_cons_of_mem _ hmem)
  case query => exact fun t ht _ _ => ⟨h.unacknowledged ht, by simp [buffers]⟩
  case idle => exact fun t ht _ _ _ => ⟨h.unacknowledged ht, by simp [buffers]⟩

theorem Unhindered.enqueue (h : Unhindered s) {payload : Payload} (hpayload : Carriable payload)
    (reliable : Bool) : Unhindered (s.enqueue payload reliable) := by
  have hqueue {queue : List Payload} (hall : ∀ p ∈ queue, Carriable p) :
      ∀ p ∈ queue ++ [payload], Carriable p := by
    intro p hmem
    rcases List.mem_append.mp hmem with hmem | hmem
    · exact hall p hmem
    · rw [List.mem_singleton.mp hmem]
      exact hpayload
  cases reliable with
  | true => exact ⟨h.flow, h.fresh, hqueue h.reliable, h.unreliable⟩
  | false => exact ⟨h.flow, h.fresh, h.reliable, hqueue h.unreliable⟩

theorem Unhindered.prepareLocal (h : Unhindered s) {e : LocalEvent} (he : Ordinary (.internal e)) :
    Unhindered (prepareLocal e s).state := by
  have hp := prepared e s
  generalize ProtocolState.prepareLocal e s = p at hp
  cases hp with
  | sendPayload payload reliable => exact h.enqueue he reliable
  | start | stop | shutdown => exact ⟨rfl, rfl, h.reliable, h.unreliable⟩
  | _ => exact ⟨h.flow, h.fresh, h.reliable, h.unreliable⟩

theorem heard_reliable (f : HdlcFrame) (s : ProtocolState) :
    (checkAcks f (afterReceive f s)).1.waitQueueReliable = s.waitQueueReliable ∨
      ∃ front, s.waitQueueReliable = front :: (checkAcks f (afterReceive f s)).1.waitQueueReliable := by
  rcases (checkAcks_acked f (afterReceive f s)).reliable with hsame | ⟨_, _, front, hq⟩
  · exact .inl hsame
  · exact .inr ⟨front, hq⟩

theorem Unhindered.heard (h : Unhindered s) (hs : Consistent (afterReceive f s)) (hf : f.hdlcFrameType ≠ .sRNR) :
    Unhindered (checkAcks f (afterReceive f s)).1 := by
  have htested := checkAcks_tested hs f
  have hsame := (checkAcks_acked f (afterReceive f s)).same
  simp only [unacknowledgedMembers, Prod.mk.injEq] at hsame
  obtain ⟨_, _, _, _, _, _, _, _, hunreliable, _⟩ := hsame
  refine ⟨Bool.eq_false_of_not_eq_true fun hflow => ?_, Bool.eq_false_of_not_eq_true fun hfresh => ?_,
    fun payload hmem => ?_, fun payload hmem => ?_⟩
  · rcases htested.flow.mp hflow with hrnr | ⟨hstopped, _⟩
    · exact hf hrnr
    · exact Bool.false_ne_true (h.flow.symm.trans hstopped)
  · rcases htested.fresh.mp hfresh with hnew | ⟨hrnr, _⟩
    · exact Bool.false_ne_true (h.fresh.symm.trans hnew)
    · exact hf hrnr
  · rcases heard_reliable f s with hkept | ⟨front, hq⟩
    · exact h.reliable payload (hkept ▸ hmem)
    · exact h.reliable payload (hq ▸ List.mem_cons_of_mem front hmem)
  · exact h.unreliable payload (hunreliable ▸ hmem)

theorem Unhindered.prepare (h : Unhindered s) (hs : Consistent s) {e : Event} (he : Ordinary e) :
    Unhindered (prepare e s).state := by
  cases e with
  | internal e => exact h.prepareLocal he
  | frame buffer messageInvalid =>
    unfold ProtocolState.prepare prepareFrame
    dsimp only
    split_ifs with hstopped hnull
    · exact h
    · exact h
    · exact h
    · simp only [Bool.not_eq_true', Bool.not_eq_false] at hstopped hnull
      exact h.heard (hs.afterReceive hstopped hnull _) he

theorem Unhindered.handle (h : Unhindered s) (hs : Consistent s) {e : Event} (he : Ordinary e) :
    Unhindered (ProtocolState.handle e s).1 ∧
      ∀ buffer ∈ buffers (ProtocolState.handle e s).2, Welcome buffer := by
  have hprepared := h.prepare hs he
  have hsilent := buffers_mild (prepare_mild e s)
  rw [handle_eq, Preparation.finish]
  split_ifs
  · have hspoken := hprepared.outcome.opportunityForTransmission fun halive => ((hs.prepare e).running halive).2
    refine ⟨hspoken.1, fun buffer hmem => hspoken.2 buffer ?_⟩
    rwa [buffers_append, hsilent, List.nil_append] at hmem
  · exact ⟨hprepared, fun buffer hmem => absurd (hsilent ▸ hmem) List.not_mem_nil⟩

theorem Flowing.handle (h : Flowing s) {e : Event} (he : Ordinary e) : Flowing (ProtocolState.handle e s).1 := by
  have hfree : ¬ Leftover s := fun hleft => Bool.false_ne_true (h.fresh.symm.trans hleft.2.1)
  have hsettled : ProtocolState.Settled s := fun _ _ => hfree
  have hwatched : NotOvertaken s e := by
    cases e with
    | internal e =>
      cases e with
      | triggerNextHDLCFrame => exact fun _ _ => hfree
      | _ => trivial
    | frame buffer messageInvalid =>
      cases messageInvalid with
      | false => exact fun _ _ _ _ => hfree
      | true => trivial
  have hfed : ¬ Starved s e := by
    cases e with
    | internal e =>
      cases e with
      | triggerNextHDLCFrame =>
        rintro ⟨_, _, _, _, _, hnew, _⟩
        exact Bool.false_ne_true (h.fresh.symm.trans hnew)
      | _ => exact id
    | frame buffer messageInvalid =>
      cases messageInvalid with
      | false =>
        rintro ⟨_, _, _, _, _, hnew | ⟨hrnr, _⟩, _⟩
        · exact Bool.false_ne_true (h.fresh.symm.trans hnew)
        · exact he hrnr
      | true => exact id
  exact {
    toUnhindered := (h.toUnhindered.handle h.consistent he).1
    consistent := h.consistent.handle e
    watched := (h.watched.handle hsettled hwatched).1
    nothingLeft := handle_nothingLeft h.consistent (fun _ _ => h.fresh) h.nothingLeft hfed }

theorem Flowing.initial : Flowing ProtocolState.initial where
  flow := rfl
  fresh := rfl
  reliable payload hmem := absurd hmem List.not_mem_nil
  unreliable payload hmem := absurd hmem List.not_mem_nil
  consistent := .initial
  watched := .of_idle rfl (by decide)
  nothingLeft := by decide

def due (s : ProtocolState) : Nat := s.sendProbe.toNat + s.srejs.length

theorem opportunity_srej (hs : Open s) (hhandler : s.serialPortHandler = true) {front : UInt8} {rest : List UInt8}
    (hsrejs : s.srejs = front :: rest) :
    opportunityForTransmission s = transmitFrame (prepareSFrameSREJ front) { s with srejs := rest } := by
  simp [opportunityForTransmission, branch, hs.awaits, hs.probe, hs.alive, sendOutstanding_cons hsrejs,
    withSerialPortHandler, hhandler]

theorem opportunity_iFrame (hs : Open s) (hhandler : s.serialPortHandler = true) (hsrejs : s.srejs = [])
    {front : Payload} {rest : List Payload} (hq : s.waitQueueReliable = front :: rest)
    (hidle : s.waitForAck = false) (hflow : s.peerStoppedFlow = false) :
    ∃ buffer, serializeFrame (s.prepareIFrame front) = some buffer ∧
      buffers (opportunityForTransmission s).2 = [buffer] ∧
      (opportunityForTransmission s).1 =
        { s with
          waitForAck := true
          peerRequiresAck := false
          timer := s.timer.asyncWait .retransmission
          awaitsNextHDLCFrame := false } := by
  obtain ⟨buffer, hbuffer⟩ := exists_serializeFrame (f := s.prepareIFrame front) rfl
  have hsent : opportunityForTransmission s = sendIFrame front s := by
    simp [opportunityForTransmission, branch, hs.awaits, hs.probe, hs.alive, sendOutstanding_nil hsrejs,
      sendReliable_iFrame hq ⟨hidle, hflow⟩]
  refine ⟨buffer, hbuffer, ?_⟩
  rw [hsent]
  simp [sendIFrame, withSerialPortHandler, branch, hhandler, emit, update, transmitFrame_eq hbuffer, buffers]

theorem opportunity_acknowledges (hs : Open s) (hhandler : s.serialPortHandler = true) (hsrejs : s.srejs = [])
    (hfresh : s.peerStoppedFlowNew = false) (hdue : s.peerRequiresAck = true) :
    ∃ f buffer, serializeFrame f = some buffer ∧ buffers (opportunityForTransmission s).2 = [buffer] ∧
      (f.hdlcFrameType = .i ∨ f.hdlcFrameType = .sRR) ∧ f.rSeq = s.rSeqIncoming := by
  let P : Assertion ProtocolState Effect := fun _ o =>
    ∃ f buffer, serializeFrame f = some buffer ∧ buffers o = [buffer] ∧
      (f.hdlcFrameType = .i ∨ f.hdlcFrameType = .sRR) ∧ f.rSeq = s.rSeqIncoming
  have hsends {f : HdlcFrame} {t : ProtocolState} (ht : f.hdlcFrameType = .i ∨ f.hdlcFrameType = .sRR)
      (hseq : f.rSeq = s.rSeqIncoming) : Sends P f t [] := by
    intro xs hxs
    obtain ⟨buffer, hbuffer, hsent⟩ := buffers_transmits hxs
    exact ⟨f, buffer, hbuffer, hsent, ht, hseq⟩
  have hnever {t : ProtocolState} (ht : Unacknowledged s t) : False := by
    rcases ht.2 with ⟨hnew, _⟩ | ⟨_, hnone, _⟩
    · exact Bool.false_ne_true (hfresh.symm.trans hnew)
    · exact Bool.false_ne_true (hnone.symm.trans hdue)
  have hout : Outcome P s [] := by
    constructor
    case silent =>
      rintro (hbusy | ⟨_, hdead⟩)
      · exact absurd (hbusy.symm.trans hs.awaits) Bool.false_ne_true
      · exact absurd (hdead.symm.trans hs.alive) Bool.false_ne_true
    case fault => exact fun _ hprobe => absurd (hs.probe.symm.trans hprobe) Bool.false_ne_true
    case probe => exact fun _ hprobe => absurd (hs.probe.symm.trans hprobe) Bool.false_ne_true
    case srej => exact fun front rest _ hq => absurd (hsrejs.symm.trans hq) (List.cons_ne_nil _ _).symm
    case iFrame => exact fun _ _ _ _ _ _ _ => hsends (.inl rfl) rfl
    case poll => exact fun _ _ _ _ _ => hsends (.inr rfl) rfl
    case rr => exact fun _ _ _ _ => hsends (.inr rfl) rfl
    case uiFrame => exact fun t _ _ ht => (hnever ht).elim
    case query => exact fun t ht => (hnever ht).elim
    case idle => exact fun t ht => (hnever ht).elim
  exact hout.opportunityForTransmission fun _ => hhandler

def weight (buffer : List UInt8) : Nat := if (deserializeFrame buffer).isIFrame then 20 else 1

def weights (channel : List (List UInt8)) : Nat := (channel.map weight).sum

/-- What an entity can still cause on its own account: an I-frame that it receives makes at most
eight SREJs due, and a free port lets it answer once. -/
def load (s : ProtocolState) : Nat := 2 * due s + 30 * s.awaitsNextHDLCFrame.toNat

theorem weight_of_sent (h : serializeFrame f = some buffer) : weight buffer = if f.isIFrame then 20 else 1 := by
  have hi : f.onWire.isIFrame = f.isIFrame := onWire_hdlcFrameType (· == .i) rfl f
  rw [weight, deserializeFrame_serializeFrame h, hi]

theorem weight_pos (buffer : List UInt8) : 0 < weight buffer := by
  unfold weight
  split_ifs <;> decide

theorem weight_le (buffer : List UInt8) : weight buffer ≤ 20 := by
  unfold weight
  split_ifs <;> decide

theorem weights_append (c c' : List (List UInt8)) : weights (c ++ c') = weights c + weights c' := by
  rw [weights, List.map_append, List.sum_append]
  rfl

theorem weights_cons (buffer : List UInt8) (c : List (List UInt8)) :
    weights (buffer :: c) = weight buffer + weights c := by
  rw [weights, List.map_cons, List.sum_cons]
  rfl

theorem opportunity_load (hs : Consistent s) :
    load (opportunityForTransmission s).1 + weights (buffers (opportunityForTransmission s).2) ≤ load s := by
  let P : Assertion ProtocolState Effect := fun t o => load t + weights (buffers o) ≤ load s
  have hsends {f : HdlcFrame} (t : ProtocolState) (hdue : due t ≤ due s) (hawaits : s.awaitsNextHDLCFrame = true) :
      Sends P f t [] := by
    intro xs hxs
    obtain ⟨buffer, _, hsent⟩ := buffers_transmits hxs
    have hle := weight_le buffer
    show load _ + weights (buffers ([] ++ xs)) ≤ _
    have hbusy : load { t with awaitsNextHDLCFrame := false } = 2 * due t := rfl
    rw [List.nil_append, hsent, weights_cons, hbusy, load, hawaits]
    show 2 * due t + (weight buffer + 0) ≤ 2 * due s + 30 * 1
    omega
  have hquiet {t : ProtocolState} {xs : List Effect} (ht : Unacknowledged s t) (hxs : buffers xs = []) :
      load t + weights (buffers ([] ++ xs)) ≤ load s := by
    rw [List.nil_append, hxs]
    obtain ⟨_, ⟨_, rfl⟩ | ⟨_, _, rfl⟩⟩ := ht <;> exact Nat.le_refl _
  have hprobe : due { s with sendProbe := false } ≤ due s := by
    show 0 + s.srejs.length ≤ s.sendProbe.toNat + s.srejs.length
    omega
  have hout : Outcome P s [] := by
    constructor
    case silent => exact fun _ => Nat.le_refl _
    case fault =>
      intro _ _ _
      show 2 * due { s with sendProbe := false } + 30 * s.awaitsNextHDLCFrame.toNat + 0 ≤ _
      unfold load
      omega
    case probe => exact fun hawaits _ _ => hsends _ hprobe hawaits
    case srej =>
      intro front rest hopen hq
      refine hsends _ ?_ hopen.awaits
      show s.sendProbe.toNat + rest.length ≤ s.sendProbe.toNat + s.srejs.length
      rw [hq, List.length_cons]
      omega
    case iFrame =>
      intro front rest hopen _ _ _ _
      exact hsends { s with waitForAck := true, peerRequiresAck := false, timer := s.timer.asyncWait .retransmission }
        (Nat.le_refl (due s)) hopen.awaits
    case poll =>
      intro hpasses _ _ _ _
      exact hsends (startRnrTimer { s with peerRequiresAck := false, peerStoppedFlowQueried := true })
        (Nat.le_refl (due s)) hpasses.awaits
    case rr =>
      intro hpasses _ _ _
      exact hsends { s with peerRequiresAck := false } (Nat.le_refl (due s)) hpasses.awaits
    case uiFrame =>
      intro t front rest ht hq
      refine hsends _ ?_ ht.1.awaits
      obtain ⟨_, ⟨_, rfl⟩ | ⟨_, _, rfl⟩⟩ := ht <;> exact Nat.le_refl _
    case query => exact fun t ht _ _ => hquiet ht rfl
    case idle => exact fun t ht _ _ _ => hquiet ht rfl
  exact hout.opportunityForTransmission fun halive => (hs.running halive).2

theorem handle_trigger (hstarted : s.started = true) :
    ProtocolState.handle (.internal .triggerNextHDLCFrame) s =
      opportunityForTransmission { s with awaitsNextHDLCFrame := true } := by
  show branch (fun s => !s.started) skip _ s = _
  unfold branch
  rw [if_neg (by simp [hstarted])]
  rfl

theorem trigger_load (hs : Consistent s) (halive : s.aliveState.isAlive = true) (hbusy : s.awaitsNextHDLCFrame = false)
    (hdue : 0 < due s) :
    load (ProtocolState.handle (.internal .triggerNextHDLCFrame) s).1 +
      weights (buffers (ProtocolState.handle (.internal .triggerNextHDLCFrame) s).2) < load s := by
  obtain ⟨hstarted, hhandler⟩ := hs.running halive
  have hload : load s = 2 * due s := by
    rw [load, hbusy]
    rfl
  have hone {f : HdlcFrame} (hf : f.isIFrame = false) {buffer : List UInt8} (hbuffer : serializeFrame f = some buffer)
      (t : ProtocolState) : weights (buffers (transmitFrame f t).2) = 1 := by
    rw [transmitFrame_eq hbuffer]
    show weight buffer + 0 = 1
    rw [weight_of_sent hbuffer, hf]
    rfl
  rw [handle_trigger hstarted, hload]
  rcases Bool.eq_false_or_eq_true s.sendProbe with hprobe | hprobe
  · obtain ⟨buffer, hbuffer⟩ := exists_serializeFrame (f := prepareUFrameTEST) rfl
    rw [opportunity_probe (s := { s with awaitsNextHDLCFrame := true }) rfl hprobe hhandler, hone rfl hbuffer,
      transmitFrame_eq hbuffer, due, hprobe]
    show 2 * (0 + s.srejs.length) + 0 + 1 < 2 * (1 + s.srejs.length)
    omega
  · obtain ⟨front, rest, hsrejs⟩ : ∃ front rest, s.srejs = front :: rest := by
      refine List.exists_cons_of_ne_nil fun hnone => ?_
      rw [due, hprobe, hnone] at hdue
      exact Nat.lt_irrefl 0 hdue
    obtain ⟨buffer, hbuffer⟩ := exists_serializeFrame (f := prepareSFrameSREJ front) rfl
    rw [opportunity_srej (s := { s with awaitsNextHDLCFrame := true }) ⟨rfl, hprobe, halive⟩ hhandler hsrejs,
      hone rfl hbuffer, transmitFrame_eq hbuffer, due, hprobe, hsrejs]
    show 2 * (0 + rest.length) + 0 + 1 < 2 * (0 + (rest.length + 1))
    omega

theorem missingFrames_length (sSeq : UInt8) (rounds : Nat) (it : UInt8) :
    (missingFrames sSeq rounds it).length ≤ rounds := by
  induction rounds generalizing it with
  | zero => exact Nat.le_refl 0
  | succ rounds ih =>
    rw [missingFrames]
    split_ifs
    · exact Nat.zero_le _
    · exact Nat.succ_le_succ (ih (it + 1))

theorem missingFrames_ne (sSeq : UInt8) (rounds : Nat) (it : UInt8) :
    ∀ n ∈ missingFrames sSeq rounds it, n &&& 0x07 ≠ sSeq := by
  induction rounds generalizing it with
  | zero => exact fun n hn => absurd hn List.not_mem_nil
  | succ rounds ih =>
    rw [missingFrames]
    split_ifs with hend
    · exact fun n hn => absurd hn List.not_mem_nil
    · intro n hn
      rcases List.mem_cons.mp hn with rfl | hn
      · exact hend
      · exact ih (it + 1) n hn

def heard (f : HdlcFrame) (s : ProtocolState) : ProtocolState := (checkAcks f (afterReceive f s)).1

theorem handle_frame_busy (hstarted : s.started = true) (hhandler : s.serialPortHandler = true)
    (hbusy : s.awaitsNextHDLCFrame = false) :
    (ProtocolState.handle (.frame buffer false) s).1 = heard (deserializeFrame buffer) s ∧
      buffers (ProtocolState.handle (.frame buffer false) s).2 = [] := by
  have hsame := (checkAcks_acked (deserializeFrame buffer) (afterReceive (deserializeFrame buffer) s)).same
  simp only [unacknowledgedMembers, Prod.mk.injEq] at hsame
  have hsilent := buffers_mild (prepare_mild (.frame buffer false) s)
  have hquiet : (prepare (.frame buffer false) s).opportunity = false := by
    simp only [prepare, prepareFrame, hstarted, hhandler]
    exact hsame.2.1.trans hbusy
  rw [handle_eq, Preparation.finish_quiet hquiet]
  refine ⟨?_, hsilent⟩
  simp only [prepare, prepareFrame, hstarted, hhandler]
  rfl

theorem handle_frame_free (hstarted : s.started = true) (hhandler : s.serialPortHandler = true)
    (hfree : s.awaitsNextHDLCFrame = true) :
    (ProtocolState.handle (.frame buffer false) s).1 =
        (opportunityForTransmission (heard (deserializeFrame buffer) s)).1 ∧
      buffers (ProtocolState.handle (.frame buffer false) s).2 =
        buffers (opportunityForTransmission (heard (deserializeFrame buffer) s)).2 := by
  have hsame := (checkAcks_acked (deserializeFrame buffer) (afterReceive (deserializeFrame buffer) s)).same
  simp only [unacknowledgedMembers, Prod.mk.injEq] at hsame
  have hsilent := buffers_mild (prepare_mild (.frame buffer false) s)
  have hopen : (prepare (.frame buffer false) s).opportunity = true := by
    simp only [prepare, prepareFrame, hstarted, hhandler]
    exact hsame.2.1.trans hfree
  have hstate : (prepare (.frame buffer false) s).state = heard (deserializeFrame buffer) s := by
    simp only [prepare, prepareFrame, hstarted, hhandler]
    rfl
  rw [handle_eq, Preparation.finish_opportunity hopen, buffers_append, hsilent, hstate]
  exact ⟨rfl, List.nil_append _⟩

theorem heard_load (f : HdlcFrame) (s : ProtocolState) :
    load (heard f s) ≤ load s + if f.isIFrame then 16 else 0 := by
  have hsame := (checkAcks_acked f (afterReceive f s)).same
  simp only [unacknowledgedMembers, Prod.mk.injEq] at hsame
  obtain ⟨_, hawaits, _, hprobe, _, hsrejs, _⟩ := hsame
  have hlength : (afterReceive f s).srejs.length ≤ s.srejs.length + if f.isIFrame then 8 else 0 := by
    unfold afterReceive
    cases hi : f.isIFrame with
    | false =>
      rw [Bool.and_false]
      exact Nat.le_refl _
    | true =>
      cases f.hasPayload with
      | false => exact Nat.le_add_right _ _
      | true =>
        show (if s.rSeqIncoming ≠ f.sSeq then missingFrames f.sSeq 8 s.rSeqIncoming else s.srejs).length ≤
          s.srejs.length + 8
        split_ifs
        · exact (missingFrames_length _ _ _).trans (Nat.le_add_left _ _)
        · exact Nat.le_add_right _ _
  have hload : load (heard f s) = 2 * (s.sendProbe.toNat + (afterReceive f s).srejs.length) +
      30 * s.awaitsNextHDLCFrame.toNat := by
    rw [load, due, heard, hawaits, hprobe, hsrejs]
    rfl
  rw [hload, load, due]
  split_ifs at hlength ⊢ <;> omega

theorem frame_load (hs : Consistent s) (buffer : List UInt8) :
    load (ProtocolState.handle (.frame buffer false) s).1 +
      weights (buffers (ProtocolState.handle (.frame buffer false) s).2) < load s + weight buffer := by
  have hpos := weight_pos buffer
  have hprepared : load (prepare (.frame buffer false) s).state < load s + weight buffer := by
    unfold prepare prepareFrame
    dsimp only
    split_ifs with _ _ hinvalid
    · exact Nat.lt_add_of_pos_right hpos
    · exact Nat.lt_add_of_pos_right hpos
    · exact hinvalid.elim
    · have hheard := heard_load (deserializeFrame buffer) s
      show load (heard (deserializeFrame buffer) s) < _
      unfold weight at hpos ⊢
      split_ifs at hheard ⊢ <;> omega
  have hsilent := buffers_mild (prepare_mild (.frame buffer false) s)
  rw [handle_eq, Preparation.finish]
  split_ifs
  · have hspoken := opportunity_load (hs.prepare (.frame buffer false))
    rw [buffers_append, hsilent, List.nil_append]
    exact hspoken.trans_lt hprepared
  · rw [hsilent]
    exact hprepared

end
end Hdlcd.Link
