import Hdlcd.Framing.Wire
import Hdlcd.Protocol.Ending

/-! The range of the sequence numbers, and the two views of a frame that is sent. The
encoder masks what the dissector prints as it is, so they agree as long as no number leaves
the modulus: the loop over the missing frames does leave it when the gap wraps around. -/

namespace Hdlcd.ProtocolState
open Reactive Action FrameGenerator FrameParser Framing

structure InRange (s : ProtocolState) : Prop where
  sSeqOutgoing : s.sSeqOutgoing < 8
  rSeqIncoming : s.rSeqIncoming < 8
  srejs : ∀ it ∈ s.srejs, it < 8

def Wraps (rSeqIncoming sSeq : UInt8) : Prop := 0 < sSeq ∧ sSeq < rSeqIncoming

/-- No I-frame with payload is received whose gap wraps around. -/
def Unwrapped (s : ProtocolState) : Event → Prop
  | .frame buffer false =>
    Attached s → (deserializeFrame buffer).isIFrame = true → (deserializeFrame buffer).hasPayload = true →
      ¬ Wraps s.rSeqIncoming (deserializeFrame buffer).sSeq
  | _ => True

theorem missingFrames_range : ∀ it sSeq : Fin 8,
    (missingFrames (UInt8.ofNat sSeq.val) 8 (UInt8.ofNat it.val)).all (· < 8) =
        !decide (0 < sSeq ∧ sSeq < it) ∧
      (missingFrames (UInt8.ofNat sSeq.val) 8 (UInt8.ofNat it.val)).tail.any (8 ≤ ·) =
        decide (0 < sSeq ∧ sSeq < it) := by
  decide +kernel

theorem exists_fin_eight {x : UInt8} (h : x < 8) : ∃ i : Fin 8, x = UInt8.ofNat i.val := by
  obtain ⟨i, hi⟩ := exists_fin_and_seven x
  exact ⟨i, (and_seven_eq_self h).symm.trans hi⟩

theorem wraps_ofNat (it sSeq : Fin 8) :
    Wraps (UInt8.ofNat it.val) (UInt8.ofNat sSeq.val) ↔ 0 < sSeq ∧ sSeq < it := by
  revert it sSeq
  unfold Wraps
  decide +kernel

section
variable {it sSeq : UInt8}

theorem missingFrames_lt (hit : it < 8) (hseq : sSeq < 8) (h : ¬ Wraps it sSeq) :
    ∀ x ∈ missingFrames sSeq 8 it, x < 8 := by
  obtain ⟨i, rfl⟩ := exists_fin_eight hit
  obtain ⟨j, rfl⟩ := exists_fin_eight hseq
  have hall := (missingFrames_range i j).1
  rw [decide_eq_false (mt (wraps_ofNat i j).mpr h), Bool.not_false, List.all_eq_true] at hall
  exact fun x hx => of_decide_eq_true (hall x hx)

theorem missingFrames_wraps (hit : it < 8) (hseq : sSeq < 8) (h : Wraps it sSeq) :
    ∃ x ∈ (missingFrames sSeq 8 it).tail, 8 ≤ x := by
  obtain ⟨i, rfl⟩ := exists_fin_eight hit
  obtain ⟨j, rfl⟩ := exists_fin_eight hseq
  have hany := (missingFrames_range i j).2
  rw [decide_eq_true ((wraps_ofNat i j).mp h), List.any_eq_true] at hany
  obtain ⟨x, hx, hlarge⟩ := hany
  exact ⟨x, hx, of_decide_eq_true hlarge⟩

end

theorem deserializeFrame_sSeq_lt (buffer : List UInt8) : (deserializeFrame buffer).sSeq < 8 := by
  have hzero : (0 : UInt8) < 8 := by decide
  match buffer with
  | [] | [_] | [_, _] => exact hzero
  | _ :: _ :: c :: _ =>
    simp only [deserializeFrame, deserializeControl]
    split_ifs
    · apply UInt8.lt_iff_toNat_lt.mpr
      have hmask : (c &&& 0x0E).toNat ≤ 14 := by
        rw [UInt8.toNat_and]
        exact Nat.and_le_right
      rw [UInt8.toNat_shiftRight, Nat.shiftRight_eq_div_pow]
      exact Nat.div_lt_of_lt_mul (Nat.lt_of_le_of_lt hmask (by decide))
    · exact hzero
    · exact hzero

section
variable {s : ProtocolState}

def SendsInRange : Assertion ProtocolState Effect := fun s _ => s.sSeqOutgoing < 8

theorem sendsInRange_steady : Steady SendsInRange where
  kept h hk := lt_of_eq_of_lt hk.sSeqOutgoing h
  quiet h _ := h

theorem nextSSeq_lt (h : s.sSeqOutgoing < 8) (buffer : List UInt8) :
    nextSSeq (deserializeFrame buffer) s < 8 := by
  unfold nextSSeq
  split_ifs
  · exact deserializeFrame_rSeq_lt buffer
  · exact and_seven_lt _
  · exact h

theorem checkAcks_sSeqOutgoing (h : s.sSeqOutgoing < 8) (buffer : List UInt8) :
    (checkAcks (deserializeFrame buffer) s).1.sSeqOutgoing < 8 := by
  have hrule : AckRule (deserializeFrame buffer) SendsInRange s [] :=
    { pop := fun _ _ _ _ _ _ _ => deserializeFrame_rSeq_lt buffer
      pass := fun _ _ _ => nextSSeq_lt h buffer }
  exact sendsInRange_steady.checkAcks hrule

namespace InRange

theorem congr {t : ProtocolState} (h : InRange s)
    (hsame : (t.sSeqOutgoing, t.rSeqIncoming, t.srejs) = (s.sSeqOutgoing, s.rSeqIncoming, s.srejs)) :
    InRange t := by
  simp only [Prod.mk.injEq] at hsame
  obtain ⟨hsSeq, hrSeq, hsrejs⟩ := hsame
  exact ⟨hsSeq ▸ h.sSeqOutgoing, hrSeq ▸ h.rSeqIncoming, hsrejs ▸ h.srejs⟩

theorem reset (s : ProtocolState) : InRange s.reset where
  sSeqOutgoing := show (0 : UInt8) < 8 by decide
  rSeqIncoming := show (0 : UInt8) < 8 by decide
  srejs _ hit := absurd hit List.not_mem_nil

theorem prepareLocal (h : InRange s) {e : LocalEvent} {p : Preparation} (hp : Prepared s e p) :
    InRange p.state := by
  cases hp with
  | start | stop | shutdown => exact (reset s).congr rfl
  | sendPayload payload reliable => cases reliable <;> exact h.congr rfl
  | _ => exact h.congr rfl

theorem afterReceive (h : InRange s) (buffer : List UInt8)
    (hunwrapped : (deserializeFrame buffer).isIFrame = true → (deserializeFrame buffer).hasPayload = true →
      ¬ Wraps s.rSeqIncoming (deserializeFrame buffer).sSeq) :
    InRange (afterReceive (deserializeFrame buffer) s) := by
  unfold ProtocolState.afterReceive
  split_ifs with hcounts
  · rw [Bool.and_eq_true] at hcounts
    refine ⟨h.sSeqOutgoing, and_seven_lt _, fun it hit => ?_⟩
    simp only [advanceWindow] at hit
    split_ifs at hit
    · exact missingFrames_lt h.rSeqIncoming (deserializeFrame_sSeq_lt buffer)
        (hunwrapped hcounts.2 hcounts.1) it hit
    · exact h.srejs it hit
  · exact h.congr rfl

theorem acked (h : InRange s) (buffer : List UInt8) : InRange (checkAcks (deserializeFrame buffer) s).1 := by
  have hsame := (checkAcks_acked (deserializeFrame buffer) s).same
  simp only [unacknowledgedMembers, Prod.mk.injEq] at hsame
  obtain ⟨_, _, hrSeq, _, _, hsrejs, _⟩ := hsame
  exact ⟨checkAcks_sSeqOutgoing h.sSeqOutgoing buffer, hrSeq ▸ h.rSeqIncoming, hsrejs ▸ h.srejs⟩

theorem prepare (h : InRange s) {e : Event} (he : Unwrapped s e) : InRange (prepare e s).state := by
  cases e with
  | internal e => exact h.prepareLocal (prepared e s)
  | frame buffer messageInvalid =>
    unfold ProtocolState.prepare prepareFrame
    dsimp only
    split_ifs with hstarted hhandler hinvalid
    · exact h
    · exact h
    · exact h
    · simp only [Bool.not_eq_true', Bool.not_eq_false, Bool.not_eq_true] at hstarted hhandler hinvalid
      subst hinvalid
      exact (h.afterReceive buffer (he ⟨hstarted, hhandler⟩)).acked buffer

end InRange

theorem unacknowledged_srejs {t : ProtocolState} (h : Unacknowledged s t) :
    (t.sSeqOutgoing, t.rSeqIncoming, t.srejs) = (s.sSeqOutgoing, s.rSeqIncoming, s.srejs) := by
  obtain ⟨_, ⟨_, rfl⟩ | ⟨_, _, rfl⟩⟩ := h <;> rfl

def ReadsAlike (o : List Effect) : Prop :=
  ∀ f buffer, .transmitHDLCFrame f buffer ∈ o →
    serializeFrame f = some buffer ∧ SameFrame f (deserializeFrame buffer)

theorem ReadsAlike.append {o xs : List Effect} (ho : ReadsAlike o) (hxs : ReadsAlike xs) :
    ReadsAlike (o ++ xs) := fun f buffer hmem =>
  (List.mem_append.mp hmem).elim (ho f buffer) (hxs f buffer)

theorem readsAlike_of_notMem {o : List Effect} (h : ∀ f buffer, .transmitHDLCFrame f buffer ∉ o) :
    ReadsAlike o := fun f buffer hmem => absurd hmem (h f buffer)

theorem readsAlike_transmits {f : HdlcFrame} (h : Transmissible f) {xs : List Effect}
    (hxs : Transmits f xs) : ReadsAlike xs := by
  obtain ⟨copies, buffer, rfl, hbuffer, hcopies⟩ := hxs
  intro g raw hmem
  rcases List.mem_append.mp hmem with hcopy | hlast
  · exact (hcopies _ hcopy).elim
  · obtain ⟨rfl, rfl⟩ : g = f ∧ raw = buffer := by simpa using hlast
    refine ⟨hbuffer, ?_⟩
    rw [deserializeFrame_serializeFrame hbuffer]
    exact h.sameFrame

theorem transmissible_unnumbered {f : HdlcFrame} (ht : f.hdlcFrameType = .uUI ∨ f = prepareUFrameTEST)
    (hseq : f.sSeq = 0 ∧ f.rSeq = 0) : Transmissible f where
  frameType := by
    rcases ht with ht | rfl
    · rw [ht]
      decide
    · decide
  sSeq_lt := hseq.1 ▸ (by decide)
  rSeq_lt := hseq.2 ▸ (by decide)
  no_payload _ hne := by
    rcases ht with ht | rfl
    · exact absurd ht hne
    · rfl

theorem transmissible_supervisory {f : HdlcFrame} (ht : f.hdlcFrameType = .sRR ∨ f.hdlcFrameType = .sSREJ)
    (hsSeq : f.sSeq = 0) (hpayload : f.payload = []) (hrSeq : f.rSeq < 8) : Transmissible f where
  frameType := by rcases ht with ht | ht <;> rw [ht] <;> decide
  sSeq_lt := hsSeq ▸ (by decide)
  rSeq_lt := hrSeq
  no_payload _ _ := hpayload

theorem InRange.transmissible_iFrame (h : InRange s) (front : Payload) :
    Transmissible (s.prepareIFrame front) where
  frameType := List.mem_cons_self
  sSeq_lt := h.sSeqOutgoing
  rSeq_lt := h.rSeqIncoming
  no_payload hi := absurd hi Bool.false_ne_true.symm

def StaysAlike : Assertion ProtocolState Effect := fun s o => InRange s ∧ ReadsAlike o

theorem InRange.sends (hs : InRange s) {f : HdlcFrame} (hf : Transmissible f) {o : List Effect}
    (ho : ReadsAlike o) {t : ProtocolState}
    (hsame : (t.sSeqOutgoing, t.rSeqIncoming, t.srejs) = (s.sSeqOutgoing, s.rSeqIncoming, s.srejs)) :
    Sends StaysAlike f t o :=
  fun _ hxs => ⟨hs.congr hsame, ho.append (readsAlike_transmits hf hxs)⟩

theorem InRange.outcome (h : InRange s) {o : List Effect} (ho : ReadsAlike o) : Outcome StaysAlike s o where
  silent _ := ⟨h, ho⟩
  fault _ _ _ := ⟨h.congr rfl, ho.append (readsAlike_of_notMem (by simp))⟩
  probe _ _ _ := h.sends (transmissible_unnumbered (.inr rfl) ⟨rfl, rfl⟩) ho rfl
  srej front rest _ hsrejs := by
    have hfront : front < 8 := h.srejs front (by rw [hsrejs]; exact List.mem_cons_self)
    have hrest : InRange { s with srejs := rest } :=
      ⟨h.sSeqOutgoing, h.rSeqIncoming, fun it hit => h.srejs it (by rw [hsrejs]; exact List.mem_cons_of_mem _ hit)⟩
    exact hrest.sends (transmissible_supervisory (.inr rfl) rfl rfl hfront) ho rfl
  iFrame front _ _ _ _ _ _ := h.sends (h.transmissible_iFrame front) ho rfl
  poll _ _ _ _ _ := h.sends (transmissible_supervisory (.inl rfl) rfl rfl h.rSeqIncoming) ho rfl
  rr _ _ _ _ := h.sends (transmissible_supervisory (.inl rfl) rfl rfl h.rSeqIncoming) ho rfl
  uiFrame _ _ _ ht _ := by
    have hsame := unacknowledged_srejs ht
    exact h.sends (transmissible_unnumbered (.inl rfl) ⟨rfl, rfl⟩) ho hsame
  query _ ht _ _ := ⟨h.congr (unacknowledged_srejs ht), ho.append (readsAlike_of_notMem (by simp))⟩
  idle _ ht _ _ _ := ⟨h.congr (unacknowledged_srejs ht), ho⟩

theorem InRange.handle (h : InRange s) (hs : Consistent s) {e : Event} (he : Unwrapped s e) :
    StaysAlike (handle e s).1 (handle e s).2 := by
  have hquiet : ReadsAlike (ProtocolState.prepare e s).effects :=
    readsAlike_of_notMem fun _ _ hmem => (prepare_mild e s _ hmem).elim
  rw [handle_eq, Preparation.finish]
  split_ifs
  · exact ((h.prepare he).outcome hquiet).opportunityForTransmission
      fun halive => ((hs.prepare e).running halive).2
  · exact ⟨h.prepare he, hquiet⟩

def OutOfRange : Assertion ProtocolState Effect := fun s _ => ∃ it ∈ s.srejs, 8 ≤ it

theorem outOfRange_outcome (h : ∃ it ∈ s.srejs.tail, 8 ≤ it) {o : List Effect} :
    Outcome OutOfRange s o := by
  obtain ⟨it, hit, hlarge⟩ := h
  have hmem : it ∈ s.srejs := List.mem_of_mem_tail hit
  have hkept {t : ProtocolState} (ht : Unacknowledged s t) : ∃ it ∈ t.srejs, 8 ≤ it := by
    have hsame : t.srejs = s.srejs := congrArg (·.2.2) (unacknowledged_srejs ht)
    exact ⟨it, hsame ▸ hmem, hlarge⟩
  -- an SREJ takes the first entry, the last one stays
  exact
    { silent := fun _ => ⟨it, hmem, hlarge⟩
      fault := fun _ _ _ => ⟨it, hmem, hlarge⟩
      probe := fun _ _ _ _ _ => ⟨it, hmem, hlarge⟩
      srej := fun front rest _ hsrejs _ _ => ⟨it, by rwa [hsrejs] at hit, hlarge⟩
      iFrame := fun _ _ _ _ _ _ _ _ _ => ⟨it, hmem, hlarge⟩
      poll := fun _ _ _ _ _ _ _ => ⟨it, hmem, hlarge⟩
      rr := fun _ _ _ _ _ _ => ⟨it, hmem, hlarge⟩
      uiFrame := fun _ _ _ ht _ _ _ => (hkept ht :)
      query := fun _ ht _ _ => hkept ht
      idle := fun _ ht _ _ _ => hkept ht }

theorem prepare_wrapped (h : InRange s) {e : Event} (he : ¬ Unwrapped s e) :
    ∃ it ∈ (prepare e s).state.srejs.tail, 8 ≤ it := by
  match e with
  | .internal e => exact absurd trivial he
  | .frame buffer true => exact absurd trivial he
  | .frame buffer false =>
    simp only [Unwrapped, Classical.not_imp, not_not] at he
    obtain ⟨⟨hstarted, hhandler⟩, hi, hpayload, hwraps⟩ := he
    have hgap : s.rSeqIncoming ≠ (deserializeFrame buffer).sSeq := by
      rintro heq
      exact absurd hwraps.2 (by rw [heq]; exact UInt8.lt_irrefl _)
    have hacked := (checkAcks_acked (deserializeFrame buffer)
      (ProtocolState.afterReceive (deserializeFrame buffer) s)).same
    simp only [unacknowledgedMembers, Prod.mk.injEq] at hacked
    obtain ⟨_, _, _, _, _, hsrejs, _⟩ := hacked
    have hstate : (prepare (.frame buffer false) s).state =
        (checkAcks (deserializeFrame buffer) (ProtocolState.afterReceive (deserializeFrame buffer) s)).1 := by
      simp [prepare, prepareFrame, hstarted, hhandler, prepareValidFrame]
    have hqueued : (ProtocolState.afterReceive (deserializeFrame buffer) s).srejs =
        missingFrames (deserializeFrame buffer).sSeq 8 s.rSeqIncoming := by
      simp [ProtocolState.afterReceive, hi, hpayload, advanceWindow, hgap]
    rw [hstate, hsrejs, hqueued]
    exact missingFrames_wraps h.rSeqIncoming (deserializeFrame_sSeq_lt buffer) hwraps

theorem handle_wrapped (h : InRange s) (hs : Consistent s) {e : Event} (he : ¬ Unwrapped s e) :
    ¬ InRange (handle e s).1 := by
  intro hrange
  have hlarge : ∃ it ∈ (handle e s).1.srejs, 8 ≤ it := by
    rw [handle_eq, Preparation.finish]
    split_ifs
    · exact (outOfRange_outcome (prepare_wrapped h he) (o := [])).opportunityForTransmission
        fun halive => ((hs.prepare e).running halive).2
    · obtain ⟨it, hit, hlarge⟩ := prepare_wrapped h he
      exact ⟨it, List.mem_of_mem_tail hit, hlarge⟩
  obtain ⟨it, hit, hlarge⟩ := hlarge
  exact absurd (hrange.srejs it hit) (UInt8.not_lt.mpr hlarge)

def Copied : Assertion ProtocolState Effect := fun _ o =>
  ∀ f buffer, .transmitHDLCFrame f buffer ∈ o →
    .deliverIfRequired .raw buffer f.isIFrame false true ∈ o ∧
      .deliverIfRequired .dissected f.dissect f.isIFrame false true ∈ o

theorem copied_emit {xs : List Effect} (h : ∀ f buffer, .transmitHDLCFrame f buffer ∉ xs) :
    Maintains Copied (Action.emit xs) := by
  apply Maintains.emit
  intro s o ho f buffer hmem
  have hold := (List.mem_append.mp hmem).resolve_right (h f buffer)
  exact (ho f buffer hold).imp (List.mem_append_left _) (List.mem_append_left _)

theorem copied_update (g : ProtocolState → ProtocolState) : Maintains Copied (Action.update g) :=
  Maintains.update fun _ _ ho => ho

theorem copied_withSerialPortHandler {a : Act} (ha : Maintains Copied a) :
    Maintains Copied (withSerialPortHandler a) := ha.branch (copied_emit (by simp))

theorem copied_transmitFrame (f : HdlcFrame) : Maintains Copied (transmitFrame f) := by
  intro s o ho
  unfold wp transmitFrame
  cases serializeFrame f with
  | none =>
    have hfault := @copied_emit [.fault .assertion] (by simp)
    exact hfault s o ho
  | some buffer =>
    intro g raw hmem
    rcases List.mem_append.mp hmem with hold | hnew
    · exact (ho g raw hold).imp (List.mem_append_left _) (List.mem_append_left _)
    · obtain ⟨rfl, rfl⟩ : g = f ∧ raw = buffer := by simpa using hnew
      constructor <;> apply List.mem_append_right <;> simp

theorem copied_queryWaitQueues : Maintains Copied queryWaitQueues := by
  intro s o ho
  unfold wp queryWaitQueues
  dsimp only
  split_ifs
  · exact copied_withSerialPortHandler (copied_emit (by simp)) s o ho
  · rwa [List.append_nil]

theorem copied_sendUnreliable : Maintains Copied sendUnreliable := by
  intro s o ho
  unfold wp sendUnreliable
  split
  · exact copied_withSerialPortHandler ((copied_emit (by simp)).andThen
      ((copied_update _).andThen (copied_transmitFrame _))) s o ho
  · exact copied_queryWaitQueues s o ho

theorem copied_sendRR : Maintains Copied sendRR := by
  intro s o ho
  have hsend (f : HdlcFrame) := copied_withSerialPortHandler (copied_transmitFrame f)
  unfold wp sendRR
  dsimp only
  split_ifs
  · exact hsend _ _ o ho
  · exact hsend _ _ o ho

theorem copied_sendAck : Maintains Copied sendAck :=
  ((copied_update _).andThen copied_sendUnreliable).branch (copied_sendRR.branch copied_sendUnreliable)

theorem copied_sendIFrame (front : Payload) : Maintains Copied (sendIFrame front) := by
  intro s o ho
  have hcopy := @copied_emit [.deliverIfRequired .payload front true false true] (by simp)
  have hsend := (copied_update fun s => { s with
    waitForAck := true
    peerRequiresAck := false
    timer := s.timer.asyncWait .retransmission }).andThen (copied_transmitFrame (s.prepareIFrame front))
  have hsame : sendIFrame front s =
      withSerialPortHandler
        ((emit [.deliverIfRequired .payload front true false true]).andThen
          ((update fun s =>
            { s with
              waitForAck := true
              peerRequiresAck := false
              timer := s.timer.asyncWait .retransmission }).andThen
            (transmitFrame (s.prepareIFrame front)))) s := rfl
  exact wp_of_eq hsame (copied_withSerialPortHandler (hcopy.andThen hsend) s o ho)

theorem copied_sendReliable : Maintains Copied sendReliable := by
  intro s o ho
  unfold wp sendReliable
  split
  · split_ifs
    · exact copied_sendIFrame _ s o ho
    · exact copied_sendAck s o ho
  · exact copied_sendAck s o ho

theorem copied_sendOutstanding : Maintains Copied sendOutstanding := by
  intro s o ho
  unfold wp sendOutstanding
  split
  · exact copied_withSerialPortHandler (copied_transmitFrame _) _ o ho
  · exact copied_sendReliable s o ho

theorem copied_opportunityForTransmission : Maintains Copied opportunityForTransmission := by
  have hprobe := (copied_update fun s => { s with sendProbe := false }).andThen
    (copied_withSerialPortHandler (copied_transmitFrame prepareUFrameTEST))
  exact Maintains.skip.branch (hprobe.branch (copied_sendOutstanding.branch Maintains.skip))

theorem handle_copied (e : Event) (s : ProtocolState) : Copied (handle e s).1 (handle e s).2 := by
  have hquiet (t : ProtocolState) : Copied t (prepare e s).effects :=
    fun _ _ hmem => (prepare_mild e s _ hmem).elim
  rw [handle_eq, Preparation.finish]
  split_ifs
  · exact copied_opportunityForTransmission _ _ (hquiet _)
  · exact hquiet _

def ViewsAgree (o : List Effect) : Prop :=
  ∀ f buffer, .transmitHDLCFrame f buffer ∈ o → serializeFrame f = some buffer ∧
    .deliverIfRequired .raw buffer f.isIFrame false true ∈ o ∧
    .deliverIfRequired .dissected f.dissect f.isIFrame false true ∈ o ∧
    SameFrame f (deserializeFrame buffer)

/-- Every number stays in range, and whatever is sent shows the same in both views. -/
def SentAsDissected (es : List Event) : Prop :=
  (∀ pre, pre <+: es → InRange (run handle pre initial).1) ∧
    ∀ pre e, pre ++ [e] <+: es → ViewsAgree (handle e (run handle pre initial).1).2

theorem initial_inRange : InRange initial := (InRange.reset initial).congr rfl

end

/-- The numbers stay in range and the views agree exactly in the runs in which no gap wraps. -/
theorem sentAsDissected_iff (es : List Event) :
    SentAsDissected es ↔ Along handle Unwrapped initial es := by
  have hiff : (∀ pre, pre <+: es → InRange (run handle pre initial).1) ↔
      Along handle Unwrapped initial es :=
    reached_iff_along handle (I := fun s => Consistent s ∧ InRange s)
      (fun s e he h => ⟨h.1.handle e, (h.2.handle h.1 he).1⟩) (fun _ h => h.2)
      (fun s e he h => handle_wrapped h.2 h.1 he) ⟨Consistent.initial, initial_inRange⟩
  rw [← hiff]
  refine ⟨And.left, fun hall => ⟨hall, ?_⟩⟩
  rintro pre e ⟨post, rfl⟩ f buffer hsent
  have hwhole := hiff.mp hall
  rw [List.append_assoc, along_append] at hwhole
  have hrange := hall pre (by rw [List.append_assoc]; exact List.prefix_append _ _)
  obtain ⟨hbuffer, hsame⟩ := (hrange.handle (Consistent.run pre) hwhole.2.1).2 f buffer hsent
  obtain ⟨hraw, hdissected⟩ := handle_copied e _ f buffer hsent
  exact ⟨hbuffer, hraw, hdissected, hsame⟩

def wrappingRun : List Event :=
  [.internal .start, .internal .triggerNextHDLCFrame,
    received { address := 0x30, hdlcFrameType := .i, sSeq := 5, payload := [0x55] },
    received { address := 0x30, hdlcFrameType := .i, sSeq := 1, payload := [0x55] },
    .internal .triggerNextHDLCFrame, .internal .triggerNextHDLCFrame]

/-- The next SREJ is dissected with the number 8, and its raw bytes ask for frame 0. -/
theorem wrapped_srej_differs : ¬ ∀ es, SentAsDissected es := by
  intro h
  have hagree := (h (wrappingRun ++ [.internal .triggerNextHDLCFrame])).2 _ _ (List.prefix_refl _)
  have hsent : .transmitHDLCFrame (prepareSFrameSREJ 8) (serialized (prepareSFrameSREJ 8)) ∈
      (handle (.internal .triggerNextHDLCFrame) (run handle wrappingRun initial).1).2 := by
    decide +kernel
  have hsame := (hagree _ _ hsent).2.2.2.rSeq (.inr rfl)
  revert hsame
  decide +kernel

end Hdlcd.ProtocolState
