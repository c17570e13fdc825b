import Hdlcd.Protocol.History

/-! Which received N(R) removes a payload. As long as no frame moves `m_SSeqOutgoing` away
from the I-frame that is outstanding, only the N(R) after its N(S) does. -/

namespace Hdlcd.ProtocolState
open Reactive Action FrameGenerator FrameParser Framing

/-- The payload is removed while a frame is handled whose N(R) acknowledges the last
I-frame since the last start, which carried it. -/
def Acknowledged (before : History) (payload : Payload) : Prop :=
  ∃ buffer f, lastEvent before = some (.frame buffer false) ∧
    carriesAck (deserializeFrame buffer) = true ∧
    (iFrames (sinceStart before)).getLast? = some f ∧ f.payload = payload ∧
    (deserializeFrame buffer).rSeq = (f.sSeq + 1) &&& 0x07

def OnlyAcknowledged (before : History) : Event ⊕ Effect → Prop
  | .inr (.popFrontReliable payload) => Acknowledged before payload
  | _ => True

/-- While an I-frame is outstanding, the N(R) of an I-, RR- or REJ-frame is its N(S) or
the number after it. -/
def RespondsInWindow (s : ProtocolState) : Event → Prop
  | .frame buffer false =>
    s.waitForAck = true →
    (deserializeFrame buffer).hdlcFrameType = .i ∨ (deserializeFrame buffer).hdlcFrameType = .sRR ∨
      (deserializeFrame buffer).hdlcFrameType = .sREJ →
    (deserializeFrame buffer).rSeq = s.sSeqOutgoing ∨
      (deserializeFrame buffer).rSeq = (s.sSeqOutgoing + 1) &&& 0x07
  | _ => True

instance : ∀ s e, Decidable (RespondsInWindow s e)
  | _, .frame _ false => inferInstanceAs (Decidable (_ → _ → _))
  | _, .frame _ true => isTrue trivial
  | _, .internal _ => isTrue trivial

structure AckInvariant (s : ProtocolState) (h : History) : Prop where
  outstanding : s.waitForAck = true → ∃ f, (iFrames (sinceStart h)).getLast? = some f ∧
    s.waitQueueReliable.head? = some f.payload ∧ f.sSeq = s.sSeqOutgoing
  modulus : s.sSeqOutgoing < 8
  acknowledged : Justified OnlyAcknowledged h

namespace AckInvariant

variable {s s' : ProtocolState} {h : History}

theorem initial : AckInvariant initial [] where
  outstanding hwait := absurd hwait Bool.false_ne_true
  modulus := by decide
  acknowledged := Justified.nil

theorem kept (hI : AckInvariant s h) (hk : Kept s s') : AckInvariant s' h where
  outstanding hwait := by
    rw [hk.waitQueueReliable, hk.sSeqOutgoing]
    exact hI.outstanding (hk.waitForAck ▸ hwait)
  modulus := by
    rw [hk.sSeqOutgoing]
    exact hI.modulus
  acknowledged := hI.acknowledged

theorem quiet (hI : AckInvariant s h) {x : Effect} (hx : Quiet s x) :
    AckInvariant s (h ++ [.inr x]) where
  outstanding hwait := by
    rw [sinceStart_effect, hx.iFrames]
    exact hI.outstanding hwait
  modulus := hI.modulus
  acknowledged := by
    apply hI.acknowledged.concat
    cases x with
    | popFrontReliable payload => exact hx.elim
    | _ => trivial

theorem iFrame (hI : AckInvariant s h) {front : Payload} {rest : List Payload}
    {buffer : List UInt8} (hq : s.waitQueueReliable = front :: rest) :
    AckInvariant { s with waitForAck := true }
      (h ++ [.inr (.transmitHDLCFrame (s.prepareIFrame front) buffer)]) where
  outstanding _ := by
    refine ⟨s.prepareIFrame front, ?_, by simp [hq, prepareIFrame], rfl⟩
    have hlast : iFrames [.inr (.transmitHDLCFrame (s.prepareIFrame front) buffer)] =
        [s.prepareIFrame front] := rfl
    rw [sinceStart_effect, iFrames_append, hlast, List.getLast?_concat]
  modulus := hI.modulus
  acknowledged := hI.acknowledged.concat trivial

theorem uiFrame (hI : AckInvariant s h) {front : Payload} {rest : List Payload}
    {buffer : List UInt8} :
    AckInvariant { s with waitQueueUnreliable := rest }
      (h ++ [.inr (.transmitHDLCFrame (prepareUFrameUI front) buffer)]) where
  outstanding hwait := by
    have hnone : iFrames [.inr (.transmitHDLCFrame (prepareUFrameUI front) buffer)] = [] := rfl
    rw [sinceStart_effect, iFrames_append, hnone, List.append_nil]
    exact hI.outstanding hwait
  modulus := hI.modulus
  acknowledged := hI.acknowledged.concat trivial

theorem stable : StableHistory AckInvariant where
  kept hI hk := hI.kept hk
  quiet hI hx := hI.quiet hx
  iFrame hI _ hq _ _ := hI.iFrame hq
  uiFrame hI _ := hI.uiFrame

theorem event (hI : AckInvariant s h) {e : Event} (hmodulus : s'.sSeqOutgoing < 8)
    (hwait : s'.waitForAck = true → e ≠ .internal .start ∧ s.waitForAck = true ∧
      s'.waitQueueReliable.head? = s.waitQueueReliable.head? ∧ s'.sSeqOutgoing = s.sSeqOutgoing) :
    AckInvariant s' (h ++ [.inl e]) where
  outstanding hw := by
    obtain ⟨hne, hw', hhead, hseq⟩ := hwait hw
    rw [sinceStart_event hne, iFrames_event, hhead, hseq]
    exact hI.outstanding hw'
  modulus := hmodulus
  acknowledged := hI.acknowledged.concat trivial

theorem prologue (hI : AckInvariant s h) (e : LocalEvent) :
    AckInvariant (prologue e s) (h ++ [.inl (.internal e)]) := by
  have hidle {t : ProtocolState} (hseq : t.sSeqOutgoing < 8) (hwait : t.waitForAck = false) :
      AckInvariant t (h ++ [.inl (.internal e)]) :=
    hI.event hseq fun h' => absurd h' (by rw [hwait]; decide)
  refine prologue_cases (Q := fun t => AckInvariant t (h ++ [.inl (.internal e)])) ?_ ?_ ?_ ?_
  · intro _ started serialPortHandler _ _
    have hzero : (0 : UInt8) < 8 := by decide
    exact hidle hzero rfl
  · rintro payload reliable rfl
    cases reliable with
    | true =>
      refine hI.event hI.modulus fun hwait => ⟨by simp, hwait, ?_, rfl⟩
      obtain ⟨f, _, hhead, _⟩ := hI.outstanding hwait
      show (s.waitQueueReliable ++ [payload]).head? = s.waitQueueReliable.head?
      rw [List.head?_append, hhead]
      rfl
    | false => exact hI.event hI.modulus fun hwait => ⟨by simp, hwait, rfl, rfl⟩
  · exact fun _ => hidle hI.modulus rfl
  · intro hne _
    exact hI.event hI.modulus fun hwait => ⟨fun h' => hne (Event.internal.inj h'), hwait, rfl, rfl⟩

theorem nextSSeq_of_passed (hI : AckInvariant s h) {buffer : List UInt8}
    (hwindow : RespondsInWindow s (.frame buffer false)) {waitForAck peerStoppedFlow : Bool}
    (hpassed : Passed (deserializeFrame buffer) s waitForAck peerStoppedFlow)
    (hw : waitForAck = true) : nextSSeq (deserializeFrame buffer) s = s.sSeqOutgoing := by
  obtain ⟨hwait, hrnr, hack, hrej⟩ := hpassed.waiting hw
  unfold nextSSeq
  split_ifs with hcarries htype
  · have hno := hack hcarries
    have htypes : (deserializeFrame buffer).hdlcFrameType = .i ∨
        (deserializeFrame buffer).hdlcFrameType = .sRR ∨
        (deserializeFrame buffer).hdlcFrameType = .sREJ := by
      simp only [carriesAck, Bool.or_eq_true, beq_iff_eq] at hcarries
      rcases hcarries with (hi | hrr) | hrnr'
      · exact .inl hi
      · exact .inr (.inl hrr)
      · exact absurd hrnr' hrnr
    rcases hwindow hwait htypes with hsame | hnext
    · exact hsame
    · simp [acknowledges, hnext] at hno
  · -- a REJ asks for the frame after the outstanding one, and steps back to it
    rcases hwindow hwait (.inr (.inr htype)) with hsame | hnext
    · exact absurd hsame (hrej (.inl htype))
    · rw [hnext]
      have hlt := UInt8.lt_iff_toNat_lt.mp hI.modulus
      apply UInt8.toNat_inj.mp
      rw [and_seven_toNat, UInt8.toNat_add, and_seven_toNat, UInt8.toNat_add]
      simp only [UInt8.reduceToNat] at hlt ⊢
      omega
  · rfl

theorem ackRule (hI : AckInvariant s h) {buffer : List UInt8} {o : List Effect} {h₀ : History}
    (ho : h = h₀ ++ [.inl (.frame buffer false)] ++ o.map .inr)
    (hwindow : RespondsInWindow s (.frame buffer false)) :
    AckRule (deserializeFrame buffer)
      (recorded AckInvariant (h₀ ++ [.inl (.frame buffer false)])) s o where
  pop front rest peerStoppedFlow hack hwait hseq hq := by
    rw [recorded_concat, ← ho]
    refine ⟨fun h' => absurd h' Bool.false_ne_true, deserializeFrame_rSeq_lt buffer,
      hI.acknowledged.concat ?_⟩
    obtain ⟨f, hlast, hhead, hnumber⟩ := hI.outstanding hwait
    have hpayload : f.payload = front := by
      rw [hq] at hhead
      exact (Option.some.inj hhead).symm
    have hevent : lastEvent h = some (.frame buffer false) := by
      rw [ho, lastEvent_effects, lastEvent_event]
    refine ⟨buffer, f, hevent, hack, hlast, hpayload, ?_⟩
    rw [hnumber]
    exact beq_iff_eq.mp hseq
  pass waitForAck peerStoppedFlow hpassed := by
    show AckInvariant _ (_ ++ o.map .inr)
    rw [← ho]
    refine ⟨fun hw => ?_, ?_, hI.acknowledged⟩
    · have hsame := hI.nextSSeq_of_passed hwindow hpassed hw
      obtain ⟨f, hlast, hhead, hnumber⟩ := hI.outstanding (hpassed.waiting hw).1
      exact ⟨f, hlast, hhead, hnumber.trans hsame.symm⟩
    · show nextSSeq (deserializeFrame buffer) s < 8
      unfold nextSSeq
      split_ifs
      · exact deserializeFrame_rSeq_lt buffer
      · exact and_seven_lt _
      · exact hI.modulus

theorem handle (hI : AckInvariant s h) {e : Event} (hwindow : RespondsInWindow s e) :
    (handle e).wp (recorded AckInvariant (h ++ [.inl e])) s [] := by
  have hstable := stable.recorded (h ++ [.inl e])
  cases e with
  | internal e =>
    apply hstable.handleLocal
    rw [recorded_nil]
    exact hI.prologue e
  | frame buffer messageInvalid =>
    have hsteady := hstable.toSteady.and (C := fun t => RespondsInWindow t (.frame buffer false) ∨
      messageInvalid = true) (fun {t t'} ht hk => ?_)
    · refine hstable.interpretDeserializedFrame hsteady hsteady (fun _ _ _ h' => h'.1) ?_ ?_ ?_
      · intro _ t o ht
        unfold afterPayload
        split_ifs
        · exact ⟨⟨ht.1.outstanding, ht.1.modulus, ht.1.acknowledged⟩, ht.2⟩
        · exact ht
      · intro hvalid t o ht
        have hw := ht.2.resolve_right (by rw [hvalid]; decide)
        subst hvalid
        exact ht.1.ackRule rfl hw
      · rw [recorded_nil]
        refine ⟨hI.event hI.modulus fun hwait => ⟨Event.noConfusion, hwait, rfl, rfl⟩, ?_⟩
        cases messageInvalid with
        | true => exact .inr rfl
        | false => exact .inl hwindow
    · rcases ht with ht | ht
      · refine .inl fun hwait => ?_
        rw [hk.sSeqOutgoing]
        exact ht (hk.waitForAck ▸ hwait)
      · exact .inr ht

end AckInvariant

theorem removed_acknowledged (es : List Event) (hes : Along handle RespondsInWindow initial es)
    (pre post : History) (payload : Payload)
    (h : history es = pre ++ .inr (.popFrontReliable payload) :: post) :
    Acknowledged pre payload := by
  have hI := history_invariant handle (h := []) (fun _ _ _ hC hI => AckInvariant.handle hI hC)
    AckInvariant.initial hes
  exact hI.acknowledged pre _ post h

def isRemoval : Event ⊕ Effect → Bool
  | .inr (.popFrontReliable _) => true
  | _ => false

def beforeRemoval (h : History) : History := h.takeWhile (!isRemoval ·)

def afterRemoval (h : History) : History := (h.dropWhile (!isRemoval ·)).tail

def acknowledgedRun : List Event :=
  firstSent [0x41] ++ [received { address := 0x30, hdlcFrameType := .sRR, rSeq := 1 }]

theorem removed_acknowledged_firstSent :
    Acknowledged (beforeRemoval (history acknowledgedRun)) [0x41] :=
  removed_acknowledged acknowledgedRun (by decide +kernel) _ (afterRemoval (history acknowledgedRun))
    _ (by decide +kernel)

/-- Two RR-frames: the first one renumbers the outstanding I-frame, the second one
acknowledges the new number. -/
def renumberedRun : List Event :=
  firstSent [0x41] ++
    [received { address := 0x30, hdlcFrameType := .sRR, rSeq := 5 },
      received { address := 0x30, hdlcFrameType := .sRR, rSeq := 6 }]

theorem removed_not_acknowledged :
    ¬ ∀ pre payload post, history renumberedRun = pre ++ .inr (.popFrontReliable payload) :: post →
      Acknowledged pre payload := by
  intro hall
  have hsplit : history renumberedRun = beforeRemoval (history renumberedRun) ++
      .inr (.popFrontReliable [0x41]) :: afterRemoval (history renumberedRun) := by decide +kernel
  obtain ⟨buffer, f, hevent, _, hlast, _, hseq⟩ := hall _ _ _ hsplit
  have hevent' : lastEvent (beforeRemoval (history renumberedRun)) =
      some (received { address := 0x30, hdlcFrameType := .sRR, rSeq := 6 }) := by decide +kernel
  have hlast' : ((iFrames (sinceStart (beforeRemoval (history renumberedRun)))).getLast?).map (·.sSeq) =
      some 0 := by decide +kernel
  rw [hlast] at hlast'
  rw [hevent'] at hevent
  have hbuffer := (Event.frame.inj (Option.some.inj hevent)).1
  have hrSeq : (deserializeFrame buffer).rSeq = 6 := by
    rw [← hbuffer]
    decide +kernel
  have hsSeq : f.sSeq = 0 := Option.some.inj hlast'
  rw [hrSeq, hsSeq] at hseq
  exact absurd hseq (by decide)

end Hdlcd.ProtocolState
