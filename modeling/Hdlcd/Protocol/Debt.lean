import Hdlcd.Protocol.Ending
import Hdlcd.Protocol.History

/-! What is owed to the peer: the number behind its last I-frame, and an answer that
carries it. -/

namespace Hdlcd.ProtocolState
open Reactive Action FrameGenerator FrameParser

structure Debt where
  nR : UInt8 := 0
  -- the last I-frame has not been answered yet
  owed : Bool := false
  deriving DecidableEq, Repr

def answersPeer (f : HdlcFrame) : Bool := f.isIFrame || f.hdlcFrameType == .sRR

def Debt.step (d : Debt) : Event ⊕ Effect → Debt
  | .inl (.internal .start) => {}
  | .inl (.frame buffer false) =>
    if (deserializeFrame buffer).isIFrame then
      { nR := ((deserializeFrame buffer).sSeq + 1) &&& 0x07, owed := true }
    else d
  | .inr (.transmitHDLCFrame f _) =>
    if answersPeer f && f.rSeq == d.nR then { d with owed := false } else d
  | _ => d

def debt (h : History) : Debt := h.foldl Debt.step {}

/-- Every I-frame and every RR carries the number that is owed. -/
def CarriesDebt (before : History) : Event ⊕ Effect → Prop
  | .inr (.transmitHDLCFrame f _) => answersPeer f = true → f.rSeq = (debt before).nR
  | _ => True

/-- An I-frame that reaches the entity has a payload. -/
def Informative (s : ProtocolState) : Event → Prop
  | .frame buffer false =>
    Attached s → (deserializeFrame buffer).isIFrame = true → (deserializeFrame buffer).hasPayload = true
  | _ => True

def Settles (s : ProtocolState) (h : History) : Prop :=
  Attached s → s.rSeqIncoming = (debt h).nR ∧ ((debt h).owed = true → s.peerRequiresAck = true)

section
variable {s t : ProtocolState} {h : History} {o : List Effect}

theorem debt_concat (h : History) (x : Event ⊕ Effect) : debt (h ++ [x]) = (debt h).step x := by
  rw [debt, List.foldl_append]
  rfl

def NoAnswer : Effect → Prop
  | .transmitHDLCFrame f _ => answersPeer f = false
  | _ => True

theorem Debt.step_noAnswer (d : Debt) {x : Effect} (hx : NoAnswer x) : d.step (.inr x) = d := by
  cases x with
  | transmitHDLCFrame f buffer =>
    have hf : answersPeer f = false := hx
    rw [Debt.step, hf, Bool.false_and, if_neg Bool.false_ne_true]
  | _ => rfl

theorem CarriesDebt.of_noAnswer {x : Effect} (hx : NoAnswer x) : CarriesDebt h (.inr x) := by
  cases x with
  | transmitHDLCFrame f buffer =>
    intro hf
    rw [show answersPeer f = false from hx] at hf
    exact absurd hf Bool.false_ne_true
  | _ => trivial

theorem debt_noAnswers (ho : ∀ x ∈ o, NoAnswer x) : debt (h ++ o.map .inr) = debt h := by
  induction o using List.reverseRecOn with
  | nil => rw [List.map_nil, List.append_nil]
  | append_singleton o x ih =>
    rw [List.map_append, ← List.append_assoc, List.map_singleton, debt_concat,
      ih fun y hy => ho y (List.mem_append_left _ hy),
      Debt.step_noAnswer _ (ho x (List.mem_append_right _ (List.mem_singleton_self x)))]

theorem justified_noAnswers (hh : Justified CarriesDebt h) (ho : ∀ x ∈ o, NoAnswer x) :
    Justified CarriesDebt (h ++ o.map .inr) := by
  induction o using List.reverseRecOn with
  | nil => rwa [List.map_nil, List.append_nil]
  | append_singleton o x ih =>
    rw [List.map_append, ← List.append_assoc]
    exact (ih fun y hy => ho y (List.mem_append_left _ hy)).concat
      (.of_noAnswer (ho x (List.mem_append_right _ (List.mem_singleton_self x))))

theorem noAnswer_of_mild (ho : AllMild o) : ∀ x ∈ o, NoAnswer x := by
  intro x hx
  have hmild := ho x hx
  cases x with
  | transmitHDLCFrame => exact hmild.elim
  | _ => trivial

theorem noAnswer_of_copy {x : Effect} (hx : IsCopy x) : NoAnswer x := by
  cases x with
  | transmitHDLCFrame => exact hx.elim
  | _ => trivial

theorem noAnswers_of_transmits {f : HdlcFrame} (hsent : Transmits f o) (hf : answersPeer f = false) :
    ∀ x ∈ o, NoAnswer x := by
  obtain ⟨copies, buffer, rfl, _, hcopies⟩ := hsent
  intro x hx
  rcases List.mem_append.mp hx with hx | hx
  · exact noAnswer_of_copy (hcopies x hx)
  · rw [List.mem_singleton.mp hx]
    exact hf

def debtMembers (s : ProtocolState) := (s.started, s.serialPortHandler, s.rSeqIncoming)

/-- What an opportunity does to the debt. -/
inductive Answering (s t : ProtocolState) (o : List Effect) : Prop
  | keeps (hsame : debtMembers t = debtMembers s) (hack : t.peerRequiresAck = s.peerRequiresAck)
    (ho : ∀ x ∈ o, NoAnswer x)
  | answers {f : HdlcFrame} (hsame : debtMembers t = debtMembers s) (halive : s.aliveState.isAlive = true)
    (hsent : Transmits f o) (hf : answersPeer f = true) (hseq : f.rSeq = s.rSeqIncoming)

theorem opportunity_answering (hs : Consistent s) :
    Answering s (opportunityForTransmission s).1 (opportunityForTransmission s).2 := by
  have hquiet {t : ProtocolState} {xs : List Effect} (ht : Unacknowledged s t)
      (hxs : ∀ x ∈ xs, NoAnswer x) : Answering s t xs := by
    obtain ⟨_, ⟨_, rfl⟩ | ⟨_, _, rfl⟩⟩ := ht
    · exact .keeps rfl rfl hxs
    · exact .keeps rfl rfl hxs
  have hout : Outcome (fun t o => Answering s t o) s [] :=
    { silent := fun _ => .keeps rfl rfl (by simp)
      fault := fun _ _ _ => .keeps rfl rfl (by simp [NoAnswer])
      probe := fun _ _ _ _ hsent => .keeps rfl rfl (noAnswers_of_transmits hsent rfl)
      srej := fun _ _ _ _ _ hsent => .keeps rfl rfl (noAnswers_of_transmits hsent rfl)
      iFrame := fun _ _ hopen _ _ _ _ _ hsent => .answers rfl hopen.alive hsent rfl rfl
      poll := fun hpasses _ _ _ _ _ hsent => .answers rfl hpasses.alive hsent rfl rfl
      rr := fun hpasses _ _ _ _ hsent => .answers rfl hpasses.alive hsent rfl rfl
      uiFrame := fun t front rest ht _ xs hsent => by
        have hnone := noAnswers_of_transmits hsent rfl
        obtain ⟨_, ⟨_, rfl⟩ | ⟨_, _, rfl⟩⟩ := ht
        · exact .keeps rfl rfl hnone
        · exact .keeps rfl rfl hnone
      query := fun t ht _ _ => hquiet ht (by simp [NoAnswer])
      idle := fun t ht _ _ _ => hquiet ht (by simp) }
  exact hout.opportunityForTransmission fun halive => (hs.running halive).2

theorem Settles.congr (hs : Settles s h) (hsame : debtMembers t = debtMembers s)
    (hack : s.peerRequiresAck = true → t.peerRequiresAck = true) : Settles t h := by
  simp only [debtMembers, Prod.mk.injEq] at hsame
  obtain ⟨hstarted, hhandler, hseq⟩ := hsame
  intro hattached
  obtain ⟨hnumber, howed⟩ := hs ⟨hstarted.symm.trans hattached.1, hhandler.symm.trans hattached.2⟩
  exact ⟨hseq.trans hnumber, fun hdebt => hack (howed hdebt)⟩

theorem Debt.step_local (d : Debt) {e : LocalEvent} (he : e ≠ .start) :
    d.step (.inl (.internal e)) = d := by
  cases e with
  | start => exact absurd rfl he
  | _ => rfl

theorem Settles.prepareLocal (hs : Settles s h) (e : LocalEvent) :
    Settles (prepareLocal e s).state (h ++ [.inl (.internal e)]) := by
  have hsame (he : e ≠ .start) : Settles s (h ++ [.inl (.internal e)]) := by
    unfold Settles
    rw [debt_concat, Debt.step_local _ he]
    exact hs
  have hp := prepared e s
  generalize ProtocolState.prepareLocal e s = p at hp
  cases hp with
  | start =>
    intro _
    rw [debt_concat]
    exact ⟨rfl, fun howed => absurd howed Bool.false_ne_true⟩
  | stop => exact fun hattached => absurd hattached.1 Bool.false_ne_true
  | shutdown => exact fun hattached => absurd hattached.1 Bool.false_ne_true
  | sendPayload payload reliable => cases reliable <;> exact (hsame (by simp)).congr rfl id
  | rnrPoll => exact (hsame (by simp)).congr rfl fun _ => rfl
  | stateTimer _ _ _ _ _ _ he =>
    refine (hsame ?_).congr rfl id
    rcases he with rfl | rfl <;> simp
  | ignored _ hstart => exact hsame hstart
  | _ => exact (hsame (by simp)).congr rfl id

theorem Settles.afterReceive (hs : Settles s h) (hattached : Attached s) {buffer : List UInt8}
    (he : Informative s (.frame buffer false)) :
    Settles (afterReceive (deserializeFrame buffer) s) (h ++ [.inl (.frame buffer false)]) := by
  intro _
  obtain ⟨hnumber, howed⟩ := hs hattached
  have hpayload := he hattached
  rw [debt_concat, Debt.step]
  unfold ProtocolState.afterReceive
  cases hiframe : (deserializeFrame buffer).isIFrame with
  | true =>
    rw [hpayload hiframe]
    exact ⟨rfl, fun _ => rfl⟩
  | false =>
    rw [Bool.and_false, if_neg Bool.false_ne_true, if_neg Bool.false_ne_true]
    exact ⟨hnumber, howed⟩

theorem Settles.prepareFrame (hs : Settles s h) {buffer : List UInt8} {messageInvalid : Bool}
    (he : Informative s (.frame buffer messageInvalid)) :
    Settles (prepareFrame buffer messageInvalid s).state (h ++ [.inl (.frame buffer messageInvalid)]) := by
  unfold ProtocolState.prepareFrame
  split_ifs with hstarted hhandler hinvalid
  · exact fun hattached => absurd hattached.1 (by simpa using hstarted)
  · exact fun hattached => absurd hattached.2 (by simpa using hhandler)
  · rw [hinvalid]
    unfold Settles
    rw [debt_concat]
    exact hs
  · rw [Bool.not_eq_true] at hinvalid
    subst hinvalid
    simp only [Bool.not_eq_true', Bool.not_eq_false] at hstarted hhandler
    have hreceived := hs.afterReceive ⟨hstarted, hhandler⟩ he
    have hmembers := (checkAcks_acked (deserializeFrame buffer)
      (ProtocolState.afterReceive (deserializeFrame buffer) s)).same
    simp only [unacknowledgedMembers, Prod.mk.injEq] at hmembers
    obtain ⟨hstarted', _, hseq, _, hack, _, hhandler', _⟩ := hmembers
    have hacked : Settles (checkAcks (deserializeFrame buffer)
        (ProtocolState.afterReceive (deserializeFrame buffer) s)).1 (h ++ [.inl (.frame buffer false)]) :=
      hreceived.congr (by rw [debtMembers, debtMembers, hstarted', hseq, hhandler']) hack.trans
    exact hacked

theorem Settles.prepare (hs : Settles s h) {e : Event} (he : Informative s e) :
    Settles (prepare e s).state (h ++ [.inl e]) := by
  cases e with
  | internal e => exact hs.prepareLocal e
  | frame buffer messageInvalid => exact hs.prepareFrame he

/-- What is known of the state and the history. -/
structure Truthful (s : ProtocolState) (h : History) : Prop where
  consistent : Consistent s
  settles : Settles s h
  justified : Justified CarriesDebt h

theorem Truthful.noAnswers (hs : Truthful s h) (ho : ∀ x ∈ o, NoAnswer x) :
    Truthful s (h ++ o.map .inr) where
  consistent := hs.consistent
  settles := by
    unfold Settles
    rw [debt_noAnswers ho]
    exact hs.settles
  justified := justified_noAnswers hs.justified ho

theorem Truthful.opportunity (hs : Truthful s h) :
    Truthful (opportunityForTransmission s).1 (h ++ (opportunityForTransmission s).2.map .inr) := by
  have hconsistent := hs.consistent.opportunity
  cases opportunity_answering hs.consistent with
  | keeps hsame hack ho =>
    have hkept : Truthful (opportunityForTransmission s).1 h :=
      ⟨hconsistent, hs.settles.congr hsame hack.trans, hs.justified⟩
    exact hkept.noAnswers ho
  | @answers f hsame halive hsent hf hseq =>
    obtain ⟨copies, buffer, ho, _, hcopies⟩ := hsent
    have hcopied := hs.noAnswers fun x hx => noAnswer_of_copy (hcopies x hx)
    have hrunning := hs.consistent.running halive
    -- the link is alive, so the entity is attached and its number is the one that is owed
    have hnumber : f.rSeq = (debt (h ++ copies.map .inr)).nR := by
      rw [hseq]
      exact (hcopied.settles hrunning).1
    have hdebt : debt (h ++ copies.map .inr ++ [.inr (.transmitHDLCFrame f buffer)]) =
        { debt (h ++ copies.map .inr) with owed := false } := by
      rw [debt_concat, Debt.step, hf, hnumber, beq_self_eq_true, Bool.and_self, if_pos rfl]
    rw [ho, List.map_append, List.map_singleton, ← List.append_assoc]
    refine ⟨hconsistent, fun _ => ?_, hcopied.justified.concat fun _ => hnumber⟩
    simp only [debtMembers, Prod.mk.injEq] at hsame
    rw [hdebt, hsame.2.2]
    exact ⟨(hcopied.settles hrunning).1, fun howed => absurd howed Bool.false_ne_true⟩

theorem Truthful.handle (hs : Truthful s h) {e : Event} (he : Informative s e) :
    Truthful (handle e s).1 (h ++ [.inl e] ++ (handle e s).2.map .inr) := by
  have hprepared : Truthful (prepare e s).state
      (h ++ [.inl e] ++ (prepare e s).effects.map .inr) :=
    Truthful.noAnswers
      ⟨hs.consistent.prepare e, hs.settles.prepare he, hs.justified.concat (by trivial)⟩
      (noAnswer_of_mild (prepare_mild e s))
  rw [handle_eq, Preparation.finish]
  split_ifs
  · rw [List.map_append, ← List.append_assoc]
    exact hprepared.opportunity
  · exact hprepared

theorem Truthful.initial : Truthful initial [] where
  consistent := .initial
  settles hattached := absurd hattached.1 Bool.false_ne_true
  justified := .nil

end

theorem truthful_run {es : List Event} (hes : Along handle Informative initial es) :
    Truthful (run handle es initial).1 (history es) := by
  have hrun := history_invariant handle (I := Truthful) (C := Informative)
    (fun s h e he hs => hs.handle he) Truthful.initial hes
  rwa [List.nil_append] at hrun

/-- If every I-frame that reaches the entity has a payload, every I-frame and RR that is sent
carries the number behind the last received I-frame, and `m_bPeerRequiresAck` is set as long
as no such frame was sent since. -/
theorem answers_truthful (es : List Event) (hes : Along handle Informative initial es) :
    Justified CarriesDebt (history es) ∧
      ∀ pre, pre <+: es → Attached (run handle pre initial).1 →
        (debt (history pre)).owed = true → (run handle pre initial).1.peerRequiresAck = true := by
  refine ⟨(truthful_run hes).justified, ?_⟩
  rintro pre ⟨post, rfl⟩ hattached
  exact ((truthful_run ((along_append handle Informative initial pre post).mp hes).1).settles hattached).2

/-- The probe is sent, the peer sends an I-frame, and a payload is submitted. -/
def receivingRun (payload : Payload) : List Event :=
  [.internal .start, .internal .triggerNextHDLCFrame,
    received { address := 0x30, hdlcFrameType := .i, payload := payload },
    .internal .triggerNextHDLCFrame, .internal (.sendPayload [0x41] true)]

theorem answers_truthful_receivingRun :
    Justified CarriesDebt (history (receivingRun [0x55])) ∧
      ∀ pre, pre <+: receivingRun [0x55] → Attached (run handle pre initial).1 →
        (debt (history pre)).owed = true → (run handle pre initial).1.peerRequiresAck = true := by
  apply answers_truthful
  refine ⟨trivial, trivial, fun _ _ => ?_, trivial, trivial, trivial⟩
  decide +kernel

/-- An I-frame without payload is neither counted nor answered. -/
theorem empty_iFrame_unanswered :
    Attached (run handle ((receivingRun []).take 3) initial).1 ∧
      (debt (history ((receivingRun []).take 3))).owed = true ∧
      (run handle ((receivingRun []).take 3) initial).1.peerRequiresAck = false ∧
      (iFrames (history (receivingRun []))).map (·.rSeq) = [0] ∧ (debt (history (receivingRun []))).nR = 1 := by
  unfold Attached
  decide +kernel

end Hdlcd.ProtocolState
