import Hdlcd.Library.Monitor
import Hdlcd.Protocol.Occupation
import Hdlcd.Protocol.QueueDiscipline
import Hdlcd.Protocol.SequenceRange

/-! What an entity may send, told from the calls alone: a ledger is kept of the events and
of the frames that are sent, and every frame is permitted by the ledger before it and by the
payloads that wait to be sent. -/

namespace Hdlcd
open FrameParser FrameGenerator ProtocolState

/-- The frames that are received and sent, as far as they bear on what may be sent next. -/
structure Ledger where
  -- no `Shutdown` of a running entity was called
  attached : Bool := true
  running : Bool := false
  -- the last frame that was sent is still being written
  writing : Bool := false
  -- a valid frame was received since the start
  answered : Bool := false
  probeDue : Bool := false
  -- the N(S) of the next I-frame
  sendSeq : UInt8 := 0
  -- an I-frame was sent that nothing has settled
  outstanding : Bool := false
  -- the peer has stopped the flow
  stopped : Bool := false
  -- the N(S) that the peer sends next
  expected : UInt8 := 0
  ackDue : Bool := false
  -- the numbers still to be asked for
  missing : List UInt8 := []
  deriving DecidableEq, Repr

namespace Ledger

def gap (expected sSeq : UInt8) : List UInt8 :=
  (List.range ((sSeq - expected) &&& 0x07).toNat).map fun i => (expected + UInt8.ofNat i) &&& 0x07

def settles (f : HdlcFrame) (sendSeq : UInt8) : Bool :=
  match f.hdlcFrameType with
  | .i | .sRR => f.rSeq == (sendSeq + 1) &&& 0x07
  | .sRNR => true
  | .sREJ | .sSREJ => f.rSeq == sendSeq
  | _ => false

def receiveData (f : HdlcFrame) (l : Ledger) : Ledger :=
  if f.isIFrame && f.hasPayload then
    { l with
      expected := (f.sSeq + 1) &&& 0x07
      ackDue := true
      missing := if l.expected = f.sSeq then l.missing else gap l.expected f.sSeq }
  else l

def renumber (f : HdlcFrame) (sendSeq : UInt8) : UInt8 :=
  if carriesAck f then f.rSeq else if f.hdlcFrameType = .sREJ then (f.rSeq + 0x07) &&& 0x07 else sendSeq

def receiveAck (f : HdlcFrame) (l : Ledger) : Ledger :=
  { l with
    sendSeq := renumber f l.sendSeq
    outstanding := l.outstanding && !settles f l.sendSeq
    stopped := f.hdlcFrameType == .sRNR || l.stopped && !restartsFlow f }

def receive (f : HdlcFrame) (l : Ledger) : Ledger :=
  if l.running && l.attached then ({ l with answered := true }.receiveData f).receiveAck f else l

def event : Event → Ledger → Ledger
  | .internal .start, l => { attached := l.attached, running := true, probeDue := true }
  | .internal .stop, l => if l.running then { attached := l.attached } else l
  | .internal .shutdown, l => if l.running then { attached := false } else l
  | .internal .triggerNextHDLCFrame, l => if l.running then { l with writing := false } else l
  | .internal (.timerHandler .retransmission), l => { l with outstanding := false }
  | .internal (.timerHandler .rnrPoll), l => { l with ackDue := l.ackDue || l.stopped }
  | .internal .probeTimerHandler, l => { l with probeDue := true }
  | .frame buffer false, l => l.receive (deserializeFrame buffer)
  | _, l => l

def discharge (f : HdlcFrame) (l : Ledger) : Ledger :=
  match f.hdlcFrameType with
  | .uTEST => { l with probeDue := false }
  | .i => { l with outstanding := true, ackDue := false }
  | .sRR => { l with ackDue := false }
  | .sSREJ => { l with missing := l.missing.tail }
  | _ => l

def sent (f : HdlcFrame) (l : Ledger) : Ledger := { l.discharge f with writing := true }

def entry : Event ⊕ Effect → Ledger → Ledger
  | .inl e, l => l.event e
  | .inr (.transmitHDLCFrame f _), l => l.sent f
  | _, l => l

/-- The frames that an entity may send. A stopped one may send a probe that is due, as a
handler of the probe timer may run after `Stop`. -/
def Permits (l : Ledger) (f : HdlcFrame) : Prop :=
  l.attached = true ∧ l.writing = false ∧
  match f.hdlcFrameType with
  | .uTEST => l.probeDue = true
  | .sSREJ => l.running = true ∧ l.answered = true ∧ l.missing.head? = some (f.rSeq &&& 0x07)
  | .i => l.running = true ∧ l.answered = true ∧ l.missing = [] ∧ l.outstanding = false ∧ l.stopped = false ∧
      f.sSeq = l.sendSeq ∧ f.rSeq = l.expected
  | .sRR => l.running = true ∧ l.answered = true ∧ l.missing = [] ∧ l.ackDue = true ∧ f.rSeq = l.expected ∧
      (f.pf = true → l.stopped = true)
  | .uUI => l.running = true ∧ l.answered = true ∧ l.missing = []
  | _ => False

end Ledger

namespace ProtocolState
open Reactive Action Framing Monitor

def ledger (h : History) : Ledger := after Ledger.entry {} h

/-- The payloads that were submitted and did not leave the queue. -/
def waiting (reliable : Bool) (h : History) : List Payload :=
  (submitted reliable h).drop (if reliable then (removed h).length else (transmittedUI h).length)

def OfQueue (before : History) (f : HdlcFrame) : Prop :=
  match f.hdlcFrameType with
  | .i => (waiting true before).head? = some f.payload
  | .uUI => (waiting false before).head? = some f.payload
  | _ => True

def Allowed (before : History) : Event ⊕ Effect → Prop
  | .inr (.transmitHDLCFrame f _) => (ledger before).Permits f
  | _ => True

def Permitted (before : History) : Event ⊕ Effect → Prop
  | .inr (.transmitHDLCFrame f _) => (ledger before).Permits f ∧ OfQueue before f
  | _ => True

/-- The ledger knows the numbers, and the flags that let something be sent. -/
structure Agrees (l : Ledger) (s : ProtocolState) : Prop where
  attached : s.serialPortHandler = l.attached
  running : s.started = l.running
  writing : s.awaitsNextHDLCFrame = !l.writing
  answered : s.aliveState.isAlive = true → l.answered = true
  probeDue : s.sendProbe = true → l.probeDue = true
  sendSeq : s.sSeqOutgoing = l.sendSeq
  outstanding : l.outstanding = true → s.waitForAck = true
  stopped : s.peerStoppedFlow = l.stopped
  expected : s.rSeqIncoming = l.expected
  ackDue : s.peerRequiresAck = true → l.ackDue = true
  missing : s.srejs.map (· &&& 0x07) = l.missing

theorem missingFrames_gap : ∀ it sSeq : Fin 8,
    (missingFrames (UInt8.ofNat sSeq.val) 8 (UInt8.ofNat it.val)).map (· &&& 0x07) =
      Ledger.gap (UInt8.ofNat it.val) (UInt8.ofNat sSeq.val) := by
  decide +kernel

section
variable {f : HdlcFrame} {l : Ledger} {s : ProtocolState}

theorem checkAcks_numbers (f : HdlcFrame) (s : ProtocolState) :
    (checkAcks f s).1.sSeqOutgoing = Ledger.renumber f s.sSeqOutgoing := by
  have hsteady : Steady fun t _ => t.sSeqOutgoing = nextSSeq f s :=
    { kept := fun h hk => hk.sSeqOutgoing.trans h, quiet := fun h _ => h }
  have hrule : AckRule f (fun t _ => t.sSeqOutgoing = nextSSeq f s) s [] :=
    { pop := fun _ _ _ hack _ _ _ => by rw [nextSSeq, if_pos hack]
      pass := fun _ _ _ => rfl }
  exact hsteady.checkAcks hrule

def Flagged (f : HdlcFrame) (s : ProtocolState) : Assertion ProtocolState Effect := fun t _ =>
  t.peerStoppedFlow = (f.hdlcFrameType == .sRNR || s.peerStoppedFlow && !restartsFlow f) ∧
    (s.waitForAck = true → Ledger.settles f s.sSeqOutgoing = false → t.waitForAck = true)

theorem acknowledge_flagged (hf : f.hdlcFrameType = .i ∨ f.hdlcFrameType = .sRR)
    (hwait : s.waitForAck = true → s.peerStoppedFlow = false) :
    (acknowledge f).wp (Flagged f s) s [] := by
  have hsettles (n : UInt8) : Ledger.settles f n = (f.rSeq == (n + 1) &&& 0x07) := by
    rcases hf with hf | hf <;> simp [Ledger.settles, hf]
  have hrnr : (f.hdlcFrameType == .sRNR) = false := by rcases hf with hf | hf <;> simp [hf]
  simp only [acknowledge, wp_andThen, wp_update]
  split_ifs with hclear
  · rw [Bool.and_eq_true] at hclear
    refine wp_branch (fun hpop => ?_) fun _ => wp_skip.mpr (wp_update.mpr ⟨?_, fun hw => ?_⟩)
    · simp [clearRnrCondition] at hpop
    · simp [clearRnrCondition, hrnr, restartsFlow, hclear.2]
    · -- an I-frame is not outstanding in the RNR condition
      rw [hwait hw] at hclear
      exact absurd hclear.1 Bool.false_ne_true
  · have hflow : s.peerStoppedFlow = (f.hdlcFrameType == .sRNR || s.peerStoppedFlow && !restartsFlow f) := by
      rcases hf with hf | hf
      · rw [restartsFlow, hf]
        cases s.peerStoppedFlow <;> rfl
      · rw [hf, beq_self_eq_true, Bool.and_true, Bool.not_eq_true] at hclear
        rw [hclear, hf]
        rfl
    refine wp_branch (fun hpop => ?_) fun _ => wp_skip.mpr (wp_update.mpr ⟨hflow, fun hw _ => hw⟩)
    rw [Bool.and_eq_true] at hpop
    rw [wp_andThen, wp_update]
    refine popFrontReliable_wp (fun _ _ _ => wp_update.mpr ⟨hflow, fun _ hno => ?_⟩) fun _ =>
      wp_update.mpr ⟨hflow, fun _ hno => ?_⟩
    all_goals
      rw [hsettles] at hno
      exact absurd (hpop.2.symm.trans hno) (by decide)

theorem receiveNotReady_flagged (hf : f.hdlcFrameType = .sRNR) :
    (receiveNotReady f).wp (Flagged f s) s [] := by
  have hsettles (n : UInt8) : Ledger.settles f n = true := by simp [Ledger.settles, hf]
  have hstops : s.enterRnrCondition.peerStoppedFlow = true := by
    unfold enterRnrCondition
    split_ifs with hflow
    · rfl
    · simpa using hflow
  have hdone {t : ProtocolState} (ht : t.peerStoppedFlow = true) (o : List Effect) : Flagged f s t o := by
    refine ⟨?_, fun _ hno => ?_⟩
    · rw [ht, hf]
      rfl
    · rw [hsettles] at hno
      exact absurd hno (by decide)
  simp only [receiveNotReady, wp_andThen, wp_update]
  refine wp_branch (fun _ => ?_) fun _ => wp_skip.mpr (wp_update.mpr ?_)
  · rw [wp_andThen, wp_update]
    refine wp_branch (fun _ => ?_) fun _ => wp_skip.mpr (wp_update.mpr ?_)
    · refine popFrontReliable_wp (fun _ _ _ => wp_update.mpr ?_) fun _ => wp_update.mpr ?_
      · apply hdone
        exact hstops
      · apply hdone
        exact hstops
    · apply hdone
      exact hstops
  · apply hdone
    exact hstops

theorem reject_flagged (hf : f.hdlcFrameType = .sREJ)
    (hwait : s.waitForAck = true → s.peerStoppedFlow = false) : (reject f).wp (Flagged f s) s [] := by
  have hsettles (n : UInt8) : Ledger.settles f n = (f.rSeq == n) := by simp [Ledger.settles, hf]
  simp only [reject, wp_andThen, wp_update]
  split_ifs <;> constructor <;>
    simp_all [clearRnrCondition, stopWaiting, restartsFlow]

theorem selectiveReject_flagged (hf : f.hdlcFrameType = .sSREJ)
    (hwait : s.waitForAck = true → s.peerStoppedFlow = false) :
    (selectiveReject f).wp (Flagged f s) s [] := by
  have hsettles (n : UInt8) : Ledger.settles f n = (f.rSeq == n) := by simp [Ledger.settles, hf]
  simp only [selectiveReject, wp_andThen, wp_update]
  split_ifs <;> constructor <;>
    simp_all [clearRnrCondition, stopWaiting, restartsFlow]

theorem checkAcks_flagged (hwait : s.waitForAck = true → s.peerStoppedFlow = false) :
    (checkAcks f).wp (Flagged f s) s [] := by
  unfold checkAcks
  split
  case h_1 hf => exact acknowledge_flagged (.inl hf) hwait
  case h_2 hf => exact acknowledge_flagged (.inr hf) hwait
  case h_3 hf => exact receiveNotReady_flagged hf
  case h_4 hf => exact reject_flagged hf hwait
  case h_5 hf => exact selectiveReject_flagged hf hwait
  case h_6 hi hrr hrnr hrej hsrej =>
    refine wp_skip.mpr ⟨?_, fun hw _ => hw⟩
    rw [restartsFlow, beq_false_of_ne hrr, beq_false_of_ne hrnr, beq_false_of_ne hrej,
      beq_false_of_ne hsrej, Bool.false_or, Bool.false_or, Bool.false_or, Bool.not_false, Bool.and_true]

namespace Agrees

theorem congr {t : ProtocolState} (h : Agrees l s)
    (hsame : (t.serialPortHandler, t.started, t.awaitsNextHDLCFrame, t.sSeqOutgoing, t.rSeqIncoming, t.sendProbe,
        t.peerStoppedFlow, t.peerRequiresAck, t.waitForAck, t.srejs) =
      (s.serialPortHandler, s.started, s.awaitsNextHDLCFrame, s.sSeqOutgoing, s.rSeqIncoming, s.sendProbe,
        s.peerStoppedFlow, s.peerRequiresAck, s.waitForAck, s.srejs))
    (halive : t.aliveState.isAlive = true → s.aliveState.isAlive = true) : Agrees l t := by
  simp only [Prod.mk.injEq] at hsame
  obtain ⟨hhandler, hstarted, hawaits, hsend, hexpected, hprobe, hflow, hack, hwait, hsrejs⟩ := hsame
  constructor
  · rw [hhandler, h.attached]
  · rw [hstarted, h.running]
  · rw [hawaits, h.writing]
  · exact fun ha => h.answered (halive ha)
  · rw [hprobe]
    exact h.probeDue
  · rw [hsend, h.sendSeq]
  · rw [hwait]
    exact h.outstanding
  · rw [hflow, h.stopped]
  · rw [hexpected, h.expected]
  · rw [hack]
    exact h.ackDue
  · rw [hsrejs, h.missing]

theorem reset (s : ProtocolState) (started serialPortHandler : Bool) :
    Agrees { attached := serialPortHandler, running := started }
      { s.reset with started := started, serialPortHandler := serialPortHandler } where
  attached := rfl
  running := rfl
  writing := rfl
  answered halive := absurd halive Bool.false_ne_true
  probeDue hprobe := absurd hprobe Bool.false_ne_true
  sendSeq := rfl
  outstanding hout := absurd hout Bool.false_ne_true
  stopped := rfl
  expected := rfl
  ackDue hack := absurd hack Bool.false_ne_true
  missing := rfl

theorem missingAfter (h : Agrees l s) (hseq : s.rSeqIncoming < 8) {sSeq : UInt8} (hlt : sSeq < 8) :
    (advanceWindow sSeq s).srejs.map (· &&& 0x07) =
      if l.expected = sSeq then l.missing else Ledger.gap l.expected sSeq := by
  rw [advanceWindow, ← h.expected]
  by_cases heq : s.rSeqIncoming = sSeq
  · rw [if_pos heq, if_neg (not_not.mpr heq)]
    exact h.missing
  · rw [if_neg heq, if_pos heq]
    obtain ⟨i, hi⟩ := exists_fin_eight hseq
    obtain ⟨j, hj⟩ := exists_fin_eight hlt
    rw [hi, hj]
    exact missingFrames_gap i j

theorem afterReceive {buffer : List UInt8} (h : Agrees l s) (hseq : s.rSeqIncoming < 8) :
    Agrees ({ l with answered := true }.receiveData (deserializeFrame buffer))
      (afterReceive (deserializeFrame buffer) s) := by
  have hmissing := h.missingAfter hseq (deserializeFrame_sSeq_lt buffer)
  unfold ProtocolState.afterReceive Ledger.receiveData
  rw [Bool.and_comm (deserializeFrame buffer).hasPayload]
  cases hcounts : ((deserializeFrame buffer).isIFrame && (deserializeFrame buffer).hasPayload) with
  | true =>
    rw [if_pos rfl, if_pos rfl]
    exact { h with answered := fun _ => rfl, expected := rfl, ackDue := fun _ => rfl, missing := hmissing }
  | false =>
    rw [if_neg Bool.false_ne_true, if_neg Bool.false_ne_true]
    exact { h with answered := fun _ => rfl }

theorem checkAcks (h : Agrees l s) (hwait : s.waitForAck = true → s.peerStoppedFlow = false)
    (f : HdlcFrame) : Agrees (l.receiveAck f) (checkAcks f s).1 := by
  have hsame := (checkAcks_acked f s).same
  simp only [unacknowledgedMembers, Prod.mk.injEq] at hsame
  obtain ⟨hstarted, hawaits, hexpected, hprobe, hack, hsrejs, hhandler, _, _, halive⟩ := hsame
  have hflags : Flagged f s (ProtocolState.checkAcks f s).1 _ := checkAcks_flagged (f := f) hwait
  constructor
  · rw [hhandler]
    exact h.attached
  · rw [hstarted]
    exact h.running
  · rw [hawaits]
    exact h.writing
  · rw [halive]
    exact h.answered
  · rw [hprobe]
    exact h.probeDue
  · rw [checkAcks_numbers, h.sendSeq]
    rfl
  · intro hout
    have hboth := Bool.and_eq_true _ _ ▸ hout
    rw [← h.sendSeq, Bool.not_eq_true'] at hboth
    exact hflags.2 (h.outstanding hboth.1) hboth.2
  · rw [hflags.1, h.stopped]
    rfl
  · rw [hexpected]
    exact h.expected
  · rw [hack]
    exact h.ackDue
  · rw [hsrejs]
    exact h.missing

theorem ignored (h : Agrees l s) {e : LocalEvent} (he : ¬ Resets e) (hwritten : e ≠ .triggerNextHDLCFrame) :
    Agrees (l.event (.internal e)) s := by
  cases e with
  | start => exact absurd (.inl rfl) he
  | stop => exact absurd (.inr (.inl rfl)) he
  | shutdown => exact absurd (.inr (.inr rfl)) he
  | triggerNextHDLCFrame => exact absurd rfl hwritten
  | timerHandler handler =>
    cases handler with
    | retransmission => exact { h with outstanding := fun hout => absurd hout Bool.false_ne_true }
    | rnrPoll => exact { h with ackDue := fun hack => by rw [Ledger.event, h.ackDue hack, Bool.true_or] }
  | probeTimerHandler => exact { h with probeDue := fun _ => rfl }
  | _ => exact h

theorem prepareReset (h : Agrees l s) {e : LocalEvent} (he : Resets e) :
    Agrees (l.event (.internal e)) (prepareLocal e s).state := by
  rcases he with rfl | rfl | rfl
  · have hreset := reset s true s.serialPortHandler
    rw [h.attached] at hreset
    exact { hreset with
      attached := h.attached
      answered := fun halive => absurd halive Bool.false_ne_true
      probeDue := fun _ => rfl }
  · rw [ProtocolState.prepareLocal, Ledger.event, ← h.running]
    split_ifs
    · have hreset := reset s false s.serialPortHandler
      rw [h.attached] at hreset
      exact hreset.congr (by simp [ProtocolState.reset, h.attached]) id
    · exact h
  · rw [ProtocolState.prepareLocal, Ledger.event, ← h.running]
    split_ifs
    · exact (reset s false false).congr rfl id
    · exact h

theorem prepareTrigger (h : Agrees l s) :
    Agrees (l.event (.internal .triggerNextHDLCFrame)) (prepareLocal .triggerNextHDLCFrame s).state := by
  rw [ProtocolState.prepareLocal, Ledger.event, ← h.running]
  split_ifs
  · exact { h with running := rfl, writing := rfl }
  · exact h

theorem prepareLocal (h : Agrees l s) (e : LocalEvent) :
    Agrees (l.event (.internal e)) (prepareLocal e s).state := by
  by_cases hresets : Resets e
  · exact h.prepareReset hresets
  by_cases hwritten : e = .triggerNextHDLCFrame
  · rw [hwritten]
    exact h.prepareTrigger
  have hkept := h.ignored hresets hwritten
  have hp := prepared e s
  generalize ProtocolState.prepareLocal e s = p at hp ⊢
  cases hp with
  | start => exact absurd (.inl rfl) hresets
  | stop => exact absurd (.inr (.inl rfl)) hresets
  | shutdown => exact absurd (.inr (.inr rfl)) hresets
  | sendPayload payload reliable =>
    cases reliable with
    | true => exact hkept.congr rfl id
    | false => exact hkept.congr rfl id
  | trigger => exact absurd rfl hwritten
  | expire | rnrOver | probeExpire => exact hkept.congr rfl id
  | retransmission => exact { h with outstanding := fun hout => absurd hout Bool.false_ne_true }
  | rnrPoll _ hflow =>
    have hdue : (l.ackDue || l.stopped) = true := by rw [← h.stopped, hflow, Bool.or_true]
    exact { h with ackDue := fun _ => hdue }
  | stateTimer a halive => exact hkept.congr rfl halive
  | probe =>
    refine { h with answered := fun halive => h.answered ?_, probeDue := fun _ => rfl }
    rwa [prepareProbeTimer_isAlive] at halive
  | ignored => exact hkept

theorem prepare (h : Agrees l s) (hs : Consistent s) (e : Event) : Agrees (l.event e) (prepare e s).state := by
  cases e with
  | internal e => exact h.prepareLocal e
  | frame buffer messageInvalid =>
    cases messageInvalid with
    | true =>
      show Agrees l (prepareFrame buffer true s).state
      unfold prepareFrame
      split_ifs
      · exact h
      · exact h
      · exact h
      · exact absurd rfl ‹_›
    | false =>
      show Agrees (l.receive (deserializeFrame buffer)) (prepareFrame buffer false s).state
      have hguard : (l.running && l.attached) = (s.started && s.serialPortHandler) := by
        rw [h.running, h.attached]
      unfold prepareFrame Ledger.receive
      rw [hguard]
      cases hstarted : s.started with
      | false => exact h
      | true =>
        cases hhandler : s.serialPortHandler with
        | false => exact h
        | true =>
          exact (h.afterReceive hs.modulus).checkAcks (fun hw => (hs.waiting hw).2.2) (deserializeFrame buffer)

end Agrees

theorem ledger_effects (h : History) {o : List Effect} (ho : ∀ x ∈ o, NoFrame x) :
    ledger (h ++ o.map .inr) = ledger h := by
  rw [ledger, after_append]
  refine after_ignored _ (fun x hx m => ?_) _
  obtain ⟨y, hy, rfl⟩ := List.mem_map.mp hx
  have hnone := ho y hy
  cases y with
  | transmitHDLCFrame => exact hnone.elim
  | _ => rfl

/-- The ledger agrees with the members, and everything so far was allowed. -/
structure Accounted (s : ProtocolState) (h : History) : Prop where
  agrees : Agrees (ledger h) s
  allowed : Justified Allowed h

namespace Accounted

variable {t : ProtocolState} {h : History} {o : List Effect}

theorem effects (hs : Accounted s h) (ho : ∀ x ∈ o, NoFrame x) (ht : Agrees (ledger h) t) :
    Accounted t (h ++ o.map .inr) := by
  refine ⟨(ledger_effects h ho).symm ▸ ht, ?_⟩
  induction o using List.reverseRecOn with
  | nil =>
    rw [List.map_nil, List.append_nil]
    exact hs.allowed
  | append_singleton o x ih =>
    rw [List.map_append, ← List.append_assoc]
    refine (ih fun y hy => ho y (List.mem_append_left _ hy)).concat ?_
    have hnone := ho x (List.mem_append_right _ (List.mem_singleton_self x))
    cases x with
    | transmitHDLCFrame => exact hnone.elim
    | _ => trivial

theorem sends (hs : recorded Accounted h s o) {f : HdlcFrame}
    (hpermits : (ledger (h ++ o.map .inr)).Permits f)
    (ht : Agrees ((ledger (h ++ o.map .inr)).discharge f) t) : Sends (recorded Accounted h) f t o := by
  rintro xs ⟨copies, buffer, rfl, _, hcopies⟩
  have hnone : ∀ x ∈ copies, NoFrame x := by
    intro x hx
    have hcopy := hcopies x hx
    cases x with
    | transmitHDLCFrame => exact hcopy.elim
    | _ => trivial
  rw [← List.append_assoc, recorded_concat, List.map_append, ← List.append_assoc]
  have hledger := ledger_effects (h ++ o.map .inr) hnone
  refine ⟨?_, (hs.effects hnone hs.agrees).allowed.concat ?_⟩
  · rw [ledger, after_concat]
    show Agrees ((ledger _).sent f) _
    rw [hledger]
    exact { ht with writing := rfl }
  · show (ledger _).Permits f
    rw [hledger]
    exact hpermits

theorem quiet (hs : recorded Accounted h s o) (ht : Agrees (ledger (h ++ o.map .inr)) t) {x : Effect}
    (hx : NoFrame x) : recorded Accounted h t (o ++ [x]) := by
  have hone := Accounted.effects hs (o := [x]) (t := t) (by simpa using hx) ht
  rw [recorded_concat]
  exact hone

theorem outcome (hs : recorded Accounted h s o) (hc : Consistent s) :
    Outcome (recorded Accounted h) s o := by
  have hagrees : Agrees (ledger (h ++ o.map .inr)) s := hs.agrees
  have hattached (hopen : Open s) : (ledger (h ++ o.map .inr)).attached = true :=
    hagrees.attached.symm.trans (hc.running hopen.alive).2
  have hwritten (hawaits : s.awaitsNextHDLCFrame = true) : (ledger (h ++ o.map .inr)).writing = false :=
    (Bool.not_eq_true' _).mp (hagrees.writing.symm.trans hawaits)
  have hrunning (hopen : Open s) : (ledger (h ++ o.map .inr)).running = true :=
    hagrees.running.symm.trans (hc.running hopen.alive).1
  have hmissing (hsrejs : s.srejs = []) : (ledger (h ++ o.map .inr)).missing = [] := by
    rw [← hagrees.missing, hsrejs, List.map_nil]
  have hafter {t : ProtocolState} (ht : Unacknowledged s t) : Agrees (ledger (h ++ o.map .inr)) t := by
    obtain ⟨_, ⟨_, rfl⟩ | ⟨_, _, rfl⟩⟩ := ht
    · exact hagrees.congr rfl id
    · exact hagrees
  exact
    { silent := fun _ => hs
      fault := fun _ _ _ =>
        quiet (t := { s with sendProbe := false }) (x := .fault .nullSerialPortHandler) hs
          { hagrees with probeDue := fun h' => absurd h' Bool.false_ne_true } trivial
      probe := fun hawaits hprobe hset =>
        sends hs ⟨hagrees.attached.symm.trans hset, hwritten hawaits, hagrees.probeDue hprobe⟩
          { hagrees with probeDue := fun h' => absurd h' Bool.false_ne_true }
      srej := fun front rest hopen hsrejs => by
        have hlist : (ledger (h ++ o.map .inr)).missing = (front &&& 0x07) :: rest.map (· &&& 0x07) := by
          rw [← hagrees.missing, hsrejs, List.map_cons]
        have hhead : (ledger (h ++ o.map .inr)).missing.head? = some (front &&& 0x07) := by
          rw [hlist, List.head?_cons]
        have htail : rest.map (· &&& 0x07) = (ledger (h ++ o.map .inr)).missing.tail := by
          rw [hlist, List.tail_cons]
        exact sends hs
          ⟨hattached hopen, hwritten hopen.awaits, hrunning hopen, hagrees.answered hopen.alive, hhead⟩
          { hagrees with missing := htail }
      iFrame := fun front rest hopen hsrejs _ hwait hflow => by
        have hsettled : (ledger (h ++ o.map .inr)).outstanding = false := by
          by_contra hout
          have hwaits := hagrees.outstanding (Bool.eq_true_of_not_eq_false hout)
          rw [hwait] at hwaits
          exact Bool.false_ne_true hwaits
        exact sends hs ⟨hattached hopen, hwritten hopen.awaits, hrunning hopen, hagrees.answered hopen.alive,
            hmissing hsrejs, hsettled, hagrees.stopped.symm.trans hflow, hagrees.sendSeq, hagrees.expected⟩
          { hagrees with outstanding := fun _ => rfl, ackDue := fun h' => absurd h' Bool.false_ne_true }
      poll := fun hpasses _ hack hflow _ =>
        sends hs ⟨hattached hpasses.toOpen, hwritten hpasses.awaits, hrunning hpasses.toOpen,
            hagrees.answered hpasses.alive, hmissing hpasses.srejs, hagrees.ackDue hack, hagrees.expected,
            fun _ => hagrees.stopped.symm.trans hflow⟩
          { hagrees with ackDue := fun h' => absurd h' Bool.false_ne_true }
      rr := fun hpasses _ hack _ =>
        sends hs ⟨hattached hpasses.toOpen, hwritten hpasses.awaits, hrunning hpasses.toOpen,
            hagrees.answered hpasses.alive, hmissing hpasses.srejs, hagrees.ackDue hack, hagrees.expected,
            fun h' => absurd h' Bool.false_ne_true⟩
          { hagrees with ackDue := fun h' => absurd h' Bool.false_ne_true }
      uiFrame := fun t _ _ ht _ =>
        sends hs ⟨hattached ht.1.toOpen, hwritten ht.1.awaits, hrunning ht.1.toOpen, hagrees.answered ht.1.alive,
            hmissing ht.1.srejs⟩
          ((hafter ht).congr rfl id)
      query := fun _ ht _ _ => quiet hs (hafter ht) trivial
      idle := fun _ ht _ _ _ => ⟨hafter ht, hs.allowed⟩ }

theorem handle (hs : Accounted s h) (hc : Consistent s) (e : Event) :
    (handle e).wp (recorded Accounted (h ++ [.inl e])) s [] := by
  have hprepared : recorded Accounted (h ++ [.inl e]) (prepare e s).state (prepare e s).effects := by
    have hevent : Accounted (prepare e s).state (h ++ [.inl e]) := by
      refine ⟨?_, hs.allowed.concat trivial⟩
      rw [ledger, after_concat]
      exact hs.agrees.prepare hc e
    exact hevent.effects (noFrame_of_mild (prepare_mild e s)) hevent.agrees
  unfold wp
  rw [handle_eq, Preparation.finish, List.nil_append]
  split_ifs
  · have hcp := hc.prepare e
    exact (outcome hprepared hcp).opportunityForTransmission fun halive => (hcp.running halive).2
  · exact hprepared

theorem initial : Accounted initial [] where
  agrees := ⟨rfl, rfl, rfl, fun h => absurd h Bool.false_ne_true, fun h => absurd h Bool.false_ne_true, rfl,
    fun h => absurd h Bool.false_ne_true, rfl, rfl, fun h => absurd h Bool.false_ne_true, rfl⟩
  allowed := Justified.nil

theorem run (es : List Event) :
    Accounted (Reactive.run ProtocolState.handle es .initial).1 (history es) := by
  have hboth : Accounted _ ([] ++ history es) ∧ Consistent (Reactive.run ProtocolState.handle es .initial).1 :=
    history_invariant ProtocolState.handle (C := fun _ _ => True) (I := fun s h => Accounted s h ∧ Consistent s)
      (fun s h e _ hI => ⟨hI.1.handle hI.2 e, hI.2.handle e⟩) ⟨initial, Consistent.initial⟩
      (along_of_forall _ (fun _ _ _ => trivial) _)
  exact hboth.1

end Accounted

theorem waiting_head {before : History} {reliable : Bool} :
    (waiting reliable before).head? =
      (submitted reliable before)[if reliable then (removed before).length else (transmittedUI before).length]? :=
  List.head?_drop

/-- Every frame that an entity sends is permitted by what was received, submitted and sent before. -/
theorem transmissions_permitted (es : List Event) : Justified Permitted (history es) := by
  obtain ⟨_, hqueues⟩ := QueueInvariant.history es
  intro before x after hsplit
  have hallowed := (Accounted.run es).allowed before x after hsplit
  have hturn := hqueues.inTurn before x after hsplit
  rcases x with e | x
  · trivial
  · cases x with
    | transmitHDLCFrame f buffer =>
      refine ⟨hallowed, ?_⟩
      unfold OfQueue
      split
      case h_1 hf => exact waiting_head.trans (hturn.1 (beq_iff_eq.mpr hf))
      case h_2 hf => exact waiting_head.trans (hturn.2 hf)
      case h_3 => trivial
    | _ => trivial

/-- The number that the I-frame waits for, which is the one that it was sent with as long as no valid
frame has put another one in its place. -/
def awaited (f : HdlcFrame) (between : History) : UInt8 :=
  between.foldl (fun n => fun
    | .inl (.frame buffer false) => Ledger.renumber (deserializeFrame buffer) n
    | _ => n) f.sSeq

def Releases (f : HdlcFrame) (between : History) : Event ⊕ Effect → Prop
  | .inl (.internal e) => Resets e ∨ e = .timerHandler .retransmission
  | .inl (.frame buffer false) => Ledger.settles (deserializeFrame buffer) (awaited f between) = true
  | _ => False

/-- Between any two I-frames the wait has ended. -/
def StopAndWait (h : History) : Prop :=
  ∀ before f buffer between g buffer' rest,
    h = before ++ .inr (.transmitHDLCFrame f buffer) :: (between ++ .inr (.transmitHDLCFrame g buffer') :: rest) →
      f.isIFrame = true → g.isIFrame = true →
        ∃ pre x post, between = pre ++ x :: post ∧ Releases f pre x

/-- An I-frame is outstanding in a running entity, with this number. -/
structure Outstanding (l : Ledger) (n : UInt8) : Prop where
  outstanding : l.outstanding = true
  running : (l.running && l.attached) = true
  sendSeq : l.sendSeq = n

namespace Outstanding

variable {n : UInt8} {x : Event ⊕ Effect} {between : History}

theorem sent (h : Outstanding l n) (g : HdlcFrame) : Outstanding (l.sent g) n := by
  have hup := h.outstanding
  have hrunning := h.running
  have hseq := h.sendSeq
  unfold Ledger.sent Ledger.discharge
  split <;> constructor <;> first | rfl | assumption

theorem of_iFrame (hf : f.isIFrame = true) (hpermits : l.Permits f) : Outstanding (l.sent f) f.sSeq := by
  obtain ⟨hattached, -, hkind⟩ := hpermits
  rw [beq_iff_eq.mp hf] at hkind
  obtain ⟨hrunning, -, -, -, -, hseq, -⟩ := hkind
  rw [Ledger.sent, Ledger.discharge, beq_iff_eq.mp hf]
  exact ⟨rfl, by rw [hrunning, hattached]; rfl, hseq.symm⟩

theorem receive (h : Outstanding l n) (f : HdlcFrame) :
    Ledger.settles f n = true ∨ Outstanding (l.receive f) (Ledger.renumber f n) := by
  have hdata : Outstanding ({ l with answered := true }.receiveData f) n := by
    unfold Ledger.receiveData
    split
    · exact ⟨h.outstanding, h.running, h.sendSeq⟩
    · exact ⟨h.outstanding, h.running, h.sendSeq⟩
  cases hsettles : Ledger.settles f n with
  | true => exact .inl rfl
  | false =>
    refine .inr ?_
    unfold Ledger.receive
    rw [if_pos h.running]
    refine ⟨?_, hdata.running, congrArg (Ledger.renumber f) hdata.sendSeq⟩
    show (_ && !Ledger.settles f _) = true
    rw [hdata.outstanding, hdata.sendSeq, hsettles]
    rfl

theorem entry (h : Outstanding l (awaited f between)) (x : Event ⊕ Effect) :
    Releases f between x ∨ Outstanding (Ledger.entry x l) (awaited f (between ++ [x])) := by
  have hawaited : awaited f (between ++ [x]) = (match x with
      | .inl (.frame buffer false) => Ledger.renumber (deserializeFrame buffer) (awaited f between)
      | _ => awaited f between) := List.foldl_concat ..
  rw [hawaited]
  rcases x with e | x
  · cases e with
    | internal e =>
      cases e with
      | start => exact .inl (.inl (.inl rfl))
      | stop => exact .inl (.inl (.inr (.inl rfl)))
      | shutdown => exact .inl (.inl (.inr (.inr rfl)))
      | triggerNextHDLCFrame =>
        refine .inr ?_
        have hentry : Ledger.entry (.inl (.internal .triggerNextHDLCFrame)) l =
            if l.running then { l with writing := false } else l := rfl
        rw [hentry]
        split_ifs
        · exact ⟨h.outstanding, h.running, h.sendSeq⟩
        · exact h
      | timerHandler handler =>
        cases handler with
        | retransmission => exact .inl (.inr rfl)
        | rnrPoll => exact .inr ⟨h.outstanding, h.running, h.sendSeq⟩
      | probeTimerHandler => exact .inr ⟨h.outstanding, h.running, h.sendSeq⟩
      | _ => exact .inr h
    | frame buffer messageInvalid =>
      cases messageInvalid with
      | true => exact .inr h
      | false => exact h.receive (deserializeFrame buffer)
  · cases x with
    | transmitHDLCFrame g buffer => exact .inr (h.sent g)
    | _ => exact .inr h

theorem released (h : Outstanding l f.sSeq) (hdown : (after Ledger.entry l between).outstanding = false) :
    ∃ pre x post, between = pre ++ x :: post ∧ Releases f pre x := by
  suffices hall : (∃ pre x post, between = pre ++ x :: post ∧ Releases f pre x) ∨
      Outstanding (after Ledger.entry l between) (awaited f between) by
    refine hall.resolve_right fun hup => ?_
    exact Bool.false_ne_true (hdown.symm.trans hup.outstanding)
  clear hdown
  induction between using List.reverseRecOn with
  | nil => exact .inr h
  | append_singleton between x ih =>
    rcases ih with ⟨pre, y, post, hsplit, hreleases⟩ | hup
    · refine .inl ⟨pre, y, post ++ [x], ?_, hreleases⟩
      rw [hsplit, List.append_assoc, List.cons_append]
    · rw [after_concat]
      exact (hup.entry x).imp_left fun hreleases => ⟨between, x, [], rfl, hreleases⟩

end Outstanding

/-- An I-frame is not followed by the next one, or by its repetition, before a reset, the
retransmission timeout or a frame that settles its number. -/
theorem stop_and_wait (es : List Event) : StopAndWait (history es) := by
  intro before f buffer between g buffer' rest hsplit hf hg
  have hfirst := (Accounted.run es).allowed before (.inr (.transmitHDLCFrame f buffer)) _ hsplit
  have hnext := (Accounted.run es).allowed (before ++ .inr (.transmitHDLCFrame f buffer) :: between)
    (.inr (.transmitHDLCFrame g buffer')) rest (by rw [hsplit, List.append_assoc, List.cons_append])
  have hdown : (ledger (before ++ .inr (.transmitHDLCFrame f buffer) :: between)).outstanding = false := by
    have hkind := hnext.2.2
    rw [beq_iff_eq.mp hg] at hkind
    exact hkind.2.2.2.1
  rw [ledger, after_append] at hdown
  exact (Outstanding.of_iFrame hf hfirst).released hdown

end
end ProtocolState
end Hdlcd
