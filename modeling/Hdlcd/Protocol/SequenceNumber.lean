import Hdlcd.Protocol.History

/-! The N(S) of the next I-frame after a received N(R). For I, RR and RNR it is the N(R);
for REJ it is the number before it. -/

namespace Hdlcd.ProtocolState
open Reactive Action FrameGenerator FrameParser Framing

/-- The frames whose N(R) is written to `m_SSeqOutgoing`. -/
def setsSSeq (f : HdlcFrame) : Bool := carriesAck f || f.hdlcFrameType == .sREJ

/-- Neither such a frame nor a `Reset`. -/
def KeepsSSeq : Event → Prop
  | .internal .start | .internal .stop | .internal .shutdown => False
  | .internal _ => True
  | .frame buffer messageInvalid =>
    messageInvalid = true ∨ setsSSeq (deserializeFrame buffer) = false

structure Numbered (n : UInt8) (s : ProtocolState) (h : History) : Prop where
  started : s.started = true
  serialPortHandler : s.serialPortHandler = true
  sSeqOutgoing : s.sSeqOutgoing = n
  iFrames : ∀ f ∈ iFrames h, f.sSeq = n

structure Unsent (s : ProtocolState) (h : History) : Prop where
  started : s.started = true
  serialPortHandler : s.serialPortHandler = true
  iFrames : iFrames h = []

theorem Unsent.steady (h : History) : Steady (recorded Unsent h) where
  kept hs hk := ⟨hk.started.trans hs.started, hk.serialPortHandler.trans hs.serialPortHandler,
    hs.iFrames⟩
  quiet hs hx := recorded_concat.mpr ⟨hs.started, hs.serialPortHandler, hx.iFrames.trans hs.iFrames⟩

namespace Numbered

variable {n : UInt8} {s : ProtocolState} {h : History}

theorem stable (n : UInt8) : StableHistory (Numbered n) where
  kept hI hk := ⟨hk.started.trans hI.started, hk.serialPortHandler.trans hI.serialPortHandler,
    hk.sSeqOutgoing.trans hI.sSeqOutgoing, hI.iFrames⟩
  quiet hI hx := ⟨hI.started, hI.serialPortHandler, hI.sSeqOutgoing, by
    rw [hx.iFrames]
    exact hI.iFrames⟩
  iFrame {s h front rest buffer} hI _ _ _ _ := by
    refine ⟨hI.started, hI.serialPortHandler, hI.sSeqOutgoing, ?_⟩
    intro f hf
    rw [iFrames_append, List.mem_append] at hf
    rcases hf with hf | hf
    · exact hI.iFrames f hf
    · have hsent : f = s.prepareIFrame front := List.mem_singleton.mp hf
      rw [hsent]
      exact hI.sSeqOutgoing
  uiFrame {s h front rest buffer} hI _ := by
    refine ⟨hI.started, hI.serialPortHandler, hI.sSeqOutgoing, ?_⟩
    have hnone : ProtocolState.iFrames [.inr (.transmitHDLCFrame (prepareUFrameUI front) buffer)] =
        [] := rfl
    rw [iFrames_append, hnone, List.append_nil]
    exact hI.iFrames

theorem event (hI : Numbered n s h) (e : Event) : Numbered n s (h ++ [.inl e]) :=
  ⟨hI.started, hI.serialPortHandler, hI.sSeqOutgoing, (iFrames_event e).symm ▸ hI.iFrames⟩

theorem prologue (hI : Numbered n s h) {e : LocalEvent} (he : KeepsSSeq (.internal e)) :
    Numbered n (prologue e s) h := by
  refine prologue_cases (Q := fun t => Numbered n t h) ?_ ?_ ?_ ?_
  · intro hreset
    rcases hreset with rfl | rfl | rfl <;> exact he.elim
  · intro payload reliable _
    cases reliable <;> exact ⟨hI.started, hI.serialPortHandler, hI.sSeqOutgoing, hI.iFrames⟩
  · exact fun _ => ⟨hI.started, hI.serialPortHandler, hI.sSeqOutgoing, hI.iFrames⟩
  · exact fun _ _ => hI

theorem handle (hI : Numbered n s h) {e : Event} (he : KeepsSSeq e) :
    (handle e).wp (recorded (Numbered n) (h ++ [.inl e])) s [] := by
  have hstable := (stable n).recorded (h ++ [.inl e])
  have hsteady := hstable.toSteady
  have hevent : recorded (Numbered n) (h ++ [.inl e]) s [] := by
    rw [recorded_nil]
    exact hI.event e
  cases e with
  | internal e => exact hstable.handleLocal e (hevent.prologue he)
  | frame buffer messageInvalid =>
    refine hstable.interpretDeserializedFrame hsteady hsteady (fun _ _ _ h' => h') ?_ ?_ hevent
    · intro _ t o ht
      unfold afterPayload
      split_ifs
      · exact ⟨ht.started, ht.serialPortHandler, ht.sSeqOutgoing, ht.iFrames⟩
      · exact ht
    · intro hvalid t o ht
      have hnot := he.resolve_left (by rw [hvalid]; decide)
      rw [setsSSeq, Bool.or_eq_false_iff] at hnot
      obtain ⟨hack, hrej⟩ := hnot
      refine ⟨fun _ _ _ hack' => absurd hack' (by rw [hack]; decide), fun _ _ _ => ?_⟩
      have hsame : nextSSeq (deserializeFrame buffer) t = t.sSeqOutgoing := by
        rw [nextSSeq, if_neg (by rw [hack]; decide), if_neg (by simpa using hrej)]
      exact ⟨ht.started, ht.serialPortHandler, hsame.trans ht.sSeqOutgoing, ht.iFrames⟩

theorem receive (hI : Unsent s h) {buffer : List UInt8}
    (hf : setsSSeq (deserializeFrame buffer) = true) :
    (ProtocolState.handle (.frame buffer false)).wp
      (recorded (Numbered (nextSSeq (deserializeFrame buffer) s))
        (h ++ [.inl (.frame buffer false)])) s [] := by
  have hstable := (stable (nextSSeq (deserializeFrame buffer) s)).recorded
    (h ++ [.inl (.frame buffer false)])
  have hunsent := Unsent.steady (h ++ [.inl (.frame buffer false)])
  have hsame (t : ProtocolState) :
      nextSSeq (deserializeFrame buffer) t = nextSSeq (deserializeFrame buffer) s := by
    unfold nextSSeq
    split_ifs with hack hrej
    · rfl
    · rfl
    · simp [setsSSeq, hack, hrej] at hf
  refine hstable.interpretDeserializedFrame hunsent hunsent ?_ ?_ ?_ ?_
  · intro t o hskip ht
    rcases hskip with h' | h' | h'
    · exact absurd h' Bool.false_ne_true
    · exact absurd ht.started (by rw [h']; decide)
    · exact absurd ht.serialPortHandler (by rw [h']; decide)
  · intro _ t o ht
    unfold afterPayload
    split_ifs
    · exact ⟨ht.started, ht.serialPortHandler, ht.iFrames⟩
    · exact ht
  · intro _ t o ht
    have hnone : ∀ f ∈ ProtocolState.iFrames (h ++ [.inl (.frame buffer false)] ++ o.map .inr),
        f.sSeq = nextSSeq (deserializeFrame buffer) s := by
      intro f hf'
      rw [ht.iFrames] at hf'
      exact absurd hf' List.not_mem_nil
    refine ⟨fun front rest b hack hwait hseq hq => ?_, fun w b hpassed => ?_⟩
    · rw [recorded_concat]
      refine ⟨ht.started, ht.serialPortHandler, ?_, ?_⟩
      · rw [nextSSeq, if_pos hack]
      · rw [iFrames_pop]
        exact hnone
    · exact ⟨ht.started, ht.serialPortHandler, hsame t, hnone⟩
  · rw [recorded_nil]
    exact ⟨hI.started, hI.serialPortHandler, (iFrames_event _).trans hI.iFrames⟩

theorem run_after (hstarted : s.started = true) (hhandler : s.serialPortHandler = true)
    {buffer : List UInt8} (hf : setsSSeq (deserializeFrame buffer) = true) {es : List Event}
    (hes : ∀ e ∈ es, KeepsSSeq e) :
    Numbered (nextSSeq (deserializeFrame buffer) s)
      (run ProtocolState.handle (.frame buffer false :: es) s).1
      (log ProtocolState.handle s (.frame buffer false :: es)) := by
  have hfirst := receive (h := []) ⟨hstarted, hhandler, rfl⟩ hf
  have hrest := history_invariant ProtocolState.handle
    (fun _ _ _ he hI => Numbered.handle hI he) hfirst
    (along_of_forall _ (fun e he _ => hes e he) _)
  simpa only [log, run, andThen_apply, List.nil_append, List.append_assoc, List.cons_append]
    using hrest

end Numbered

/-- An I-frame is sent at the next opportunity that finds nothing of higher priority. -/
structure Ready (s : ProtocolState) : Prop where
  started : s.started = true
  serialPortHandler : s.serialPortHandler = true
  alive : s.aliveState.isAlive = true
  queued : s.waitQueueReliable ≠ []
  waitForAck : s.waitForAck = false
  peerStoppedFlow : s.peerStoppedFlow = false

def controlBacklog (s : ProtocolState) : Nat := (if s.sendProbe then 1 else 0) + s.srejs.length

theorem withSerialPortHandler_of {s : ProtocolState} (h : s.serialPortHandler = true) (a : Act) :
    withSerialPortHandler a s = a s := by
  rw [withSerialPortHandler, branch, if_pos h]

theorem Ready.probe {s : ProtocolState} (h : Ready s) (hawaits : s.awaitsNextHDLCFrame = true)
    (hprobe : s.sendProbe = true) :
    opportunityForTransmission s = transmitFrame prepareUFrameTEST { s with sendProbe := false } := by
  have hhandler : ({ s with sendProbe := false } : ProtocolState).serialPortHandler = true :=
    h.serialPortHandler
  simp only [opportunityForTransmission, branch, hawaits, hprobe, Bool.not_true,
    Bool.false_eq_true, if_false, if_true]
  exact withSerialPortHandler_of hhandler _

theorem Ready.outstanding {s : ProtocolState} (h : Ready s) (hawaits : s.awaitsNextHDLCFrame = true)
    (hprobe : s.sendProbe = false) : opportunityForTransmission s = sendOutstanding s := by
  simp only [opportunityForTransmission, branch, hawaits, hprobe, h.alive, Bool.not_true,
    Bool.false_eq_true, if_false, if_true]

theorem Ready.sendReliable {s : ProtocolState} (h : Ready s) :
    iFrames ((sendReliable s).2.map .inr) ≠ [] := by
  obtain ⟨front, rest, hq⟩ := List.exists_cons_of_ne_nil h.queued
  obtain ⟨buffer, hbuffer⟩ := exists_serializeFrame (f := s.prepareIFrame front) rfl
  have hsend : ProtocolState.sendReliable s = sendIFrame front s := by
    simp only [ProtocolState.sendReliable, hq, h.waitForAck, h.peerStoppedFlow, Bool.not_false,
      Bool.and_self, if_true]
  rw [hsend, sendIFrame, withSerialPortHandler_of h.serialPortHandler]
  simp only [andThen_apply, emit, update, transmitFrame_eq hbuffer]
  simp [iFrames, transmitted, prepareIFrame, HdlcFrame.isIFrame]

theorem Ready.opportunity {s : ProtocolState} (h : Ready s) (hawaits : s.awaitsNextHDLCFrame = true) :
    iFrames ((opportunityForTransmission s).2.map .inr) ≠ [] ∨
      Ready (opportunityForTransmission s).1 ∧
        controlBacklog (opportunityForTransmission s).1 < controlBacklog s := by
  rcases Bool.eq_false_or_eq_true s.sendProbe with hprobe | hprobe
  · obtain ⟨buffer, hbuffer⟩ := exists_serializeFrame (f := prepareUFrameTEST) rfl
    rw [h.probe hawaits hprobe, transmitFrame_eq hbuffer]
    refine .inr ⟨{ h with }, ?_⟩
    simp [controlBacklog, hprobe]
  · rw [h.outstanding hawaits hprobe]
    rcases hsrejs : s.srejs with _ | ⟨front, rest⟩
    · have hnext : sendOutstanding s = ProtocolState.sendReliable s := by rw [sendOutstanding, hsrejs]
      rw [hnext]
      exact .inl h.sendReliable
    · obtain ⟨buffer, hbuffer⟩ := exists_serializeFrame (f := prepareSFrameSREJ front) rfl
      have hnext : sendOutstanding s = transmitFrame (prepareSFrameSREJ front)
          { s with srejs := rest } := by
        have hhandler : ({ s with srejs := rest } : ProtocolState).serialPortHandler = true :=
          h.serialPortHandler
        simp only [sendOutstanding, hsrejs]
        exact withSerialPortHandler_of hhandler _
      rw [hnext, transmitFrame_eq hbuffer]
      refine .inr ⟨{ h with }, ?_⟩
      simp [controlBacklog, hprobe, hsrejs]

theorem iFrames_log_cons (s : ProtocolState) (e : Event) (es : List Event) :
    iFrames (log handle s (e :: es)) =
      iFrames ((handle e s).2.map .inr) ++ iFrames (log handle (handle e s).1 es) := by
  rw [log, ← List.singleton_append, iFrames_append, iFrames_append]
  rfl

theorem Ready.exists_triggers {backlog : Nat} {s : ProtocolState} (h : Ready s)
    (hbacklog : controlBacklog s < backlog) :
    ∃ k, iFrames (log handle s (List.replicate k (.internal .triggerNextHDLCFrame))) ≠ [] := by
  induction backlog generalizing s with
  | zero => exact absurd hbacklog (Nat.not_lt_zero _)
  | succ backlog ih =>
    have h' : Ready { s with awaitsNextHDLCFrame := true } := { h with }
    have htrigger : handle (.internal .triggerNextHDLCFrame) s =
        opportunityForTransmission { s with awaitsNextHDLCFrame := true } := by
      simp [handle, handleLocal, triggerNextHDLCFrame, branch, h.started, andThen_apply, update]
    rcases h'.opportunity rfl with hsent | ⟨hready, hless⟩
    · refine ⟨1, ?_⟩
      rw [List.replicate_one, iFrames_log_cons, htrigger]
      exact List.append_ne_nil_of_left_ne_nil hsent _
    · obtain ⟨k, hk⟩ := ih hready (Nat.lt_of_lt_of_le hless (Nat.le_of_lt_succ hbacklog))
      refine ⟨k + 1, ?_⟩
      rw [List.replicate_succ, iFrames_log_cons, htrigger]
      exact List.append_ne_nil_of_right_ne_nil _ hk

theorem ready_of_selectiveReject {s : ProtocolState} {f : HdlcFrame} (hstarted : s.started = true)
    (hhandler : s.serialPortHandler = true) (halive : s.aliveState.isAlive = true)
    (hqueued : s.waitQueueReliable ≠ []) (hseq : f.rSeq = s.sSeqOutgoing) :
    Ready (selectiveReject f s).1 := by
  simp only [selectiveReject, andThen_apply, update]
  split_ifs with hflow hwait hwait
  · exact ⟨hstarted, hhandler, halive, hqueued, rfl, rfl⟩
  · exact ⟨hstarted, hhandler, halive, hqueued, rfl, rfl⟩
  · exact ⟨hstarted, hhandler, halive, hqueued, rfl, Bool.eq_false_of_not_eq_true hflow⟩
  · have hwait' : s.waitForAck = false := by simpa [hseq] using hwait
    exact ⟨hstarted, hhandler, halive, hqueued, hwait', Bool.eq_false_of_not_eq_true hflow⟩

/-- A SREJ with the number in use makes the entity ready, if the I-frame does not go out
at once. -/
theorem handle_selectiveReject {s : ProtocolState} (hstarted : s.started = true)
    (hhandler : s.serialPortHandler = true) (hqueued : s.waitQueueReliable ≠ []) {buffer : List UInt8}
    (hf : (deserializeFrame buffer).hdlcFrameType = .sSREJ)
    (hpayload : (deserializeFrame buffer).hasPayload = false)
    (hseq : (deserializeFrame buffer).rSeq = s.sSeqOutgoing) :
    iFrames ((handle (.frame buffer false) s).2.map .inr) ≠ [] ∨
      Ready (handle (.frame buffer false) s).1 := by
  let goal : Assertion ProtocolState Effect := fun t o => iFrames (o.map .inr) ≠ [] ∨ Ready t
  have hopportunity (t : ProtocolState) (o : List Effect) (ht : Ready t) :
      (branch (·.awaitsNextHDLCFrame) opportunityForTransmission skip).wp goal t o := by
    apply wp_branch
    · intro hawaits
      rcases ht.opportunity hawaits with hsent | ⟨hready, _⟩
      · refine .inl ?_
        rw [List.map_append, iFrames_append]
        exact List.append_ne_nil_of_right_ne_nil _ hsent
      · exact .inr hready
    · intro _
      exact wp_skip.mpr (.inr ht)
  have halive := s.aliveState.isAlive_onFrameReceived
  have hready : Ready (selectiveReject (deserializeFrame buffer)
      { s with aliveState := s.aliveState.onFrameReceived.1 }).1 :=
    ready_of_selectiveReject hstarted hhandler halive hqueued hseq
  have hno : receivePayload (deserializeFrame buffer) = skip := by
    rw [receivePayload, if_neg (by rw [hpayload]; decide)]
  have hack : checkAcks (deserializeFrame buffer) = selectiveReject (deserializeFrame buffer) := by
    rw [checkAcks, hf]
  show (handle (.frame buffer false)).wp goal s []
  apply wp_branch
  · intro hstopped
    simp [hstarted] at hstopped
  intro _
  apply wp_branch
  · intro _
    simp only [Bool.false_eq_true, if_false, interpretValidFrame, hno, hack, wp_andThen, wp_emit]
    exact hopportunity _ _ hready
  · intro hnull
    simp [hhandler] at hnull

structure Detached (s : ProtocolState) (h : History) : Prop where
  serialPortHandler : s.serialPortHandler = false
  iFrames : iFrames h = []

namespace Detached

variable {s : ProtocolState} {h : History}

theorem stable : StableHistory Detached where
  kept hI hk := ⟨hk.serialPortHandler.trans hI.serialPortHandler, hI.iFrames⟩
  quiet hI hx := ⟨hI.serialPortHandler, hx.iFrames.trans hI.iFrames⟩
  iFrame hI hhandler _ _ _ := absurd hhandler (by rw [hI.serialPortHandler]; decide)
  uiFrame hI _ := ⟨hI.serialPortHandler, by
    rw [iFrames_append, hI.iFrames]
    rfl⟩

theorem prologue (hI : Detached s h) (e : LocalEvent) : Detached (prologue e s) h := by
  have hhandler := hI.serialPortHandler
  refine prologue_cases (Q := fun t => Detached t h) ?_ ?_ ?_ ?_
  · intro _ started serialPortHandler _ hset
    refine ⟨Bool.eq_false_of_not_eq_true fun h' => ?_, hI.iFrames⟩
    exact absurd (hset h') (by rw [hhandler]; decide)
  · intro payload reliable _
    cases reliable <;> exact ⟨hhandler, hI.iFrames⟩
  · exact fun _ => ⟨hhandler, hI.iFrames⟩
  · exact fun _ _ => hI

theorem handle (hI : Detached s h) (e : Event) :
    (handle e).wp (recorded Detached (h ++ [.inl e])) s [] := by
  have hstable := stable.recorded (h ++ [.inl e])
  have hsteady := hstable.toSteady
  have hevent : recorded Detached (h ++ [.inl e]) s [] := by
    rw [recorded_nil]
    exact ⟨hI.serialPortHandler, (iFrames_event e).trans hI.iFrames⟩
  cases e with
  | internal e => exact hstable.handleLocal e (Detached.prologue hevent e)
  | frame buffer messageInvalid =>
    refine hstable.interpretDeserializedFrame hsteady hsteady (fun _ _ _ h' => h') ?_ ?_ hevent
    · intro _ t o ht
      unfold afterPayload
      split_ifs
      · exact ⟨ht.serialPortHandler, ht.iFrames⟩
      · exact ht
    · intro _ t o ht
      refine ⟨fun _ _ _ _ _ _ _ => ?_, fun _ _ _ => ⟨ht.serialPortHandler, ht.iFrames⟩⟩
      rw [recorded_concat]
      exact ⟨ht.serialPortHandler, (iFrames_pop _).trans ht.iFrames⟩

theorem run (hhandler : s.serialPortHandler = false) (es : List Event) :
    ProtocolState.iFrames (log ProtocolState.handle s es) = [] := by
  have hany : Along ProtocolState.handle (fun _ _ => True) s es :=
    along_of_forall _ (fun _ _ _ => trivial) s
  have hI := history_invariant ProtocolState.handle (h := [])
    (fun _ _ e _ hI => Detached.handle hI e) ⟨hhandler, rfl⟩ hany
  exact hI.iFrames

end Detached

theorem exists_iFrame {s : ProtocolState} {n : UInt8} {h : History} (hI : Numbered n s h)
    (hn : n < 8) :
    ∃ es, (∀ e ∈ es, KeepsSSeq e) ∧ iFrames (log handle s es) ≠ [] := by
  -- a SREJ with the number in use clears what may hold the I-frame back
  let payload : Payload := [0x41]
  let submit : Event := .internal (.sendPayload payload true)
  let srej : HdlcFrame := { address := 0x30, hdlcFrameType := .sSREJ, rSeq := n }
  obtain ⟨buffer, hbuffer⟩ := exists_serializeFrame (f := srej) rfl
  have hread : deserializeFrame buffer = srej.onWire := deserializeFrame_serializeFrame hbuffer
  have hrSeq : (deserializeFrame buffer).rSeq = n := by
    rw [hread]
    exact and_seven_eq_self hn
  have hsubmitted : Numbered n (handle submit s).1 _ := hI.handle (e := submit) trivial
  have hqueued : (handle submit s).1.waitQueueReliable ≠ [] := by
    have hstable : Stable fun t _ => t.waitQueueReliable ≠ [] :=
      { kept := fun ht hk => hk.waitQueueReliable ▸ ht
        quiet := fun ht _ => ht
        iFrame := fun ht _ _ _ _ _ => ht
        uiFrame := fun ht _ _ => ht }
    exact hstable.sendPayload (o := []) (List.append_ne_nil_of_right_ne_nil _ (by simp))
  have hkeeps : KeepsSSeq (.frame buffer false) := by
    refine .inr ?_
    rw [hread]
    rfl
  have hrejected := handle_selectiveReject hsubmitted.started hsubmitted.serialPortHandler hqueued
    (by rw [hread]; rfl) (by rw [hread]; rfl)
    (hrSeq.trans hsubmitted.sSeqOutgoing.symm)
  rcases hrejected with hsent | hready
  · refine ⟨[submit, .frame buffer false], ?_, ?_⟩
    · simpa using ⟨trivial, hkeeps⟩
    · rw [iFrames_log_cons, iFrames_log_cons]
      exact List.append_ne_nil_of_right_ne_nil _ (List.append_ne_nil_of_left_ne_nil hsent _)
  · obtain ⟨k, hk⟩ := hready.exists_triggers (Nat.lt_succ_self _)
    refine ⟨submit :: .frame buffer false :: List.replicate k (.internal .triggerNextHDLCFrame), ?_, ?_⟩
    · intro e he
      rcases List.mem_cons.mp he with rfl | he
      · trivial
      rcases List.mem_cons.mp he with rfl | he
      · exact hkeeps
      · rw [List.eq_of_mem_replicate he]
        trivial
    · rw [iFrames_log_cons, iFrames_log_cons]
      exact List.append_ne_nil_of_right_ne_nil _ (List.append_ne_nil_of_right_ne_nil _ hk)

theorem pred_ne_self {n : UInt8} (hn : n < 8) : (n + 0x07) &&& 0x07 ≠ n := by
  intro h
  have hnat := congrArg UInt8.toNat h
  have hlt : n.toNat < 8 := UInt8.lt_iff_toNat_lt.mp hn
  rw [and_seven_toNat, UInt8.toNat_add] at hnat
  simp only [UInt8.reduceToNat] at hnat
  omega

theorem next_sSeq_iff (s : ProtocolState) (buffer : List UInt8) (hstarted : s.started = true)
    (hf : setsSSeq (deserializeFrame buffer) = true) :
    (∀ es, (∀ e ∈ es, KeepsSSeq e) → ∀ g,
      (iFrames (log handle s (.frame buffer false :: es))).head? = some g →
        g.sSeq = (deserializeFrame buffer).rSeq) ↔
      (deserializeFrame buffer).hdlcFrameType ≠ .sREJ ∨ s.serialPortHandler = false := by
  have hlt := deserializeFrame_rSeq_lt buffer
  constructor
  · intro hall
    by_contra hnot
    rw [not_or, not_not, Bool.not_eq_false] at hnot
    obtain ⟨hrej, hhandler⟩ := hnot
    have hnumber : nextSSeq (deserializeFrame buffer) s =
        ((deserializeFrame buffer).rSeq + 0x07) &&& 0x07 := by
      rw [nextSSeq, if_neg (by simp [carriesAck, hrej]), if_pos hrej]
    have hnone : ∀ e ∈ ([] : List Event), KeepsSSeq e := by simp
    have hfirst := Numbered.run_after hstarted hhandler hf hnone
    obtain ⟨es, hes, hsent⟩ := exists_iFrame hfirst (hnumber ▸ and_seven_lt _)
    have hlog := Numbered.run_after hstarted hhandler hf hes
    have hne : iFrames (log handle s (.frame buffer false :: es)) ≠ [] := by
      rw [iFrames_log_cons]
      exact List.append_ne_nil_of_right_ne_nil _ hsent
    obtain ⟨g, rest, hg⟩ := List.exists_cons_of_ne_nil hne
    have hclaimed := hall es hes g (by rw [hg]; rfl)
    have hnumbered := hlog.iFrames g (by rw [hg]; exact List.mem_cons_self ..)
    exact pred_ne_self hlt (hnumber.symm.trans (hnumbered.symm.trans hclaimed))
  · intro hor es hes g hg
    rcases hor with htype | hhandler
    · have hack : carriesAck (deserializeFrame buffer) = true := by
        simpa [setsSSeq, htype] using hf
      rcases Bool.eq_false_or_eq_true s.serialPortHandler with hhandler | hhandler
      · have hlog := Numbered.run_after hstarted hhandler hf hes
        rw [nextSSeq, if_pos hack] at hlog
        exact hlog.iFrames g (List.mem_of_head? hg)
      · rw [Detached.run hhandler] at hg
        exact absurd hg (by simp)
    · rw [Detached.run hhandler] at hg
      exact absurd hg (by simp)

def firstOutstanding : ProtocolState := (run handle (firstSent [0x41]) initial).1

def receiveReady : List UInt8 := serialized { address := 0x30, hdlcFrameType := .sRR, rSeq := 1 }

theorem next_sSeq_iff_receiveReady :
    (∀ es, (∀ e ∈ es, KeepsSSeq e) → ∀ g,
      (iFrames (log handle firstOutstanding (.frame receiveReady false :: es))).head? = some g →
        g.sSeq = (deserializeFrame receiveReady).rSeq) ↔
      (deserializeFrame receiveReady).hdlcFrameType ≠ .sREJ ∨
        firstOutstanding.serialPortHandler = false :=
  next_sSeq_iff firstOutstanding receiveReady (by decide +kernel) (by decide +kernel)

def rejection : List UInt8 := serialized { address := 0x30, hdlcFrameType := .sREJ, rSeq := 0 }

theorem next_sSeq_rejection :
    ¬ ∀ es, (∀ e ∈ es, KeepsSSeq e) → ∀ g,
      (iFrames (log handle firstOutstanding (.frame rejection false :: es))).head? = some g →
        g.sSeq = (deserializeFrame rejection).rSeq := by
  intro hall
  have hclaimed := hall [.internal .triggerNextHDLCFrame] (by simp [KeepsSSeq])
    { address := 0x30, hdlcFrameType := .i, sSeq := 7, payload := [0x41] } (by decide +kernel)
  have hseven : (7 : UInt8) ≠ (deserializeFrame rejection).rSeq := by decide +kernel
  exact hseven hclaimed

end Hdlcd.ProtocolState
