import Hdlcd.Protocol.Consistency
import Hdlcd.Protocol.Reception

/-! A stopped entity makes no calls on the serial port handler, unless a handler of its
probe timer is left behind: that one sends a probe and waits for the next. -/

namespace Hdlcd.ProtocolState
open Reactive Action FrameGenerator FrameParser

/-- The calls on the entity, with received bytes as the serial port delivers them. -/
inductive Call
  | event (event : Event)
  | addReceivedRawBytes (bytes : List UInt8)
  deriving DecidableEq, Repr

def call : Call → Act
  | .event e => handle e
  | .addReceivedRawBytes bytes => addReceivedRawBytes bytes

inductive Halt
  | stop
  | shutdown
  deriving DecidableEq, Repr

def Halt.event : Halt → LocalEvent
  | .stop => .stop
  | .shutdown => .shutdown

/-- The calls on the serial port handler that are not for a stopped entity. -/
def Loud : Effect → Prop
  | .transmitHDLCFrame .. | .changeBaudRate | .queryForPayload .. => True
  | _ => False

def ProbeTimerArmed (s : ProtocolState) : Prop := s.aliveState.probeTimer.Armed ()

def Muted (s : ProtocolState) (halt : Halt) : Prop :=
  s.serialPortHandler = false ∨
    if s.started then halt = .shutdown ∨ s.aliveState.probeTimer.queued = []
    else ¬ ProbeTimerArmed s

/-- A probe that is due while the entity is stopped comes from a timer that goes on. -/
structure Halting (s : ProtocolState) : Prop extends Consistent s where
  stray : s.started = false → s.sendProbe = true → ProbeTimerArmed s
  counter : s.aliveState.probeCounter < 4

section
variable {s t : ProtocolState} {o : List Effect}

theorem probeCounter_lt (h : s.aliveState.probeCounter < 4) :
    (prepareProbeTimer s).state.aliveState.probeCounter < 4 := by
  show (s.aliveState.onProbeTimeout.1).probeCounter < 4
  unfold AliveState.onProbeTimeout
  split
  · exact Nat.and_lt_two_pow (n := 2) _ (by decide)
  · exact h
  · exact h

def ProbeKept (s : ProtocolState) : Assertion ProtocolState Effect := fun t _ =>
  (t.started, t.serialPortHandler) = (s.started, s.serialPortHandler) ∧
    (t.sendProbe = true → s.sendProbe = true)

theorem opportunity_probeKept (hhandler : s.aliveState.isAlive = true → s.serialPortHandler = true) :
    opportunityForTransmission.wp (ProbeKept s) s [] := by
  have hkept {t : ProtocolState} (ht : Unacknowledged s t) : ProbeKept s t [] := by
    obtain ⟨_, ⟨_, rfl⟩ | ⟨_, _, rfl⟩⟩ := ht <;> exact ⟨rfl, id⟩
  have hout : Outcome (ProbeKept s) s [] :=
    { silent := fun _ => ⟨rfl, id⟩
      fault := fun _ hprobe _ => ⟨rfl, fun _ => hprobe⟩
      probe := fun _ hprobe _ _ _ => ⟨rfl, fun _ => hprobe⟩
      srej := fun _ _ _ _ _ _ => ⟨rfl, id⟩
      iFrame := fun _ _ _ _ _ _ _ _ _ => ⟨rfl, id⟩
      poll := fun _ _ _ _ _ _ _ => ⟨rfl, id⟩
      rr := fun _ _ _ _ _ _ => ⟨rfl, id⟩
      uiFrame := fun _ _ _ ht _ _ _ => ⟨(hkept ht).1, (hkept ht).2⟩
      query := fun _ ht _ _ => hkept ht
      idle := fun _ ht _ _ _ => hkept ht }
  exact hout.opportunityForTransmission hhandler

namespace Halting

theorem opportunity (h : Halting s) : Halting (opportunityForTransmission s).1 := by
  have halive : (opportunityForTransmission s).1.aliveState = s.aliveState :=
    IgnoresAliveState.opportunityForTransmission.keeps s
  obtain ⟨hsame, hprobe⟩ := opportunity_probeKept fun halive => (h.running halive).2
  have hstarted := congrArg (·.1) hsame
  refine ⟨h.toConsistent.opportunity, fun hstopped hdue => ?_, ?_⟩
  · have harmed := h.stray (hstarted.symm.trans hstopped) (hprobe hdue)
    unfold ProbeTimerArmed at harmed ⊢
    rw [halive]
    exact harmed
  · rw [halive]
    exact h.counter

theorem of_started (hs : Consistent s) (hstarted : s.started = true)
    (hcounter : s.aliveState.probeCounter < 4) : Halting s :=
  ⟨hs, fun hstopped => absurd hstarted (by rw [hstopped]; decide), hcounter⟩

theorem prepareLocal (h : Halting s) {e : LocalEvent} {p : Preparation} (hp : Prepared s e p) :
    Halting p.state := by
  have hs := h.toConsistent.prepareLocal hp
  cases hp with
  | start => exact of_started hs rfl (Nat.succ_pos 3)
  | stop | shutdown => exact ⟨hs, fun _ hdue => Bool.noConfusion hdue, Nat.succ_pos 3⟩
  | sendPayload payload reliable => cases reliable <;> exact ⟨hs, h.stray, h.counter⟩
  | trigger hstarted => exact of_started hs hstarted h.counter
  | expire | retransmission | rnrPoll | rnrOver => exact ⟨hs, h.stray, h.counter⟩
  | stateTimer a _ hprobe =>
    refine ⟨hs, fun hstopped hdue => ?_, ?_⟩
    · have harmed := h.stray hstopped hdue
      unfold ProbeTimerArmed at harmed ⊢
      rw [hprobe.1]
      exact harmed
    · rw [hprobe.2]
      exact h.counter
  | probeExpire => exact ⟨hs, fun hstopped hdue => (h.stray hstopped hdue).expire, h.counter⟩
  | probe =>
    refine ⟨hs, fun _ _ => DeadlineTimer.armed_asyncWait _ _, ?_⟩
    exact probeCounter_lt (s := { s with
      aliveState := { s.aliveState with probeTimer := s.aliveState.probeTimer.complete () } }) h.counter
  | ignored => exact h

theorem prepare (h : Halting s) (e : Event) : Halting (prepare e s).state := by
  cases e with
  | internal e => exact h.prepareLocal (prepared e s)
  | frame buffer messageInvalid =>
    have hs := h.toConsistent.prepare (.frame buffer messageInvalid)
    unfold ProtocolState.prepare prepareFrame at hs ⊢
    dsimp only at hs ⊢
    split_ifs at hs ⊢ with hstarted
    · exact h
    · exact h
    · exact h
    · rw [Bool.not_eq_true', Bool.not_eq_false] at hstarted
      have hsame := (checkAcks_acked (deserializeFrame buffer) (afterReceive (deserializeFrame buffer) s)).same
      simp only [unacknowledgedMembers, Prod.mk.injEq] at hsame
      obtain ⟨hstarted', _, _, _, _, _, _, _, _, halive⟩ := hsame
      refine of_started hs (hstarted'.trans hstarted) ?_
      show (checkAcks _ _).1.aliveState.probeCounter < 4
      rw [halive]
      show (s.aliveState.onFrameReceived.1).probeCounter < 4
      unfold AliveState.onFrameReceived
      dsimp only
      split_ifs <;> exact h.counter

theorem handle (h : Halting s) (e : Event) : Halting (handle e s).1 := by
  rw [handle_eq, Preparation.finish]
  split_ifs
  · exact (h.prepare e).opportunity
  · exact h.prepare e

theorem call (h : Halting s) (c : Call) : Halting (call c s).1 := by
  cases c with
  | event e => exact h.handle e
  | addReceivedRawBytes bytes =>
    show Halting (addReceivedRawBytes bytes s).1
    by_cases hstarted : s.started = true
    · rw [addReceivedRawBytes_eq_run hstarted]
      have h' : Halting { s with frameParser := (s.frameParser.addReceivedRawBytes bytes).1 } :=
        ⟨h.toConsistent.congr rfl, h.stray, h.counter⟩
      exact run_invariant _ (C := fun _ _ => True) (fun _ e _ h => h.handle e) h'
        (along_of_forall _ (fun _ _ _ => trivial) _)
    · rw [addReceivedRawBytes, if_pos (by simpa using hstarted)]
      exact h

theorem initial : Halting initial where
  toConsistent := Consistent.initial
  stray _ hdue := Bool.noConfusion hdue
  counter := Nat.succ_pos 3

theorem run (calls : List Call) : Halting (run ProtocolState.call calls ProtocolState.initial).1 :=
  run_invariant ProtocolState.call (C := fun _ _ => True) (fun _ c _ h => h.call c) initial
    (along_of_forall _ (fun _ _ _ => trivial) _)

end Halting

/-- The entity is stopped, and what is left of the probe timer is not heard. -/
structure Silenced (s : ProtocolState) : Prop where
  stopped : s.started = false
  dead : s.aliveState.isAlive = false
  quiet : s.serialPortHandler = false ∨ s.sendProbe = false ∧ ¬ ProbeTimerArmed s

def StaysSilent : Assertion ProtocolState Effect := fun s o => Silenced s ∧ ∀ x ∈ o, ¬ Loud x

namespace Silenced

theorem opportunity (h : Silenced s) (ho : ∀ x ∈ o, ¬ Loud x) :
    opportunityForTransmission.wp StaysSilent s o := by
  have hopen {t : ProtocolState} (ht : Open t) (hsame : t = s) : False := by
    have halive := ht.alive
    rw [hsame, h.dead] at halive
    exact Bool.noConfusion halive
  have hpasses (hs : Passes s) : False := hopen hs.toOpen rfl
  have hout : Outcome StaysSilent s o :=
    { silent := fun _ => ⟨h, ho⟩
      fault := fun _ _ hnull => by
        refine ⟨⟨h.stopped, h.dead, .inl hnull⟩, fun x hx => ?_⟩
        rcases List.mem_append.mp hx with hx | hx
        · exact ho x hx
        · rw [List.mem_singleton.mp hx]
          exact id
      probe := fun _ hprobe hhandler => by
        rcases h.quiet with hnull | ⟨hnone, _⟩
        · rw [hnull] at hhandler
          exact Bool.noConfusion hhandler
        · rw [hnone] at hprobe
          exact Bool.noConfusion hprobe
      srej := fun _ _ hs => (hopen hs rfl).elim
      iFrame := fun _ _ hs => (hopen hs rfl).elim
      poll := fun hs => (hpasses hs).elim
      rr := fun hs => (hpasses hs).elim
      uiFrame := fun _ _ _ ht => (hpasses ht.1).elim
      query := fun _ ht => (hpasses ht.1).elim
      idle := fun _ ht => (hpasses ht.1).elim }
  refine hout.opportunityForTransmission fun halive => ?_
  rw [h.dead] at halive
  exact Bool.noConfusion halive

theorem finish {p : Preparation} (h : Silenced p.state) (heffects : ∀ x ∈ p.effects, ¬ Loud x) :
    StaysSilent p.finish.1 p.finish.2 := by
  unfold Preparation.finish
  split_ifs
  · exact h.opportunity heffects
  · exact ⟨h, heffects⟩

theorem prepareLocal (h : Silenced s) {e : LocalEvent} (he : e ≠ .start) {p : Preparation}
    (hp : Prepared s e p) : Silenced p.state ∧ ∀ x ∈ p.effects, ¬ Loud x := by
  have hnone : ∀ x ∈ ([] : List Effect), ¬ Loud x := by simp
  have hrun (hstarted : s.started = true) : False := by
    rw [h.stopped] at hstarted
    exact Bool.noConfusion hstarted
  cases hp with
  | start => exact absurd rfl he
  | stop hstarted | shutdown hstarted | trigger hstarted => exact (hrun hstarted).elim
  | sendPayload payload reliable => cases reliable <;> exact ⟨⟨h.stopped, h.dead, h.quiet⟩, hnone⟩
  | expire | retransmission | rnrPoll | rnrOver => exact ⟨⟨h.stopped, h.dead, h.quiet⟩, hnone⟩
  | stateTimer a halive hprobe effects heffects =>
    refine ⟨⟨h.stopped, Bool.eq_false_of_not_eq_true fun ha => ?_, ?_⟩, fun x hx => ?_⟩
    · have halive' := halive ha
      rw [h.dead] at halive'
      exact Bool.noConfusion halive'
    · unfold ProbeTimerArmed
      rw [hprobe.1]
      exact h.quiet
    · rw [heffects x hx]
      exact id
  | probeExpire =>
    refine ⟨⟨h.stopped, h.dead, h.quiet.imp_right fun hidle => ⟨hidle.1, ?_⟩⟩, hnone⟩
    exact fun harmed => hidle.2 (DeadlineTimer.Armed.of_expire harmed)
  | probe hqueued =>
    rcases h.quiet with hnull | ⟨_, hidle⟩
    · refine ⟨⟨h.stopped, ?_, .inl hnull⟩, ?_⟩
      · rw [prepareProbeTimer_isAlive]
        exact h.dead
      · simp [prepareProbeTimer, hnull]
    · exact (hidle (.inr hqueued)).elim
  | ignored => exact ⟨h, hnone⟩

theorem handle (h : Silenced s) {e : Event} (he : e ≠ .internal .start) :
    StaysSilent (handle e s).1 (handle e s).2 := by
  cases e with
  | internal e =>
    obtain ⟨hstate, heffects⟩ := h.prepareLocal (fun heq => he (by rw [heq])) (prepared e s)
    rw [handle_eq]
    exact finish hstate heffects
  | frame buffer messageInvalid =>
    rw [handle_frame_stopped (by rw [h.stopped]; decide)]
    exact ⟨h, by simp⟩

theorem call (h : Silenced s) {c : Call} (hc : c ≠ .event (.internal .start)) :
    StaysSilent (call c s).1 (call c s).2 := by
  cases c with
  | event e => exact h.handle fun heq => hc (by rw [heq])
  | addReceivedRawBytes bytes =>
    have hnone : ProtocolState.addReceivedRawBytes bytes s = (s, []) :=
      if_pos (by rw [h.stopped]; decide)
    show StaysSilent (ProtocolState.addReceivedRawBytes bytes s).1 _
    rw [ProtocolState.call, hnone]
    exact ⟨h, by simp⟩

theorem run (h : Silenced s) {later : List Call} (hlater : .event (.internal .start) ∉ later) :
    ∀ x ∈ (run ProtocolState.call later s).2, ¬ Loud x := by
  have hcalls : (Reactive.run ProtocolState.call later).wp StaysSilent s [] := by
    refine wp_run (fun c hc t o ht => ?_) ⟨h, by simp⟩
    have hcall := ht.1.call (c := c) fun heq => hlater (heq ▸ hc)
    exact ⟨hcall.1, fun x hx => (List.mem_append.mp hx).elim (ht.2 x) (hcall.2 x)⟩
  have hall := hcalls.2
  rw [List.nil_append] at hall
  exact hall

end Silenced

/-- The entity is stopped, and its probe timer goes on. -/
structure Babbling (s : ProtocolState) : Prop where
  stopped : s.started = false
  probing : s.aliveState.eAliveState = .probing
  handler : s.serialPortHandler = true
  armed : ProbeTimerArmed s

def probeRound : List Call :=
  [.event (.internal .probeTimerExpires), .event (.internal .probeTimerHandler)]

theorem prepareProbeTimer_probing (hprobing : s.aliveState.eAliveState = .probing)
    (hhandler : s.serialPortHandler = true) :
    (prepareProbeTimer s).opportunity = true ∧
      (prepareProbeTimer s).state.aliveState.eAliveState = .probing ∧
      (prepareProbeTimer s).state.aliveState.probeCounter = (s.aliveState.probeCounter + 1) &&& 3 ∧
      ((s.aliveState.probeCounter + 1) &&& 3 = 0 → .changeBaudRate ∈ (prepareProbeTimer s).effects) := by
  have hcalled : s.aliveState.onProbeTimeout =
      ({ s.aliveState with probeCounter := (s.aliveState.probeCounter + 1) &&& 3 },
        if (s.aliveState.probeCounter + 1) &&& 3 = 0 then [.changeBaudrate, .sendProbe]
        else [.sendProbe]) := by
    unfold AliveState.onProbeTimeout
    split
    · rfl
    · exact absurd (hprobing.symm.trans ‹_›) (by decide)
    · exact absurd (hprobing.symm.trans ‹_›) (by decide)
  rw [prepareProbeTimer, hcalled, hhandler]
  dsimp only [AliveState.startProbeTimer]
  refine ⟨?_, hprobing, rfl, fun hfourth => ?_⟩
  · split_ifs <;> rfl
  · rw [if_pos hfourth]
    simp

namespace Babbling

/-- Either the round is heard, or it is one of the three probes before a change of the baud
rate. -/
theorem probeRound (h : Babbling s) (hcounter : s.aliveState.probeCounter < 4) :
    (∃ x ∈ (run call probeRound s).2, Loud x) ∨
      Babbling (run call probeRound s).1 ∧
        (run call probeRound s).1.aliveState.probeCounter = s.aliveState.probeCounter + 1 ∧
        s.aliveState.probeCounter + 1 < 4 := by
  let s₁ := { s with
    aliveState := { s.aliveState with probeTimer := s.aliveState.probeTimer.expire } }
  let s₂ := { s₁ with
    aliveState := { s₁.aliveState with probeTimer := s₁.aliveState.probeTimer.complete () } }
  have hqueued : () ∈ s₁.aliveState.probeTimer.queued := h.armed.queued_expire
  have hround : run call ProtocolState.probeRound s = (prepareProbeTimer s₂).finish := by
    have hprepare : prepare (.internal .probeTimerHandler) s₁ = prepareProbeTimer s₂ := if_pos hqueued
    rw [← hprepare, ← handle_eq, ProtocolState.probeRound, run, run_singleton]
    exact Prod.ext rfl (List.nil_append _)
  obtain ⟨hopen, hprobing, hnext, hbaud⟩ := prepareProbeTimer_probing (s := s₂) h.probing h.handler
  have halive : (opportunityForTransmission (prepareProbeTimer s₂).state).1.aliveState =
      (prepareProbeTimer s₂).state.aliveState := IgnoresAliveState.opportunityForTransmission.keeps _
  have hkept := (opportunity_probeKept (s := (prepareProbeTimer s₂).state) fun _ => h.handler).1
  rw [hround, Preparation.finish_opportunity hopen]
  by_cases hfourth : (s.aliveState.probeCounter + 1) &&& 3 = 0
  · exact .inl ⟨_, List.mem_append_left _ (hbaud hfourth), trivial⟩
  · have hlt : s.aliveState.probeCounter + 1 < 4 := by
      by_contra hge
      have hlast : s.aliveState.probeCounter = 3 := by omega
      rw [hlast] at hfourth
      exact hfourth rfl
    have hmod : (s.aliveState.probeCounter + 1) &&& 3 = s.aliveState.probeCounter + 1 := by
      rw [show 3 = 2 ^ 2 - 1 from rfl, Nat.and_two_pow_sub_one_eq_mod]
      exact Nat.mod_eq_of_lt hlt
    refine .inr ⟨⟨(congrArg (·.1) hkept).trans h.stopped, ?_, (congrArg (·.2) hkept).trans h.handler, ?_⟩,
      ?_, hlt⟩
    · rw [halive]
      exact hprobing
    · unfold ProbeTimerArmed
      rw [halive]
      exact DeadlineTimer.armed_asyncWait _ _
    · rw [halive, hnext]
      exact hmod

theorem loud (h : Babbling s) (hcounter : s.aliveState.probeCounter < 4) :
    ∃ later : List Call, .event (.internal .start) ∉ later ∧ ∃ x ∈ (run call later s).2, Loud x := by
  -- the counter has at most three steps to the change of the baud rate
  obtain ⟨rounds, hrounds⟩ : ∃ n, s.aliveState.probeCounter + n = 4 :=
    ⟨4 - s.aliveState.probeCounter, by omega⟩
  induction rounds generalizing s with
  | zero => omega
  | succ rounds ih =>
    rcases h.probeRound hcounter with hloud | ⟨hnext, hcount, hlt⟩
    · exact ⟨ProtocolState.probeRound, by decide, hloud⟩
    · obtain ⟨later, hlater, x, hx, hloud⟩ := ih hnext (hcount ▸ hlt) (by omega)
      refine ⟨ProtocolState.probeRound ++ later, ?_, x, ?_, hloud⟩
      · rw [List.mem_append, not_or]
        exact ⟨by decide, hlater⟩
      · rw [run_append]
        exact List.mem_append_right _ hx

end Babbling

theorem eAliveState_of_dead (h : s.aliveState.isAlive = false) : s.aliveState.eAliveState = .probing := by
  unfold AliveState.isAlive at h
  cases hstate : s.aliveState.eAliveState with
  | probing => rfl
  | found | reprobing => simp [hstate] at h

theorem Halting.dead (h : Halting s) (hstopped : s.started = false) : s.aliveState.isAlive = false := by
  refine Bool.eq_false_of_not_eq_true fun halive => ?_
  rw [(h.running halive).1] at hstopped
  exact Bool.noConfusion hstopped

theorem Halting.silenced_iff (h : Halting s) (hstopped : s.started = false) :
    (∀ later : List Call, .event (.internal .start) ∉ later →
      ∀ x ∈ (Reactive.run ProtocolState.call later s).2, ¬ Loud x) ↔
      s.serialPortHandler = false ∨ ¬ ProbeTimerArmed s := by
  have hdead := h.dead hstopped
  constructor
  · intro hall
    by_contra hloud
    simp only [not_or, Bool.not_eq_false, not_not] at hloud
    have hbabbling : Babbling s := ⟨hstopped, eAliveState_of_dead hdead, hloud.1, hloud.2⟩
    obtain ⟨later, hlater, x, hx, hxloud⟩ := hbabbling.loud h.counter
    exact hall later hlater x hx hxloud
  · intro hquiet later hlater
    have hsilenced : Silenced s := by
      refine ⟨hstopped, hdead, hquiet.imp_right fun hidle => ⟨?_, hidle⟩⟩
      exact Bool.eq_false_of_not_eq_true fun hprobe => hidle (h.stray hstopped hprobe)
    exact hsilenced.run hlater

def Halt.members : Halt → ProtocolState → ProtocolState
  | .stop, s => s.reset
  | .shutdown, s => { s.reset with serialPortHandler := false }

theorem handleLocal_halt (halt : Halt) :
    (handleLocal halt.event s).1 = if s.started then halt.members s else s := by
  rw [handleLocal_eq]
  cases halt with
  | stop =>
    rw [Halt.event, prepareLocal]
    split_ifs <;> rfl
  | shutdown =>
    rw [Halt.event, prepareLocal]
    split_ifs <;> rfl

end

/-- After `Stop` or `Shutdown` the entity is silent until the next `Start`, unless the probe
timer is left behind and the serial port handler is still set. -/
theorem silent_after_halt_iff (calls : List Call) (halt : Halt) :
    let s := (run call calls initial).1
    (∀ later : List Call, .event (.internal .start) ∉ later →
      ∀ x ∈ (run call later (handleLocal halt.event s).1).2, ¬ Loud x) ↔ Muted s halt := by
  intro s
  have hs : Halting s := Halting.run calls
  have hhalted : Halting (handleLocal halt.event s).1 := hs.handle (.internal halt.event)
  have hstate := handleLocal_halt (s := s) halt
  unfold Muted
  rcases Bool.eq_false_or_eq_true s.started with hstarted | hstarted
  · rw [hstarted, if_pos rfl] at hstate
    rw [hstate] at hhalted ⊢
    rw [hhalted.silenced_iff (by cases halt <;> rfl), if_pos hstarted]
    cases halt with
    | stop =>
      have hleft : ¬ ProbeTimerArmed s.reset ↔ s.aliveState.probeTimer.queued = [] := by
        rw [List.eq_nil_iff_forall_not_mem]
        refine ⟨fun h () hqueued => h (.inr hqueued), fun h harmed => ?_⟩
        rcases harmed with hpending | hqueued
        · exact absurd (show none = some () from hpending) (by decide)
        · exact h () hqueued
      refine or_congr Iff.rfl (hleft.trans ?_)
      exact ⟨.inr, fun h => h.elim (fun heq => Halt.noConfusion heq) id⟩
    | shutdown => exact iff_of_true (.inl rfl) (.inr (.inl rfl))
  · rw [hstarted, if_neg Bool.false_ne_true] at hstate
    rw [hstate] at hhalted ⊢
    rw [hhalted.silenced_iff hstarted, if_neg (by rw [hstarted]; decide)]

/-- The deadline of the probe timer passes just before `Stop`, its handler runs after it. -/
theorem stop_not_silent :
    ¬ ∀ (calls : List Call) (halt : Halt) (later : List Call), .event (.internal .start) ∉ later →
      ∀ x ∈ (run call later (handleLocal halt.event (run call calls initial).1).1).2, ¬ Loud x := by
  intro hall
  refine hall [.event (.internal .start), .event (.internal .probeTimerExpires)] .stop
    [.event (.internal .probeTimerHandler)] (by decide)
    (.transmitHDLCFrame prepareUFrameTEST (serialized prepareUFrameTEST)) (by decide +kernel) trivial

end Hdlcd.ProtocolState
