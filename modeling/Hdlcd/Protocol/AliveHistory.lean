import Hdlcd.Protocol.Consistency

/-! What the alive state remembers of its past. Three states and a flag stand for the number
of state timeouts since the most recent frame; the probe counter stands for the unanswered
probes only as long as no frame comes in between. -/

namespace Hdlcd
open Reactive

inductive AliveEvent
  | start
  | stop
  | frameReceived
  -- a timer handler that is not aborted
  | stateTimeout
  | probeTimeout
  deriving DecidableEq, Repr

inductive AliveOutput
  | callback (callback : AliveCallback)
  | assertionFailed
  deriving DecidableEq, Repr

namespace AliveState

def handleEvent : AliveEvent → Action AliveState AliveOutput
  | .start => fun a => (a.start.1, a.start.2.map .callback)
  | .stop => fun a => (a.stop, [])
  | .frameReceived => fun a => (a.onFrameReceived.1, [])
  | .stateTimeout => fun a =>
    match a.onStateTimeout with
    | some a => (a.startStateTimer, [])
    | none => (a, [.assertionFailed])
  | .probeTimeout => fun a =>
    (a.onProbeTimeout.1.startProbeTimer, a.onProbeTimeout.2.map .callback)

/-- The state timeouts since the most recent frame, if there was one since the last Start
or Stop. -/
def nextSilence (silence : Option Nat) : AliveEvent → Option Nat
  | .start | .stop => none
  | .frameReceived => some 0
  | .stateTimeout => silence.map (· + 1)
  | .probeTimeout => silence

def silenceAfter (es : List AliveEvent) : Option Nat := es.foldl nextSilence none

def phase : Option Nat → EAliveState × Bool
  | some 0 => (.found, true)
  | some 1 => (.found, false)
  | some 2 => (.reprobing, false)
  | _ => (.probing, false)

def Represents (a : AliveState) (silence : Option Nat) : Prop :=
  (a.eAliveState, a.frameWasReceived) = phase silence

theorem Represents.isAlive_iff {a : AliveState} {silence : Option Nat} (h : a.Represents silence) :
    a.isAlive = true ↔ ∃ n ≤ 2, silence = some n := by
  have hstate : a.eAliveState = (phase silence).1 := congrArg Prod.fst h
  rw [isAlive, hstate]
  rcases silence with _ | _ | _ | _ | n
  · simp [phase]
  · simp [phase]
  · simp [phase]
  · simp [phase]
  · simp [phase]

theorem Represents.onStateTimeout {a : AliveState} {silence : Option Nat} (h : a.Represents silence) :
    ∃ a', a.onStateTimeout = some a' ∧ a'.Represents (silence.map (· + 1)) := by
  obtain ⟨state, flag, counter, stateTimer, probeTimer⟩ := a
  unfold Represents at h
  match silence with
  | none =>
    cases h
    exact ⟨_, rfl, rfl⟩
  | some 0 =>
    cases h
    exact ⟨_, rfl, rfl⟩
  | some 1 =>
    cases h
    exact ⟨_, rfl, rfl⟩
  | some 2 =>
    cases h
    exact ⟨_, rfl, rfl⟩
  | some (n + 3) =>
    cases h
    exact ⟨_, rfl, rfl⟩

theorem onProbeTimeout_state (a : AliveState) :
    a.onProbeTimeout.1.eAliveState = a.eAliveState ∧
      a.onProbeTimeout.1.frameWasReceived = a.frameWasReceived := by
  unfold onProbeTimeout
  split <;> exact ⟨rfl, rfl⟩

theorem onFrameReceived_state (a : AliveState) :
    a.onFrameReceived.1.eAliveState = .found ∧ a.onFrameReceived.1.frameWasReceived = true := by
  unfold onFrameReceived
  dsimp only
  split_ifs <;> exact ⟨rfl, rfl⟩

theorem Represents.step {a : AliveState} {silence : Option Nat} (h : a.Represents silence)
    (e : AliveEvent) :
    (handleEvent e a).1.Represents (nextSilence silence e) ∧
      AliveOutput.assertionFailed ∉ (handleEvent e a).2 := by
  cases e with
  | start => exact ⟨rfl, by simp [handleEvent]⟩
  | stop => exact ⟨rfl, List.not_mem_nil⟩
  | frameReceived =>
    obtain ⟨hstate, hflag⟩ := onFrameReceived_state a
    exact ⟨Prod.ext hstate hflag, List.not_mem_nil⟩
  | stateTimeout =>
    obtain ⟨a', ha', hsilence⟩ := h.onStateTimeout
    simp only [handleEvent, ha']
    exact ⟨hsilence, List.not_mem_nil⟩
  | probeTimeout =>
    obtain ⟨hstate, hflag⟩ := onProbeTimeout_state a
    refine ⟨Eq.trans ?_ h, by simp [handleEvent]⟩
    exact Prod.ext hstate hflag

theorem Represents.afterRun {a : AliveState} {silence : Option Nat} (h : a.Represents silence)
    (es : List AliveEvent) :
    (run handleEvent es a).1.Represents (es.foldl nextSilence silence) ∧
      AliveOutput.assertionFailed ∉ (run handleEvent es a).2 := by
  induction es generalizing a silence with
  | nil => exact ⟨h, List.not_mem_nil⟩
  | cons e es ih =>
    obtain ⟨hstep, hsafe⟩ := h.step e
    obtain ⟨hrest, hsafe'⟩ := ih hstep
    refine ⟨hrest, fun hmem => ?_⟩
    exact (List.mem_append.mp hmem).elim hsafe hsafe'

/-- A frame that no Start, no Stop and no other frame follows. -/
def LatestFrame (es after : List AliveEvent) : Prop :=
  (∃ before, es = before ++ .frameReceived :: after) ∧
    .start ∉ after ∧ .stop ∉ after ∧ .frameReceived ∉ after

theorem LatestFrame.of_concat {es after : List AliveEvent} {e : AliveEvent}
    (h : LatestFrame (es ++ [e]) after) :
    e = .frameReceived ∧ after = [] ∨
      e ≠ .start ∧ e ≠ .stop ∧ e ≠ .frameReceived ∧ ∃ shorter, after = shorter ++ [e] ∧ LatestFrame es shorter := by
  obtain ⟨⟨before, hsplit⟩, hstart, hstop, hframe⟩ := h
  rcases List.eq_nil_or_concat after with rfl | ⟨shorter, last, rfl⟩
  · exact .inl ⟨(List.append_inj_right' hsplit rfl |> List.cons.inj).1, rfl⟩
  · rw [List.concat_eq_append] at hsplit hstart hstop hframe ⊢
    rw [← List.cons_append, ← List.append_assoc] at hsplit
    obtain ⟨hes, hlast⟩ := List.append_inj' hsplit rfl
    obtain rfl : e = last := (List.cons.inj hlast).1
    simp only [List.mem_append, List.mem_singleton, not_or] at hstart hstop hframe
    exact .inr ⟨Ne.symm hstart.2, Ne.symm hstop.2, Ne.symm hframe.2, shorter, rfl,
      ⟨before, hes⟩, hstart.1, hstop.1, hframe.1⟩

theorem LatestFrame.concat {es after : List AliveEvent} {e : AliveEvent} (h : LatestFrame es after)
    (hstart : e ≠ .start) (hstop : e ≠ .stop) (hframe : e ≠ .frameReceived) :
    LatestFrame (es ++ [e]) (after ++ [e]) := by
  obtain ⟨⟨before, rfl⟩, hstart', hstop', hframe'⟩ := h
  refine ⟨⟨before, by rw [List.append_assoc, List.cons_append]⟩, ?_, ?_, ?_⟩ <;>
    simp_all [ne_comm]

theorem silenceAfter_concat (es : List AliveEvent) (e : AliveEvent) :
    silenceAfter (es ++ [e]) = nextSilence (silenceAfter es) e := by
  rw [silenceAfter, List.foldl_append]
  rfl

theorem silenceAfter_eq_some_iff (es : List AliveEvent) (n : Nat) :
    silenceAfter es = some n ↔ ∃ after, LatestFrame es after ∧ after.count .stateTimeout = n := by
  induction es using List.reverseRecOn generalizing n with
  | nil => simp [silenceAfter, LatestFrame]
  | append_singleton es e ih =>
    rw [silenceAfter_concat]
    constructor
    · intro h
      cases e with
      | start | stop => exact absurd h (by simp [nextSilence])
      | frameReceived =>
        obtain rfl : 0 = n := Option.some.inj h
        exact ⟨[], ⟨⟨es, rfl⟩, List.not_mem_nil, List.not_mem_nil, List.not_mem_nil⟩, rfl⟩
      | stateTimeout =>
        obtain ⟨m, hm, rfl⟩ := Option.map_eq_some_iff.mp h
        obtain ⟨after, hlatest, rfl⟩ := (ih m).mp hm
        exact ⟨_, hlatest.concat (by decide) (by decide) (by decide), by simp⟩
      | probeTimeout =>
        obtain ⟨after, hlatest, rfl⟩ := (ih n).mp h
        exact ⟨_, hlatest.concat (by decide) (by decide) (by decide), by simp⟩
    · rintro ⟨after, hlatest, rfl⟩
      rcases hlatest.of_concat with ⟨rfl, rfl⟩ | ⟨hstart, hstop, hframe, shorter, rfl, hshorter⟩
      · rfl
      · have hsilence := (ih _).mpr ⟨shorter, hshorter, rfl⟩
        cases e with
        | start => exact absurd rfl hstart
        | stop => exact absurd rfl hstop
        | frameReceived => exact absurd rfl hframe
        | stateTimeout => simp [nextSilence, hsilence]
        | probeTimeout => simp [nextSilence, hsilence]

/-- Alive means a frame since the last Start or Stop and at most two state timeouts since
the most recent one; the assertion of `OnStateTimeout` holds in every run. -/
theorem run_isAlive_iff (es : List AliveEvent) :
    ((run handleEvent es {}).1.isAlive = true ↔
      ∃ after, LatestFrame es after ∧ after.count .stateTimeout ≤ 2) ∧
    AliveOutput.assertionFailed ∉ (run handleEvent es {}).2 := by
  have hinitial : Represents {} none := rfl
  obtain ⟨hrun, hsafe⟩ := hinitial.afterRun es
  refine ⟨?_, hsafe⟩
  rw [hrun.isAlive_iff]
  constructor
  · rintro ⟨n, hn, hsilence⟩
    obtain ⟨after, hlatest, rfl⟩ := (silenceAfter_eq_some_iff es n).mp hsilence
    exact ⟨after, hlatest, hn⟩
  · rintro ⟨after, hlatest, hn⟩
    exact ⟨_, hn, (silenceAfter_eq_some_iff es _).mpr ⟨after, hlatest, rfl⟩⟩

def changesBaudrate (e : AliveEvent) (a : AliveState) : Bool :=
  (handleEvent e a).2.contains (.callback .changeBaudrate)

/-- An alive state, and what its past says about the probes. -/
structure Observed where
  aliveState : AliveState := {}
  -- the probe timeouts in the probing state since the latest of the last Start, the last
  -- received frame and the last change of the baud rate
  unanswered : Nat := 0
  -- whether a frame was received since the probe counter was last 0
  answered : Bool := false
  deriving DecidableEq, Repr

def countUnanswered (e : AliveEvent) (o : Observed) : Nat :=
  match e with
  | .start | .frameReceived => 0
  | .probeTimeout =>
    if changesBaudrate .probeTimeout o.aliveState then 0
    else if o.aliveState.eAliveState = .probing then o.unanswered + 1
    else o.unanswered
  | .stop | .stateTimeout => o.unanswered

def observe (e : AliveEvent) : Action Observed AliveOutput := fun o =>
  let handled := handleEvent e o.aliveState
  ({ aliveState := handled.1
     unanswered := countUnanswered e o
     answered := handled.1.probeCounter != 0 && (o.answered || e == .frameReceived) }, handled.2)

/-- The baud rate is changed at the fourth probe timeout at the earliest. -/
def GivesUpLate (o : Observed) (e : AliveEvent) : Prop :=
  changesBaudrate e o.aliveState = true →
    e = .probeTimeout ∧ o.aliveState.eAliveState = .probing ∧ 4 ≤ o.unanswered + 1

/-- A probe timeout that completes the count finds no frame since the count began. -/
def CountsUnanswered (o : Observed) (e : AliveEvent) : Prop :=
  e = .probeTimeout → o.aliveState.eAliveState = .probing → o.aliveState.probeCounter = 3 →
    o.answered = false

instance (o : Observed) (e : AliveEvent) : Decidable (GivesUpLate o e) :=
  inferInstanceAs (Decidable (_ → _))

instance (o : Observed) (e : AliveEvent) : Decidable (CountsUnanswered o e) :=
  inferInstanceAs (Decidable (_ → _ → _ → _))

/-- A frame within the count puts the probes since that frame behind the counter. -/
structure Counted (counter unanswered : Nat) (answered : Bool) : Prop where
  range : counter < 4
  whole : answered = false → counter ≤ unanswered
  torn : answered = true → unanswered < counter

def Observed.Counted (o : Observed) : Prop :=
  AliveState.Counted o.aliveState.probeCounter o.unanswered o.answered

namespace Counted

variable {counter unanswered : Nat} {answered : Bool}

theorem zero (unanswered : Nat) : Counted 0 unanswered false where
  range := by decide
  whole _ := Nat.zero_le unanswered
  torn h := absurd h Bool.false_ne_true

theorem kept (h : Counted counter unanswered answered) :
    Counted counter unanswered (counter != 0 && answered) := by
  cases counter with
  | zero => exact zero unanswered
  | succ counter => exact h

theorem frame (h : Counted counter unanswered answered) : Counted counter 0 (counter != 0) := by
  cases counter with
  | zero => exact zero 0
  | succ counter => exact ⟨h.range, fun hflag => absurd hflag (by simp), fun _ => Nat.succ_pos counter⟩

theorem probe (h : Counted counter unanswered answered) (hmore : counter ≠ 3) :
    Counted (counter + 1) (unanswered + 1) answered where
  range := by
    have hrange := h.range
    omega
  whole hflag := Nat.succ_le_succ (h.whole hflag)
  torn hflag := Nat.succ_lt_succ (h.torn hflag)

end Counted

theorem and_three (n : Nat) : n &&& 0x03 = n % 4 := Nat.and_two_pow_sub_one_eq_mod n 2

theorem onProbeTimeout_probing {a : AliveState} (h : a.eAliveState = .probing) :
    a.onProbeTimeout = ({ a with probeCounter := (a.probeCounter + 1) % 4 },
      if (a.probeCounter + 1) % 4 = 0 then [.changeBaudrate, .sendProbe] else [.sendProbe]) := by
  unfold onProbeTimeout
  split
  · rw [← and_three]
  · exact absurd h (by simp_all)
  · exact absurd h (by simp_all)

theorem onProbeTimeout_known {a : AliveState} (h : a.eAliveState ≠ .probing) :
    a.onProbeTimeout.1 = a ∧ .changeBaudrate ∉ a.onProbeTimeout.2 := by
  unfold onProbeTimeout
  split
  · contradiction
  · exact ⟨rfl, by simp⟩
  · exact ⟨rfl, List.not_mem_nil⟩

theorem changesBaudrate_iff (e : AliveEvent) (a : AliveState) :
    changesBaudrate e a = true ↔
      e = .probeTimeout ∧ a.eAliveState = .probing ∧ (a.probeCounter + 1) % 4 = 0 := by
  cases e with
  | start => simp [changesBaudrate, handleEvent, start]
  | stop => simp [changesBaudrate, handleEvent]
  | frameReceived => simp [changesBaudrate, handleEvent]
  | stateTimeout =>
    simp only [changesBaudrate, handleEvent]
    split <;> simp
  | probeTimeout =>
    by_cases hstate : a.eAliveState = .probing
    · simp only [changesBaudrate, handleEvent, onProbeTimeout_probing hstate]
      split_ifs with hzero <;> simp [hzero, hstate]
    · have hnone := (onProbeTimeout_known hstate).2
      simp [changesBaudrate, handleEvent, hnone, hstate]

theorem onStateTimeout_probeCounter {a a' : AliveState} (h : a.onStateTimeout = some a') :
    a'.probeCounter = a.probeCounter := (ProtocolState.onStateTimeout_probe h).2

theorem onFrameReceived_probeCounter (a : AliveState) :
    a.onFrameReceived.1.probeCounter = a.probeCounter := by
  unfold onFrameReceived
  dsimp only
  split_ifs <;> rfl

theorem givesUpLate_iff {o : Observed} (h : o.Counted) (e : AliveEvent) :
    GivesUpLate o e ↔ CountsUnanswered o e := by
  have hrange := h.range
  unfold GivesUpLate CountsUnanswered
  rw [changesBaudrate_iff]
  constructor
  · rintro hlate rfl hstate hcounter
    have hfour := (hlate ⟨rfl, hstate, by rw [hcounter]⟩).2.2
    cases hanswered : o.answered with
    | false => rfl
    | true =>
      have hless := h.torn hanswered
      omega
  · rintro hopen ⟨rfl, hstate, hzero⟩
    have hcounter : o.aliveState.probeCounter = 3 := by omega
    have hmany := h.whole (hopen rfl hstate hcounter)
    exact ⟨rfl, hstate, by omega⟩

theorem Observed.Counted.stateTimeout {o : Observed} (h : o.Counted) :
    (observe .stateTimeout o).1.Counted := by
  have hflag : (o.answered || AliveEvent.stateTimeout == .frameReceived) = o.answered := Bool.or_false _
  unfold Observed.Counted observe
  dsimp only [handleEvent, countUnanswered]
  rw [hflag]
  split
  · rename_i a ha
    have hcounter : a.startStateTimer.probeCounter = a.probeCounter := rfl
    rw [hcounter, onStateTimeout_probeCounter ha]
    exact h.kept
  · exact h.kept

theorem Observed.Counted.probeTimeout {o : Observed} (h : o.Counted) :
    (observe .probeTimeout o).1.Counted := by
  have hflag : (o.answered || AliveEvent.probeTimeout == .frameReceived) = o.answered := Bool.or_false _
  have hchange := changesBaudrate_iff .probeTimeout o.aliveState
  have hrange := h.range
  unfold Observed.Counted observe
  dsimp only [handleEvent, countUnanswered, startProbeTimer]
  rw [hflag]
  by_cases hstate : o.aliveState.eAliveState = .probing
  · rw [onProbeTimeout_probing hstate, if_pos hstate]
    dsimp only
    by_cases hlast : o.aliveState.probeCounter = 3
    · rw [if_pos (hchange.mpr ⟨rfl, hstate, by rw [hlast]⟩), hlast]
      exact .zero 0
    · have hnext : (o.aliveState.probeCounter + 1) % 4 = o.aliveState.probeCounter + 1 := by omega
      have hsame : ¬ changesBaudrate .probeTimeout o.aliveState = true := by
        rw [hchange]
        omega
      rw [if_neg hsame, hnext]
      exact (Counted.probe h hlast).kept
  · have hsame : ¬ changesBaudrate .probeTimeout o.aliveState = true :=
      fun hyes => hstate (hchange.mp hyes).2.1
    rw [if_neg hsame, if_neg hstate, (onProbeTimeout_known hstate).1]
    exact h.kept

theorem Observed.Counted.step {o : Observed} (h : o.Counted) (e : AliveEvent) :
    (observe e o).1.Counted := by
  cases e with
  | start => exact .zero 0
  | stop => exact .zero o.unanswered
  | frameReceived =>
    have hflag : (o.answered || AliveEvent.frameReceived == .frameReceived) = true := Bool.or_true _
    unfold Observed.Counted observe
    dsimp only [handleEvent, countUnanswered]
    rw [hflag, onFrameReceived_probeCounter, Bool.and_true]
    exact h.frame
  | stateTimeout => exact h.stateTimeout
  | probeTimeout => exact h.probeTimeout

/-- The baud rate is given up at a fourth unanswered probe exactly in the runs in which no
frame interrupts a count that is completed later. -/
theorem givesUpLate_iff_countsUnanswered (es : List AliveEvent) :
    Along observe GivesUpLate {} es ↔ Along observe CountsUnanswered {} es :=
  along_iff observe (I := Observed.Counted) (fun _ e h => givesUpLate_iff h e)
    (fun _ e _ h => h.step e) (Counted.zero 0)

/-- Three probes are sent, the device answers and falls silent: the first probe timeout
after that changes the baud rate. -/
theorem answered_givesUp :
    ¬ ∀ es, Along observe GivesUpLate {} es := by
  intro h
  have hrun := h [.start, .probeTimeout, .probeTimeout, .probeTimeout, .frameReceived,
    .stateTimeout, .stateTimeout, .stateTimeout, .probeTimeout]
  revert hrun
  decide

/-- The members that no timer operation touches. -/
def members (a : AliveState) := (a.eAliveState, a.frameWasReceived, a.probeCounter)

theorem onStateTimeout_members {a b : AliveState} (h : a.members = b.members) :
    a.onStateTimeout.map members = b.onStateTimeout.map members := by
  simp only [members, Prod.mk.injEq] at h
  obtain ⟨hstate, hflag, hcounter⟩ := h
  unfold onStateTimeout
  rw [hstate, hflag]
  cases b.eAliveState <;> cases b.frameWasReceived <;> simp [members, hstate, hcounter, hflag]

theorem handleEvent_members {a b : AliveState} (h : a.members = b.members) (e : AliveEvent) :
    (handleEvent e a).1.members = (handleEvent e b).1.members := by
  cases e with
  | start | stop => rfl
  | frameReceived =>
    have hcounter : a.probeCounter = b.probeCounter := congrArg (·.2.2) h
    obtain ⟨hstate, hflag⟩ := onFrameReceived_state a
    obtain ⟨hstate', hflag'⟩ := onFrameReceived_state b
    simp only [handleEvent, members, hstate, hflag, hstate', hflag', onFrameReceived_probeCounter,
      hcounter]
  | stateTimeout =>
    have hsame := onStateTimeout_members h
    simp only [handleEvent]
    cases ha : a.onStateTimeout with
    | none =>
      have hb : b.onStateTimeout = none := by simpa [ha] using hsame.symm
      rw [hb]
      exact h
    | some a' =>
      obtain ⟨b', hb', hmembers⟩ := Option.map_eq_some_iff.mp (hsame.symm.trans (by rw [ha]; rfl))
      rw [hb']
      exact hmembers.symm
  | probeTimeout =>
    have hsame := h
    simp only [members, Prod.mk.injEq] at hsame
    obtain ⟨hstate, hflag, hcounter⟩ := hsame
    by_cases hprobing : b.eAliveState = .probing
    · simp only [handleEvent, onProbeTimeout_probing hprobing,
        onProbeTimeout_probing (hstate.trans hprobing), members, startProbeTimer, hstate, hflag, hcounter]
    · simp only [handleEvent, (onProbeTimeout_known hprobing).1,
        (onProbeTimeout_known (hstate ▸ hprobing : a.eAliveState ≠ .probing)).1]
      exact h

theorem run_members {a b : AliveState} (h : a.members = b.members) (es : List AliveEvent) :
    (run handleEvent es a).1.members = (run handleEvent es b).1.members := by
  induction es generalizing a b with
  | nil => exact h
  | cons e es ih => exact ih (handleEvent_members h e)

end AliveState

namespace ProtocolState
open AliveState FrameGenerator FrameParser

def aliveEvents : Event → ProtocolState → List AliveEvent
  | .internal .start, _ => [.stop, .start]
  | .internal .stop, s | .internal .shutdown, s => if s.started then [.stop] else []
  | .internal .stateTimerHandler, s =>
    if () ∈ s.aliveState.stateTimer.queued then [.stateTimeout] else []
  | .internal .probeTimerHandler, s =>
    if () ∈ s.aliveState.probeTimer.queued then [.probeTimeout] else []
  | .frame _ messageInvalid, s =>
    if s.started && s.serialPortHandler && !messageInvalid then [.frameReceived] else []
  | _, _ => []

def aliveHistory (s : ProtocolState) : List Event → List AliveEvent
  | [] => []
  | e :: es => aliveEvents e s ++ aliveHistory (handle e s).1 es

theorem prepareTimer_aliveState (handler : TimerHandler) (s : ProtocolState) :
    (prepareTimer handler s).state.aliveState = s.aliveState := by
  cases handler with
  | retransmission => rfl
  | rnrPoll =>
    unfold prepareTimer
    dsimp only
    split_ifs <;> rfl

theorem prepareStateTimer_aliveState (s : ProtocolState) :
    (prepareStateTimer s).state.aliveState = (handleEvent .stateTimeout s.aliveState).1 := by
  simp only [prepareStateTimer, handleEvent]
  cases s.aliveState.onStateTimeout <;> rfl

theorem prepareFrame_aliveState (buffer : List UInt8) (messageInvalid : Bool) (s : ProtocolState) :
    (prepareFrame buffer messageInvalid s).state.aliveState =
      (run handleEvent (aliveEvents (.frame buffer messageInvalid) s) s.aliveState).1 := by
  have hacked := (checkAcks_acked (deserializeFrame buffer) (afterReceive (deserializeFrame buffer) s)).same
  simp only [unacknowledgedMembers, Prod.mk.injEq] at hacked
  simp only [prepareFrame, aliveEvents]
  cases hstarted : s.started with
  | false => rfl
  | true =>
    cases hhandler : s.serialPortHandler with
    | false => rfl
    | true =>
      cases messageInvalid with
      | true => rfl
      | false => exact hacked.2.2.2.2.2.2.2.2.2

theorem prepare_aliveState (e : Event) (s : ProtocolState) :
    (prepare e s).state.aliveState.members =
      (run handleEvent (aliveEvents e s) s.aliveState).1.members := by
  cases e with
  | frame buffer messageInvalid => exact congrArg members (prepareFrame_aliveState buffer messageInvalid s)
  | internal e =>
    show (prepareLocal e s).state.aliveState.members = _
    cases e with
    | start | timerExpires | stateTimerExpires | probeTimerExpires => rfl
    | sendPayload payload reliable => cases reliable <;> rfl
    | stop | shutdown | triggerNextHDLCFrame =>
      simp only [prepareLocal, aliveEvents]
      split_ifs <;> rfl
    | timerHandler handler =>
      simp only [prepareLocal, aliveEvents]
      split_ifs
      · rw [prepareTimer_aliveState]
        rfl
      · rfl
    | stateTimerHandler =>
      simp only [prepareLocal, aliveEvents]
      split_ifs
      · rw [prepareStateTimer_aliveState, run_singleton]
        have hsame : members { s.aliveState with
            stateTimer := s.aliveState.stateTimer.complete () } = s.aliveState.members := rfl
        exact handleEvent_members hsame .stateTimeout
      · rfl
    | probeTimerHandler =>
      simp only [prepareLocal, aliveEvents]
      split_ifs
      · rw [run_singleton]
        have hsame : members { s.aliveState with
            probeTimer := s.aliveState.probeTimer.complete () } = s.aliveState.members := rfl
        exact handleEvent_members hsame .probeTimeout
      · rfl

theorem handle_aliveMembers (e : Event) (s : ProtocolState) :
    (handle e s).1.aliveState.members = (run handleEvent (aliveEvents e s) s.aliveState).1.members := by
  rw [handle_aliveState, prepare_aliveState]

theorem run_aliveMembers (es : List Event) (s : ProtocolState) :
    (run handle es s).1.aliveState.members =
      (run handleEvent (aliveHistory s es) s.aliveState).1.members := by
  induction es generalizing s with
  | nil => rfl
  | cons e es ih =>
    rw [aliveHistory, run_append, Action.andThen_apply]
    exact (ih (handle e s).1).trans (run_members (handle_aliveMembers e s) _)

/-- The device counts as alive as long as its last frame is no more than two state timeouts
ago. -/
theorem isAlive_iff_history (es : List Event) :
    (run handle es initial).1.aliveState.isAlive = true ↔
      ∃ after, LatestFrame (aliveHistory initial es) after ∧ after.count .stateTimeout ≤ 2 := by
  have hstate : (run handle es initial).1.aliveState.eAliveState =
      (run handleEvent (aliveHistory initial es) {}).1.eAliveState :=
    congrArg Prod.fst (run_aliveMembers es initial)
  rw [← (run_isAlive_iff _).1, isAlive, isAlive, hstate]

end ProtocolState
end Hdlcd
