import Hdlcd.Protocol.Consistency

/-! How an event ends: its own effects are followed by one frame, by one query for payload,
or by nothing. -/

namespace Hdlcd.ProtocolState
open Reactive Action FrameGenerator FrameParser

def Mild : Effect → Prop
  | .transmitHDLCFrame .. | .queryForPayload .. => False
  | _ => True

/-- What an opportunity leaves alone, apart from a payload that is sent unreliably. -/
structure Spent (s t : ProtocolState) : Prop where
  same : (t.started, t.serialPortHandler, t.aliveState, t.waitQueueReliable, t.peerStoppedFlow) =
    (s.started, s.serialPortHandler, s.aliveState, s.waitQueueReliable, s.peerStoppedFlow)
  unreliable : t.waitQueueUnreliable.length ≤ s.waitQueueUnreliable.length
  probe : t.sendProbe = true → s.sendProbe = true

inductive Ending (s t : ProtocolState) : List Effect → Prop
  -- the port is busy or the link is not alive
  | silent (hsame : t = s)
      (hclosed : s.awaitsNextHDLCFrame = false ∨ s.sendProbe = false ∧ s.aliveState.isAlive = false) :
    Ending s t []
  | fault (hnull : s.serialPortHandler = false) : Ending s t [.fault .nullSerialPortHandler]
  | frame {f : HdlcFrame} {xs : List Effect} (hsent : Transmits f xs)
      (hopen : s.awaitsNextHDLCFrame = true) (hbusy : t.awaitsNextHDLCFrame = false)
      (hcause : s.sendProbe = true ∨ s.aliveState.isAlive = true) : Ending s t xs
  | query (hopen : Open s) (hawaits : t.awaitsNextHDLCFrame = true)
      (hempty : s.waitQueueUnreliable = [] ∧ t.waitQueueUnreliable = [])
      (hcause : t.waitQueueReliable = [] ∨ t.peerStoppedFlow = true) :
    Ending s t [.queryForPayload (t.waitQueueReliable.isEmpty && !t.peerStoppedFlow) true]
  -- an I-frame is outstanding, and there is nothing else to send
  | waiting (hopen : Open s) (hawaits : t.awaitsNextHDLCFrame = true) (hqueued : t.waitQueueReliable ≠ [])
      (hempty : t.waitQueueUnreliable = []) : Ending s t []

def Ends (s : ProtocolState) : Assertion ProtocolState Effect := fun t o => Spent s t ∧ Ending s t o

section
variable {s t : ProtocolState} {o : List Effect}

theorem Spent.refl (s : ProtocolState) : Spent s s := ⟨rfl, le_rfl, id⟩

theorem Unacknowledged.spent (h : Unacknowledged s t) : Spent s t := by
  obtain ⟨_, ⟨_, rfl⟩ | ⟨_, _, rfl⟩⟩ := h
  · exact ⟨rfl, le_rfl, id⟩
  · exact .refl _

theorem Unacknowledged.awaits (h : Unacknowledged s t) : t.awaitsNextHDLCFrame = true := by
  obtain ⟨hpasses, ⟨_, rfl⟩ | ⟨_, _, rfl⟩⟩ := h <;> exact hpasses.awaits

theorem Unacknowledged.unreliable (h : Unacknowledged s t) :
    t.waitQueueUnreliable = s.waitQueueUnreliable := by
  obtain ⟨_, ⟨_, rfl⟩ | ⟨_, _, rfl⟩⟩ := h <;> rfl

theorem outcome_ends (s : ProtocolState) : Outcome (Ends s) s [] where
  silent h := ⟨.refl s, .silent rfl h⟩
  fault _ hprobe hnull := ⟨⟨rfl, le_rfl, fun _ => hprobe⟩, .fault hnull⟩
  probe hawaits hprobe _ xs hsent :=
    ⟨⟨rfl, le_rfl, fun _ => hprobe⟩, .frame hsent hawaits rfl (.inl hprobe)⟩
  srej _ _ hs _ xs hsent := ⟨⟨rfl, le_rfl, id⟩, .frame hsent hs.awaits rfl (.inr hs.alive)⟩
  iFrame _ _ hs _ _ _ _ xs hsent := ⟨⟨rfl, le_rfl, id⟩, .frame hsent hs.awaits rfl (.inr hs.alive)⟩
  poll hs _ _ _ _ xs hsent := ⟨⟨rfl, le_rfl, id⟩, .frame hsent hs.awaits rfl (.inr hs.alive)⟩
  rr hs _ _ _ xs hsent := ⟨⟨rfl, le_rfl, id⟩, .frame hsent hs.awaits rfl (.inr hs.alive)⟩
  uiFrame t front rest ht hq xs hsent := by
    have hspent := ht.spent
    refine ⟨⟨hspent.same, ?_, hspent.probe⟩, .frame hsent ht.1.awaits rfl (.inr ht.1.alive)⟩
    have hle := hspent.unreliable
    rw [hq, List.length_cons] at hle
    exact Nat.le_of_succ_le hle
  query t ht hempty hcause :=
    ⟨ht.spent, .query ht.1.toOpen ht.awaits ⟨ht.unreliable.symm.trans hempty, hempty⟩ hcause⟩
  idle t ht hempty hqueued _ := ⟨ht.spent, .waiting ht.1.toOpen ht.awaits hqueued hempty⟩

theorem opportunity_ends (hs : Consistent s) :
    Ends s (opportunityForTransmission s).1 (opportunityForTransmission s).2 :=
  (outcome_ends s).opportunityForTransmission fun halive => (hs.running halive).2

def AllMild (o : List Effect) : Prop := ∀ x ∈ o, Mild x

theorem AllMild.append {xs : List Effect} (h : AllMild o) (h' : AllMild xs) : AllMild (o ++ xs) :=
  fun x hx => (List.mem_append.mp hx).elim (h x) (h' x)

def IsPop : Effect → Prop
  | .popFrontReliable _ | .fault _ => True
  | _ => False

def Pops : Assertion ProtocolState Effect := fun _ o => ∀ x ∈ o, IsPop x

theorem popFrontReliable_pops : popFrontReliable.wp Pops s [] :=
  popFrontReliable_wp (fun _ _ _ => by simp [Pops, IsPop]) fun _ => by simp [Pops, IsPop]

theorem checkAcks_pops (f : HdlcFrame) (s : ProtocolState) : ∀ x ∈ (checkAcks f s).2, IsPop x := by
  have hnone (t : ProtocolState) : Pops t [] := by simp [Pops]
  have hpop (g : ProtocolState → ProtocolState) (t : ProtocolState) :
      popFrontReliable.wp ((update g).wp Pops) t [] :=
    wp_mono popFrontReliable_pops fun _ _ h => wp_update.mpr h
  show (checkAcks f).wp Pops s []
  unfold checkAcks
  split
  case h_1 | h_2 =>
    simp only [acknowledge, wp_andThen, wp_update]
    refine wp_branch (fun _ => ?_) fun _ => wp_skip.mpr (wp_update.mpr (hnone _))
    rw [wp_andThen, wp_update]
    exact hpop _ _
  case h_3 =>
    simp only [receiveNotReady, wp_andThen, wp_update]
    refine wp_branch (fun _ => ?_) fun _ => wp_skip.mpr (wp_update.mpr (hnone _))
    rw [wp_andThen, wp_update]
    exact wp_branch (fun _ => hpop _ _) fun _ => wp_skip.mpr (wp_update.mpr (hnone _))
  case h_4 | h_5 | h_6 => exact hnone _

theorem checkAcks_mild (f : HdlcFrame) (s : ProtocolState) : AllMild (checkAcks f s).2 := by
  intro x hx
  have hpop := checkAcks_pops f s x hx
  cases x with
  | transmitHDLCFrame | queryForPayload => exact hpop
  | _ => trivial

theorem prepareValidFrame_mild (f : HdlcFrame) (s : ProtocolState) :
    AllMild (prepareValidFrame f s).effects := by
  have hreceived : AllMild (frameReceived s).2 := by
    unfold frameReceived
    dsimp only
    split_ifs <;> simp [AllMild, Mild]
  have hpayload : AllMild (receivePayload f (frameReceived s).1).2 := by
    unfold receivePayload
    split_ifs <;> simp [AllMild, Mild, andThen, emit, update, skip]
  exact hreceived.append (hpayload.append (checkAcks_mild f _))

theorem prepareLocal_mild {e : LocalEvent} {p : Preparation} (hp : Prepared s e p) :
    AllMild p.effects := by
  cases hp with
  | stop =>
    unfold memberCall
    split_ifs <;> simp [AllMild, Mild]
  | stateTimer _ _ _ _ heffects =>
    intro x hx
    rw [heffects x hx]
    trivial
  | probe =>
    unfold prepareProbeTimer
    dsimp only
    split_ifs <;> simp [AllMild, Mild]
  | _ => simp [AllMild]

theorem prepare_mild (e : Event) (s : ProtocolState) : AllMild (prepare e s).effects := by
  cases e with
  | internal e => exact prepareLocal_mild (prepared e s)
  | frame buffer messageInvalid =>
    have hcopies (invalid : Bool) : AllMild (frameCopies buffer invalid) := by
      simp [AllMild, frameCopies, Mild]
    unfold prepare prepareFrame
    dsimp only
    split_ifs
    · simp [AllMild]
    · simp [AllMild, Mild]
    · exact hcopies true
    · exact (hcopies false).append (prepareValidFrame_mild _ s)

end

/-- The opportunity at the end of an event, if there is one. -/
inductive Concluded (e : Event) (s t : ProtocolState) (o : List Effect) : Prop
  | opportunity (xs : List Effect) (hopen : (prepare e s).opportunity = true)
      (hends : Ends (prepare e s).state t xs) (ho : o = (prepare e s).effects ++ xs)
  | quiet (hquiet : (prepare e s).opportunity = false) (ht : t = (prepare e s).state)
      (ho : o = (prepare e s).effects)

theorem handle_concluded {s : ProtocolState} (hs : Consistent s) (e : Event) :
    Concluded e s (handle e s).1 (handle e s).2 := by
  rw [handle_eq, Preparation.finish]
  split_ifs with hopen
  · exact .opportunity _ hopen (opportunity_ends (hs.prepare e)) rfl
  · exact .quiet (Bool.eq_false_of_not_eq_true hopen) rfl rfl

section
variable {s : ProtocolState}

def startedAfter (s : ProtocolState) : Event → Bool
  | .internal .start => true
  | .internal .stop | .internal .shutdown => false
  | _ => s.started

theorem prepare_started (e : Event) (s : ProtocolState) : (prepare e s).state.started = startedAfter s e := by
  cases e with
  | internal e =>
    cases e with
    | sendPayload payload reliable => cases reliable <;> rfl
    | start | timerExpires | stateTimerExpires | probeTimerExpires => rfl
    | stop | shutdown =>
      show (prepareLocal _ s).state.started = _
      rw [prepareLocal]
      split_ifs with hstarted
      · rfl
      · simpa [startedAfter] using hstarted
    | triggerNextHDLCFrame =>
      show (prepareLocal _ s).state.started = _
      rw [prepareLocal]
      split_ifs <;> rfl
    | timerHandler handler =>
      show (prepareLocal _ s).state.started = _
      rw [prepareLocal]
      split_ifs
      · cases handler with
        | retransmission => rfl
        | rnrPoll =>
          rw [prepareTimer]
          split_ifs <;> rfl
      · rfl
    | stateTimerHandler =>
      show (prepareLocal _ s).state.started = _
      rw [prepareLocal, prepareStateTimer]
      split_ifs
      · split <;> rfl
      · rfl
    | probeTimerHandler =>
      show (prepareLocal _ s).state.started = _
      rw [prepareLocal]
      split_ifs <;> rfl
  | frame buffer messageInvalid =>
    unfold prepare prepareFrame
    dsimp only
    split_ifs
    · rfl
    · rfl
    · rfl
    · have hsame := (checkAcks_acked (deserializeFrame buffer) (afterReceive (deserializeFrame buffer) s)).same
      exact congrArg (·.1) hsame

theorem handle_started (hs : Consistent s) (e : Event) : (handle e s).1.started = startedAfter s e := by
  rw [← prepare_started e s]
  cases handle_concluded hs e with
  | opportunity xs hopen hends ho => exact congrArg (·.1) hends.1.same
  | quiet hquiet ht ho => rw [ht]

end

end Hdlcd.ProtocolState
