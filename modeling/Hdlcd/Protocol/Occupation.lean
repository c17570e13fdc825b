import Hdlcd.Protocol.Ending

/-! When a frame is handed over to the serial port handler: only if the last one is done,
and a stopped entity hands over a probe at most. -/

namespace Hdlcd

def Event.Peaceful : Event → Prop
  | .internal .start | .internal .stop | .internal .shutdown | .internal .triggerNextHDLCFrame
  | .internal .probeTimerHandler => False
  | _ => True

namespace ProtocolState
open Reactive Action FrameGenerator FrameParser

def NoFrame : Effect → Prop
  | .transmitHDLCFrame .. => False
  | _ => True

/-- What an opportunity does to the frame that is under way. -/
inductive Passage (s t : ProtocolState) (o : List Effect) : Prop
  | silent (ho : ∀ x ∈ o, NoFrame x) (hawaits : t.awaitsNextHDLCFrame = true → s.awaitsNextHDLCFrame = true)
    (hprobe : t.awaitsNextHDLCFrame = true → s.serialPortHandler = true → t.sendProbe = false)
  | frame {f : HdlcFrame} (hsent : Transmits f o) (hawaits : s.awaitsNextHDLCFrame = true)
    (hhandler : s.serialPortHandler = true) (hcause : s.sendProbe = true ∨ s.aliveState.isAlive = true)
    (hbusy : t.awaitsNextHDLCFrame = false)

def Halted (s : ProtocolState) : Prop :=
  s.started = false → s.awaitsNextHDLCFrame = true → s.serialPortHandler = true → s.sendProbe = false

section
variable {s t : ProtocolState} {o : List Effect} {e : Event}

theorem opportunity_passage (hs : Consistent s) :
    Passage s (opportunityForTransmission s).1 (opportunityForTransmission s).2 := by
  have hhandler {t : ProtocolState} (ht : Open t) (hsame : t = s) : s.serialPortHandler = true :=
    (hs.running (hsame ▸ ht.alive)).2
  have hsent {t : ProtocolState} {f : HdlcFrame} (ht : Open s) :
      Sends (fun t o => Passage s t o) f t [] := by
    intro xs hxs
    exact .frame hxs ht.awaits (hhandler ht rfl) (.inr ht.alive) rfl
  have hquiet {t : ProtocolState} {xs : List Effect} (ht : Unacknowledged s t) (hxs : ∀ x ∈ xs, NoFrame x) :
      Passage s t xs := by
    obtain ⟨hpasses, ⟨_, rfl⟩ | ⟨_, _, rfl⟩⟩ := ht
    · exact .silent hxs id fun _ _ => hpasses.probe
    · exact .silent hxs id fun _ _ => hpasses.probe
  have hout : Outcome (fun t o => Passage s t o) s [] :=
    { silent := fun hclosed => by
        refine .silent (by simp) id fun hawaits _ => ?_
        rcases hclosed with hbusy | ⟨hprobe, _⟩
        · rw [hbusy] at hawaits
          exact Bool.noConfusion hawaits
        · exact hprobe
      fault := fun _ _ hnull => by
        refine .silent (by simp [NoFrame]) id fun _ hset => ?_
        exact Bool.noConfusion (hnull.symm.trans hset)
      probe := fun hawaits hprobe hset xs hxs => .frame hxs hawaits hset (.inl hprobe) rfl
      srej := fun _ _ hopen _ => hsent hopen
      iFrame := fun _ _ hopen _ _ _ _ => hsent hopen
      poll := fun hpasses _ _ _ _ => hsent hpasses.toOpen
      rr := fun hpasses _ _ _ => hsent hpasses.toOpen
      uiFrame := fun _ _ _ ht _ => hsent ht.1.toOpen
      query := fun t ht _ _ => hquiet ht (by simp [NoFrame])
      idle := fun t ht _ _ _ => hquiet ht (by simp) }
  exact hout.opportunityForTransmission fun halive => (hs.running halive).2

theorem noFrame_of_mild (ho : AllMild o) : ∀ x ∈ o, NoFrame x := by
  intro x hx
  have hmild := ho x hx
  cases x with
  | transmitHDLCFrame => exact hmild.elim
  | _ => trivial

/-- What an event does to the frame that is under way. -/
inductive Occupies (p : Preparation) (t : ProtocolState) (o : List Effect) : Prop
  | silent (ho : ∀ x ∈ o, NoFrame x) (hawaits : t.awaitsNextHDLCFrame = true → p.state.awaitsNextHDLCFrame = true)
  | frame {f : HdlcFrame} {copies : List Effect} {buffer : List UInt8}
    (ho : o = copies ++ [.transmitHDLCFrame f buffer]) (hcopies : ∀ x ∈ copies, NoFrame x)
    (hawaits : p.state.awaitsNextHDLCFrame = true) (hhandler : p.state.serialPortHandler = true)
    (hcause : p.state.sendProbe = true ∨ p.state.started = true) (hbusy : t.awaitsNextHDLCFrame = false)

theorem handle_occupies (hs : Consistent s) (e : Event) : Occupies (prepare e s) (handle e s).1 (handle e s).2 := by
  have hprepared := hs.prepare e
  have hmild := noFrame_of_mild (prepare_mild e s)
  rw [handle_eq, Preparation.finish]
  split_ifs
  · cases opportunity_passage hprepared with
    | silent ho hawaits =>
      exact .silent (fun x hx => (List.mem_append.mp hx).elim (hmild x) (ho x)) hawaits
    | @frame f hsent hawaits hhandler hcause hbusy =>
      obtain ⟨copies, buffer, ho, _, hcopies⟩ := hsent
      have hcopied : (prepare e s).effects ++ (opportunityForTransmission (prepare e s).state).2 =
          ((prepare e s).effects ++ copies) ++ [.transmitHDLCFrame f buffer] := by
        rw [ho, List.append_assoc]
      refine .frame hcopied (fun x hx => ?_) hawaits hhandler
        (hcause.imp_right fun halive => (hprepared.running halive).1) hbusy
      · rcases List.mem_append.mp hx with hx | hx
        · exact hmild x hx
        · have hcopy := hcopies x hx
          cases x with
          | transmitHDLCFrame => exact hcopy.elim
          | _ => trivial
  · exact .silent hmild id

def passMembers (s : ProtocolState) :=
  (s.started, s.awaitsNextHDLCFrame, s.serialPortHandler, s.sendProbe)

theorem prepare_peaceful (he : e.Peaceful) (s : ProtocolState) :
    passMembers (prepare e s).state = passMembers s := by
  cases e with
  | internal e =>
    have hp := prepared e s
    show passMembers (prepareLocal e s).state = _
    generalize prepareLocal e s = p at hp
    cases hp with
    | start | stop | shutdown | trigger | probe => exact he.elim
    | sendPayload payload reliable => cases reliable <;> rfl
    | _ => rfl
  | frame buffer messageInvalid =>
    unfold prepare prepareFrame
    dsimp only
    split_ifs
    · rfl
    · rfl
    · rfl
    · have hsame := (checkAcks_acked (deserializeFrame buffer) (afterReceive (deserializeFrame buffer) s)).same
      simp only [unacknowledgedMembers, Prod.mk.injEq] at hsame
      obtain ⟨hstarted, hawaits, _, hprobe, _, _, hhandler, _⟩ := hsame
      have hmembers : passMembers (checkAcks (deserializeFrame buffer)
          (afterReceive (deserializeFrame buffer) s)).1 = passMembers s := by
        unfold passMembers
        rw [hstarted, hawaits, hprobe, hhandler]
        rfl
      exact hmembers

theorem prepare_probe (s : ProtocolState) :
    ((prepare (.internal .probeTimerHandler) s).state.started,
        (prepare (.internal .probeTimerHandler) s).state.awaitsNextHDLCFrame,
        (prepare (.internal .probeTimerHandler) s).state.serialPortHandler) =
      (s.started, s.awaitsNextHDLCFrame, s.serialPortHandler) := by
  have hp := prepared .probeTimerHandler s
  have hlocal : prepare (.internal .probeTimerHandler) s = prepareLocal .probeTimerHandler s := rfl
  rw [hlocal]
  generalize prepareLocal .probeTimerHandler s = p at hp
  cases hp with
  | stateTimer _ _ _ _ _ _ he => rcases he with he | he <;> exact LocalEvent.noConfusion he
  | probe => rfl
  | ignored => rfl

theorem handle_serialPortHandler (hs : Consistent s) {e : Event} (he : e ≠ .internal .shutdown) :
    (handle e s).1.serialPortHandler = s.serialPortHandler := by
  have hprepared : (prepare e s).state.serialPortHandler = s.serialPortHandler := by
    cases e with
    | internal e =>
      have hp := prepared e s
      show (prepareLocal e s).state.serialPortHandler = _
      generalize prepareLocal e s = p at hp
      cases hp with
      | shutdown => exact absurd rfl he
      | sendPayload payload reliable => cases reliable <;> rfl
      | _ => rfl
    | frame buffer messageInvalid =>
      exact congrArg (·.2.2.1) (prepare_peaceful (e := .frame buffer messageInvalid) trivial s)
  rw [handle_eq, Preparation.finish]
  split_ifs
  · exact (congrArg (·.2.1) (opportunity_ends (hs.prepare e)).1.same).trans hprepared
  · exact hprepared

theorem prepareProbeTimer_quiet (hset : s.serialPortHandler = true)
    (hquiet : (prepareProbeTimer s).opportunity = false) : (prepareProbeTimer s).state.sendProbe = s.sendProbe := by
  have hnone : (s.serialPortHandler && !s.aliveState.onProbeTimeout.2.isEmpty) = false := hquiet
  rw [hset, Bool.true_and] at hnone
  show (s.sendProbe || !s.aliveState.onProbeTimeout.2.isEmpty) = s.sendProbe
  rw [hnone, Bool.or_false]

namespace Halted

theorem prepare (h : Halted s) (hquiet : (prepare e s).opportunity = false) : Halted (prepare e s).state := by
  by_cases hpeaceful : e.Peaceful
  · have hsame := prepare_peaceful hpeaceful s
    simp only [passMembers, Prod.mk.injEq] at hsame
    obtain ⟨hstarted, hawaits, hhandler, hprobe⟩ := hsame
    unfold Halted
    rw [hstarted, hawaits, hhandler, hprobe]
    exact h
  · cases e with
    | frame => exact absurd trivial hpeaceful
    | internal e =>
      have hp := prepared e s
      have hquiet : (prepareLocal e s).opportunity = false := hquiet
      show Halted (prepareLocal e s).state
      generalize prepareLocal e s = p at hp hquiet
      cases hp with
      | start => exact fun hstopped => Bool.noConfusion hstopped
      | stop => exact fun _ _ _ => rfl
      | shutdown => exact fun _ _ hset => Bool.noConfusion hset
      | trigger => exact Bool.noConfusion hquiet
      | probe =>
        intro hstopped hawaits hset
        have hsame := prepareProbeTimer_quiet (s := { s with
          aliveState := { s.aliveState with probeTimer := s.aliveState.probeTimer.complete () } }) hset hquiet
        exact hsame.trans (h hstopped hawaits hset)
      | stateTimer _ _ _ _ _ _ he => rcases he with rfl | rfl <;> exact absurd trivial hpeaceful
      | ignored => exact h
      | _ => exact absurd trivial hpeaceful

theorem handle (h : Halted s) (hs : Consistent s) (e : Event) : Halted (handle e s).1 := by
  rw [handle_eq, Preparation.finish]
  split_ifs with hopen
  · have hprepared := hs.prepare e
    have hspent := (opportunity_ends hprepared).1.same
    simp only [Prod.mk.injEq] at hspent
    obtain ⟨_, hhandler, _⟩ := hspent
    intro _ hawaits hset
    cases opportunity_passage hprepared with
    | silent _ _ hprobe => exact hprobe hawaits (hhandler.symm.trans hset)
    | frame _ _ _ _ hbusy => exact absurd (hbusy.symm.trans hawaits) Bool.noConfusion
  · exact h.prepare (Bool.eq_false_of_not_eq_true hopen)

theorem initial : Halted initial := fun _ _ _ => rfl

end Halted
theorem prepare_halts {e : LocalEvent} (he : e = .stop ∨ e = .shutdown) (s : ProtocolState) :
    (prepare (.internal e) s).state.started = false ∧ (Halted s → Halted (prepare (.internal e) s).state) := by
  have hstopped (h : ¬ s.started = true) : s.started = false := Bool.eq_false_of_not_eq_true h
  rcases he with rfl | rfl
  all_goals
    show (prepareLocal _ s).state.started = false ∧ (Halted s → Halted (prepareLocal _ s).state)
    rw [prepareLocal]
    split_ifs with hstarted
  · exact ⟨rfl, fun _ _ _ _ => rfl⟩
  · exact ⟨hstopped hstarted, id⟩
  · exact ⟨rfl, fun _ _ _ hset => Bool.noConfusion hset⟩
  · exact ⟨hstopped hstarted, id⟩

end
end ProtocolState
end Hdlcd
