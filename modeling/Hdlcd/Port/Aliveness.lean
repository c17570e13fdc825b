import Hdlcd.Port.Readiness
import Hdlcd.Port.Reports
import Hdlcd.Port.Sessions

/-! Which alive state the clients were told: every change of it is propagated, but the one at
the end of a re-probing that no frame answered. -/

namespace Hdlcd

def AliveState.Lapses (a : AliveState) : Prop :=
  () ∈ a.stateTimer.queued ∧ a.eAliveState = .reprobing ∧ a.frameWasReceived = false

instance (a : AliveState) : Decidable a.Lapses := inferInstanceAs (Decidable (_ ∧ _))

namespace ProtocolState
open FrameParser

section
variable {s : ProtocolState}

theorem prepare_effects (e : Event) (s : ProtocolState) : (prepare e s).effects ⊆ (handle e s).2 := by
  rw [handle_eq, Preparation.finish]
  split_ifs
  · exact List.subset_append_left _ _
  · exact List.Subset.refl _

theorem isAlive_stateTimeout {a : AliveState} (h : ¬ (a.eAliveState = .reprobing ∧ a.frameWasReceived = false)) :
    ∀ a', a.onStateTimeout = some a' → a'.isAlive = a.isAlive := by
  intro a' ha'
  unfold AliveState.onStateTimeout at ha'
  cases hstate : a.eAliveState with
  | probing =>
    simp only [hstate, Option.some.injEq] at ha'
    rw [← ha']
  | found =>
    simp only [hstate] at ha'
    have hfound : a.isAlive = true := by simp [AliveState.isAlive, hstate]
    split_ifs at ha'
    · rw [← Option.some.inj ha', hfound]
      rfl
    · rw [← Option.some.inj ha', hfound]
      rfl
  | reprobing =>
    simp only [hstate] at ha'
    split_ifs at ha' with hreceived
    simp only [Bool.not_eq_true'] at hreceived
    exact absurd ⟨hstate, hreceived⟩ h

/-- What happens between a start and the next stop keeps the alive state, the end of a
re-probing aside. -/
theorem isAlive_prepareLocal {e : LocalEvent} (hcontrol : e ≠ .start ∧ e ≠ .stop ∧ e ≠ .shutdown)
    (hlapse : e = .stateTimerHandler → ¬ s.aliveState.Lapses) :
    (prepareLocal e s).state.aliveState.isAlive = s.aliveState.isAlive := by
  cases e with
  | start => exact absurd rfl hcontrol.1
  | stop => exact absurd rfl hcontrol.2.1
  | shutdown => exact absurd rfl hcontrol.2.2
  | sendPayload payload reliable => cases reliable <;> rfl
  | triggerNextHDLCFrame =>
    rw [prepareLocal]
    split_ifs <;> rfl
  | timerExpires | stateTimerExpires | probeTimerExpires => rfl
  | timerHandler handler =>
    rw [prepareLocal]
    split_ifs
    · cases handler with
      | retransmission => rfl
      | rnrPoll =>
        rw [prepareTimer]
        split_ifs <;> rfl
    · rfl
  | stateTimerHandler =>
    rw [prepareLocal]
    split_ifs with hqueued
    · rw [prepareStateTimer]
      split
      · rename_i a ha
        have hkept := isAlive_stateTimeout (a := { s.aliveState with
          stateTimer := s.aliveState.stateTimer.complete () }) (fun h => hlapse rfl ⟨hqueued, h⟩) a ha
        exact hkept
      · rfl
    · rfl
  | probeTimerHandler =>
    rw [prepareLocal]
    split_ifs
    · exact prepareProbeTimer_isAlive _
    · rfl

theorem isAlive_prepareFrame (buffer : List UInt8) (messageInvalid : Bool) :
    (prepareFrame buffer messageInvalid s).state.aliveState.isAlive = s.aliveState.isAlive ∨
      .propagateSerialPortState ∈ (prepareFrame buffer messageInvalid s).effects := by
  unfold prepareFrame
  split_ifs
  · exact .inl rfl
  · exact .inl rfl
  · exact .inl rfl
  · have hkept := congrArg (·.2.2.2.2.2.2.2.2.2) (checkAcks_acked (deserializeFrame buffer)
      (afterReceive (deserializeFrame buffer) s)).same
    have hfound : (checkAcks (deserializeFrame buffer) (afterReceive (deserializeFrame buffer) s)).1.aliveState =
        s.aliveState.onFrameReceived.1 := hkept
    by_cases hprobing : s.aliveState.onFrameReceived.2 = true
    · refine .inr (List.mem_append_right _ (List.mem_append_left _ ?_))
      unfold frameReceived
      dsimp only
      rw [if_pos hprobing]
      exact List.mem_singleton.mpr rfl
    · refine .inl ?_
      have halive : s.aliveState.isAlive = true := by
        unfold AliveState.onFrameReceived at hprobing
        cases hstate : s.aliveState.eAliveState with
        | probing => exact absurd (by simp [hstate]) hprobing
        | found | reprobing => simp [AliveState.isAlive, hstate]
      show (checkAcks _ _).1.aliveState.isAlive = _
      rw [hfound, AliveState.isAlive_onFrameReceived, halive]

theorem isAlive_handle {e : Event}
    (hcontrol : e ≠ .internal .start ∧ e ≠ .internal .stop ∧ e ≠ .internal .shutdown)
    (hlapse : e = .internal .stateTimerHandler → ¬ s.aliveState.Lapses) :
    (handle e s).1.aliveState.isAlive = s.aliveState.isAlive ∨ .propagateSerialPortState ∈ (handle e s).2 := by
  rw [handle_aliveState]
  cases e with
  | internal e =>
    simp only [ne_eq, Event.internal.injEq] at hcontrol hlapse
    exact .inl (isAlive_prepareLocal hcontrol hlapse)
  | frame buffer messageInvalid =>
    exact (isAlive_prepareFrame buffer messageInvalid).imp_right fun h => prepare_effects _ _ h

theorem handle_lapses (h : s.aliveState.Lapses) :
    s.aliveState.isAlive = true ∧ (handle (.internal .stateTimerHandler) s).1.aliveState.isAlive = false ∧
      (handle (.internal .stateTimerHandler) s).2 = [] := by
  obtain ⟨hqueued, hstate, hreceived⟩ := h
  have hended : handle (.internal .stateTimerHandler) s = (prepareLocal .stateTimerHandler s).finish :=
    handle_eq _ s
  rw [prepareLocal, if_pos hqueued, prepareStateTimer, AliveState.onStateTimeout] at hended
  simp only [hstate, hreceived, Bool.not_false, if_true] at hended
  refine ⟨by simp [AliveState.isAlive, hstate], ?_, ?_⟩
  all_goals rw [hended]; rfl

end
end ProtocolState

namespace Port
open Reactive Action Desks ProtocolState

/-- Every client was told the alive state that the port has. -/
structure Informed (s : Port) : Prop where
  enrolled : Enrolled s
  told : ∀ c h, s.handlers c = some h →
    h.deliverInitialState = false ∧ h.aliveGuard.alive = s.protocolState.aliveState.isAlive

section
variable {s t : Port} {o : List Output} {c : ClientId}

theorem Informed.of_handlers (h : Informed s) (ht : Enrolled t) (hhandlers : t.handlers = s.handlers)
    (halive : t.protocolState.aliveState.isAlive = s.protocolState.aliveState.isAlive) : Informed t := by
  refine ⟨ht, fun c hh hc => ?_⟩
  rw [halive]
  exact h.told c hh (hhandlers ▸ hc)

theorem Informed.of_nobody (hs : Enrolled s) (hnobody : ∀ c, s.handlers c = none) : Informed s :=
  ⟨hs, fun c _ hc => absurd ((hnobody c).symm.trans hc) (Option.some_ne_none _).symm⟩

theorem Enrolled.informed (hs : Enrolled s) : Informed (propagateSerialPortState s).1 := by
  have hserved := propagateSerialPortState_served s
  have hsame := hserved.same
  simp only [servedMembers, Prod.mk.injEq] at hsame
  refine ⟨hs.served hserved, fun c h' hc => ?_⟩
  obtain ⟨h, -, rfl⟩ := handler_of_propagate hs hc
  rw [hsame.2.1]
  exact ⟨rfl, rfl⟩

theorem forEach_handlers {f : ClientId → HdlcdServerHandler → HdlcdServerHandler × List Output}
    (hf : ∀ c h, (f c h).1 = h) (s : Port) : (forEachHdlcdServerHandler f s).1.handlers = s.handlers := by
  funext c
  show (if c ∈ s.live then (s.handlers c).map fun h => (f c h).1 else s.handlers c) = _
  split_ifs
  · simp only [hf, Option.map_id']
  · rfl

theorem effect_handlers {x : Effect} (hx : x ≠ .propagateSerialPortState) (s : Port) :
    (effect x s).1.handlers = s.handlers := by
  have huntold (hx : ¬ Notifies x) := effect_untold hx s
  cases x with
  | propagateSerialPortState => exact absurd rfl hx
  | deliverIfRequired =>
    rw [effect, branch]
    split_ifs
    · exact forEach_handlers (fun _ _ => rfl) s
    · rfl
  | deliverBufferToClients => exact forEach_handlers (fun _ _ => rfl) s
  | _ => exact congrArg (·.1) (huntold id).1

theorem effect_informed (x : Effect) (h : Informed s) : Informed (effect x s).1 := by
  by_cases hx : x = .propagateSerialPortState
  · subst hx
    exact h.enrolled.informed
  · have hserved := (effect_done x s).served
    have hsame := hserved.same
    simp only [servedMembers, Prod.mk.injEq] at hsame
    refine h.of_handlers (h.enrolled.served hserved) (effect_handlers hx s) ?_
    rw [hsame.2.1]

theorem effects_informed {xs : List Effect} (hs : Enrolled s)
    (h : Informed s ∨ .propagateSerialPortState ∈ xs) : Informed (run effect xs s).1 := by
  induction xs generalizing s with
  | nil => exact h.resolve_right List.not_mem_nil
  | cons x xs ih =>
    have hserved := (effect_done x s).served
    refine ih (hs.served hserved) ?_
    rcases h with hinformed | hmem
    · exact .inl (effect_informed x hinformed)
    · rcases List.mem_cons.mp hmem with rfl | hmem
      · exact .inl hs.informed
      · exact .inr hmem

theorem callProtocolState_informed {e : Hdlcd.Event} (h : Informed s)
    (halive : (handle e s.protocolState).1.aliveState.isAlive = s.protocolState.aliveState.isAlive ∨
      .propagateSerialPortState ∈ (handle e s.protocolState).2) :
    Informed (callProtocolState (handle e) s).1 := by
  have hchanged := h.enrolled.protocolState (h.enrolled.consistent.handle e)
  refine effects_informed hchanged (halive.imp_left fun halive => ?_)
  exact h.of_handlers hchanged rfl halive

theorem stopClients_informed (hs : Enrolled s) : Informed (stopClients s).1 :=
  .of_nobody (stopClients_simulates s hs).enrolled hs.stopClients_nobody

theorem Simulates.informs {a b : Act} (ha : Simulates a) (hb : ∀ s, Enrolled s → Informed (b s).1)
    (hs : Enrolled s) : Informed (a.andThen b s).1 := hb _ (ha s hs).enrolled

theorem dissolve_informed (hs : Enrolled s) : Informed (dissolve s).1 :=
  (control_simulates (e := .shutdown) (.inr (.inr rfl))).informs (fun _ ht => stopClients_informed ht) hs

theorem openSerialPort_informed (opens : OpenResult) (hs : Enrolled s) : Informed (openSerialPort opens s).1 := by
  have hstart := control_simulates (e := .start) (.inl rfl)
  have hfailed {s : Port} (hs : Enrolled s) : Informed (unregister.andThen dissolve s).1 :=
    unregister_simulates.informs (fun _ ht => dissolve_informed ht) hs
  cases opens with
  | opened =>
    exact openPort_simulates.informs (fun t ht => hstart.informs (fun t ht =>
      doRead_simulates.informs (fun _ ht => ht.informed) ht) ht) hs
  | failed => exact hfailed hs
  | notConfigured => exact openPort_simulates.informs (fun _ ht => hfailed ht) hs

def StaysInformed : Assertion Port Output := fun s _ => Informed s

theorem stop_informed : Maintains StaysInformed stop := by
  refine (Maintains.emit fun _ _ h => h).andThen (Maintains.branch (fun s _ h => ?_) .skip)
  exact unregister_simulates.informs (fun t ht => closeSerialPort_simulates.informs
    (fun _ ht => dissolve_informed ht) ht) h.enrolled

theorem suspendSerialPort_informed : Maintains StaysInformed suspendSerialPort := by
  have hstop := control_simulates (e := .stop) (.inr (.inl rfl))
  refine Maintains.branch (fun s _ h => ?_) .skip
  have hlocked : Simulates (update fun t => { t with serialPortLock := s.serialPortLock.suspendSerialPort.1 }) :=
    .update (fun _ hs => hs.congr rfl) fun _ => rfl
  have hsuspended := ((Simulates.emit (o := [.suspended]) rfl).andThen (hstop.andThen closeSerialPort_simulates)).ite
    (p := s.serialPortLock.suspendSerialPort.2 = true) .skip
  exact hlocked.informs (fun t ht => hsuspended.informs (fun _ ht => ht.informed) ht) h.enrolled

theorem resumeSerialPort_informed (opens : OpenResult) : Maintains StaysInformed (resumeSerialPort opens) := by
  refine Maintains.branch (fun s _ h => ?_) .skip
  have hunlocked : Simulates (update fun t => { t with serialPortLock := s.serialPortLock.resumeSerialPort.1 }) :=
    .update (fun _ hs => hs.congr rfl) fun _ => rfl
  refine hunlocked.informs (fun t ht => ?_) h.enrolled
  split_ifs
  · have hemitted : Simulates (emit [Output.resumed]) := .emit rfl
    exact hemitted.informs (fun _ ht => openSerialPort_informed opens ht) ht
  · exact ht.informed

theorem Informed.modify (h : Informed s) {f : HdlcdServerHandler → HdlcdServerHandler} (c : ClientId)
    (hf : ∀ h, ((f h).deliverInitialState, (f h).aliveGuard) = (h.deliverInitialState, h.aliveGuard)) :
    Informed (modifyHandler c f s) := by
  refine ⟨h.enrolled.modifyHandler c f, fun d h' hd => ?_⟩
  unfold modifyHandler at hd
  dsimp only at hd
  split_ifs at hd
  · obtain ⟨hh, hold, rfl⟩ := Option.map_eq_some_iff.mp hd
    obtain ⟨hinitial, hguard⟩ := Prod.mk.inj (hf hh)
    rw [hinitial, hguard]
    exact h.told d hh hold
  · exact h.told d h' hd

theorem informed_attentive : Attentive StaysInformed where
  members {s t _} h hsame := by
    simp only [sessionMembers, Prod.mk.injEq] at hsame
    obtain ⟨_, hps, _, hhandlers, hlist, hconnections, _⟩ := hsame
    refine h.of_handlers (h.enrolled.of_members (hps ▸ h.enrolled.consistent) ?_) hhandlers (by rw [hps])
    unfold clientMembers
    rw [hhandlers, hlist, hconnections]
  parser _ h := h.of_handlers (h.enrolled.protocolState (h.enrolled.consistent.congr rfl)) rfl rfl
  aloof h _ := h
  modify c hf h := by
    refine h.modify c fun hh => ?_
    have hsame := hf hh
    simp only [HdlcdServerHandler.session, Prod.mk.injEq] at hsame
    rw [hsame.1, hsame.2.1]
  rebuild {s _} h := by
    have hserved := rebuildSubscriptions_served s
    have hps : s.rebuildSubscriptions.protocolState = s.protocolState := congrArg (·.2.1) hserved.same
    exact h.of_handlers (h.enrolled.served hserved) (rebuildSubscriptions_handlers s) (by rw [hps])
  inward {e} he := by
    intro s o h
    refine callProtocolState_informed h (isAlive_handle ⟨?_, ?_, ?_⟩ ?_)
    all_goals
      rintro rfl
      exact he.elim

theorem initLockGuard_informed (hs : Enrolled s) (h : Informed s ∨ (s.handlers c).isSome) :
    Informed (initLockGuard c s).1 := by
  unfold initLockGuard
  split
  · rename_i hnone
    rw [hnone] at h
    exact h.resolve_right Bool.false_ne_true
  · exact hs.informed

theorem attach_informed (c : ClientId) (sap : UInt8) (opens : OpenResult) :
    Maintains StaysInformed (attach c sap opens) := by
  intro s o hs
  unfold wp attach
  split
  · exact hs
  · rename_i h _
    by_cases hcond : (s.registered && s.calls.isEmpty && !s.connections.contains c) = true
    · rw [if_pos hcond]
      simp only [Bool.and_eq_true, Bool.not_eq_true', List.contains_eq_mem, decide_eq_false_iff_not] at hcond
      have hadded := hs.enrolled.withHandler hcond.2 h
      have htold : Enrolled (addHdlcdServerHandler c h s).1 :=
        ((propagateSerialPortState_simulates.branch .skip) _ hadded).enrolled
      have hsome : ((addHdlcdServerHandler c h s).1.handlers c).isSome := by
        have hthere : ((withHandler c h s).handlers c).isSome := by simp [withHandler]
        refine (show Maintains (fun (t : Port) (_ : List Output) => (t.handlers c).isSome)
          (branch (·.protocolState.started) propagateSerialPortState skip) from
            Maintains.branch (fun t _ ht => ?_) .skip) _ [] hthere
        exact ((propagateSerialPortState_served t).isSome c).trans ht
      show Informed (initLockGuard c ((if s.connections.isEmpty = true then openSerialPort opens else skip)
        (addHdlcdServerHandler c h s).1).1).1
      split_ifs
      · have hopened := openSerialPort_informed opens htold
        exact initLockGuard_informed hopened.enrolled (.inl hopened)
      · exact initLockGuard_informed htold (.inr hsome)
    · rw [if_neg hcond]
      exact hs

theorem disconnect_informed (c : ClientId) (opens : OpenResult) : Maintains StaysInformed (disconnect c opens) := by
  intro s o hs
  unfold wp disconnect
  split
  · exact hs
  · rename_i h _
    by_cases hidle : s.calls.isEmpty = true
    · rw [if_pos hidle]
      have herased : Informed (eraseHandler c s) := by
        refine ⟨(eraseHandler_simulates c s hs.enrolled).enrolled, fun d hd hold => hs.told d hd ?_⟩
        unfold eraseHandler at hold
        dsimp only at hold
        split_ifs at hold
        exact hold
      exact (((resumeSerialPort_informed opens).ite (p := h.lockGuard.lockedBySelf = true) .skip).andThen
        (stop_informed.branch .skip)) _ o herased
    · rw [if_neg hidle]
      exact hs

/-- A state timeout ends no re-probing while a client is there to be told. -/
def Tells (s : Port) (e : Event) : Prop :=
  e = .timer .stateTimerHandler → s.calls = [] → s.protocolState.aliveState.Lapses →
    ∀ c, s.handlers c = none

theorem timer_informed {x : TimerEvent} (hs : Informed s) (ht : Tells s (.timer x)) :
    (step (.timer x)).wp StaysInformed s o := by
  refine wp_branch (fun hidle => ?_) fun _ => hs
  by_cases hlapses : x = .stateTimerHandler ∧ s.protocolState.aliveState.Lapses
  · obtain ⟨rfl, hlapses⟩ := hlapses
    have hnobody := ht rfl (List.isEmpty_iff.mp hidle) hlapses
    refine .of_nobody (callProtocolState_enrolled hs.enrolled (.internal .stateTimerHandler)) fun c => ?_
    have hserved := (callProtocolState_done (handleLocal .stateTimerHandler) s).served
    have hsome := hserved.isSome c
    dsimp only at hsome
    rw [hnobody c] at hsome
    exact Option.isNone_iff_eq_none.mp (Option.isSome_eq_false_iff.mp hsome)
  · refine callProtocolState_informed (e := .internal x.localEvent) hs (isAlive_handle ⟨?_, ?_, ?_⟩ ?_)
    · cases x <;> simp [TimerEvent.localEvent]
    · cases x <;> simp [TimerEvent.localEvent]
    · cases x <;> simp [TimerEvent.localEvent]
    · intro hx hl
      refine hlapses ⟨?_, hl⟩
      cases x with
      | stateTimerHandler => rfl
      | _ => simp [TimerEvent.localEvent] at hx

theorem step_informed {e : Event} (hs : Informed s) (he : Tells s e) : (step e).wp StaysInformed s o := by
  have hset (c : ClientId) (lockedBySelf : Bool) :
      Maintains StaysInformed (update (modifyHandler c (setLockedBySelf lockedBySelf))) :=
    .update fun _ _ h => h.modify c fun _ => rfl
  refine informed_attentive.step stop_informed (fun c sap => attach_informed c sap _)
    (fun c => disconnect_informed c _) (fun {s o c h} _ hs => ?_) (fun {s o c h} _ hs => ?_) hs
    (fun x hx => timer_informed hs (hx ▸ he)) fun _ offset bytes calls _ => ?_
  · exact (Maintains.skip.ite ((hset c true).andThen suspendSerialPort_informed)) s o hs
  · exact (((hset c false).andThen (resumeSerialPort_informed _)).ite .skip) s o hs
  · refine informed_attentive.addChunk (fun buffer messageInvalid s _ h => ?_) offset (bytes + 1) _ _
      (informed_attentive.members (o := o) hs rfl)
    exact callProtocolState_informed h (isAlive_handle ⟨by simp, by simp, by simp⟩ (by simp))

theorem Informed.initial : Informed initial := .of_nobody .initial fun _ => rfl

theorem not_informed {e : Event} (hs : Informed s) (he : ¬ Tells s e) : ¬ Informed (step e s).1 := by
  unfold Tells at he
  push Not at he
  obtain ⟨rfl, hidle, hlapses, c, hc⟩ := he
  obtain ⟨h, hh⟩ := Option.ne_none_iff_exists'.mp hc
  obtain ⟨halive, hdead, hsilent⟩ := handle_lapses hlapses
  have hstep : step (.timer .stateTimerHandler) s =
      ({ s with protocolState := (handle (.internal .stateTimerHandler) s.protocolState).1 }, []) := by
    have hcalled : callProtocolState (handle (.internal .stateTimerHandler)) s =
        run effect (handle (.internal .stateTimerHandler) s.protocolState).2
          { s with protocolState := (handle (.internal .stateTimerHandler) s.protocolState).1 } := rfl
    rw [hsilent] at hcalled
    exact (if_pos (List.isEmpty_iff.mpr hidle)).trans hcalled
  intro hafter
  rw [hstep] at hafter
  have hold := (hs.told c h hh).2
  have hnew := (hafter.told c h hh).2
  dsimp only at hnew
  rw [hdead, hold, halive] at hnew
  exact Bool.noConfusion hnew

/-- The client was told the alive state of the port last. -/
def LastToldAlive (c : ClientId) (r : Port × List Output) : Prop :=
  ∃ others self, (statuses c r.2).getLast? = some (r.1.protocolState.aliveState.isAlive, others, self)

theorem informed_iff (es : List Event) : Informed (run step es initial).1 ↔
    ∀ c h, (run step es initial).1.handlers c = some h → LastToldAlive c (run step es initial) := by
  have htold := run_told es
  have hreport (h : HdlcdServerHandler) (alive : Bool) :
      (∃ others self, h.report = some (alive, others, self)) ↔
        h.deliverInitialState = false ∧ h.aliveGuard.alive = alive := by
    unfold HdlcdServerHandler.report
    cases h.deliverInitialState <;> simp
  constructor
  · intro h c hh hc
    unfold LastToldAlive
    rw [htold.told c hh hc]
    exact (hreport _ _).mpr (h.told c hh hc)
  · intro h
    refine ⟨htold.enrolled, fun c hh hc => (hreport _ _).mp ?_⟩
    rw [← htold.told c hh hc]
    exact h c hh hc

/-- In a run, every attached client was told the current alive state after every event,
exactly if no state timeout ended a re-probing while a client was attached. -/
theorem told_alive_iff (es : List Event) :
    (∀ pre, pre <+: es → ∀ c h, (run step pre initial).1.handlers c = some h →
      LastToldAlive c (run step pre initial)) ↔ Along step Tells initial es := by
  have hreached : (∀ pre, pre <+: es → Informed (run step pre initial).1) ↔ Along step Tells initial es :=
    reached_iff_along step (fun s e he hs => step_informed (o := []) hs he) (fun _ h => h)
      (fun s e he hs => not_informed hs he) .initial
  rw [← hreached]
  exact forall_congr' fun pre => forall_congr' fun _ => (informed_iff pre).symm

/-- The device answers the first probe and no other: the state timer expires three times. -/
def deviceLost : List Event :=
  firstRound ++ (List.replicate 3 [.timer .stateTimerExpires, .timer .stateTimerHandler]).flatten

theorem deviceLost_not_told : ¬ ∀ c h, (run step deviceLost initial).1.handlers c = some h →
    LastToldAlive c (run step deviceLost initial) := by
  intro htold
  have hattached : ((run step deviceLost initial).1.handlers 0).isSome = true := by decide +kernel
  have hlost : (run step deviceLost initial).1.protocolState.aliveState.isAlive = false ∧
      (statuses 0 (run step deviceLost initial).2).getLast? = some (true, false, false) := by decide +kernel
  obtain ⟨h, hh⟩ := Option.isSome_iff_exists.mp hattached
  obtain ⟨others, self, hlast⟩ := htold 0 h hh
  rw [hlost.1, hlost.2] at hlast
  simp at hlast

end
end Port
end Hdlcd
