import Hdlcd.Port.Ended

/-! Clients that come and go: nobody comes but by its session header, nobody is lost but by its
own end or a call of its `Stop`, and neither a control packet nor the end of a client starts a
call. -/

namespace Hdlcd.Port
open Reactive Action ProtocolState

/-- Every event but a new client maintains an assertion that the locks do not concern, if it
survives the client that leaves and received frames. -/
theorem Lockless.inside {Q : Assertion Port Output} (hQ : Lockless Q)
    (hframe : ∀ buffer messageInvalid, Maintains Q (callProtocolState (handle (.frame buffer messageInvalid))))
    {e : Event} (he : ∀ c sap opens, e ≠ .attach c sap opens)
    (herase : ∀ c opens, e = .disconnect c opens → Maintains Q (Action.update (eraseHandler c))) :
    Maintains Q (Port.step e) := by
  have hstop := hQ.stop
  cases e with
  | attach c sap opens => exact absurd rfl (he c sap opens)
  | disconnect c opens => exact hQ.disconnect (herase c opens rfl) opens
  | receive c packet opens =>
    exact hQ.toAttentive.receive hstop (fun _ hs => hQ.acquireLock _ _ _ _ hs)
      (fun _ hs => hQ.releaseLock _ _ _ _ _ hs) c packet
  | endReceiving c => exact Maintains.branch (hQ.update fun _ => rfl) .skip
  | proceed =>
    intro s o hs
    exact hQ.toAttentive.proceed hs fun offset bytes calls _ =>
      hQ.toAttentive.addChunk hframe offset (bytes + 1) _ _ (hQ.control hs rfl)
  | timer x => exact (hQ.internal x.localEvent).branch .skip
  | readCompletes i completion =>
    have hfilled : Maintains Q (Action.update (fillReadBuffer completion.bytes)) := hQ.update fun _ => rfl
    have hcompleted : Maintains Q (readCompletes i completion) :=
      (hfilled.branch .skip).andThen (hQ.update fun _ => rfl)
    exact hcompleted.ite .skip
  | readHandler i => exact (hQ.toAttentive.readHandler hstop i).branch .skip
  | writeCompletes i result => exact Maintains.branch (hQ.update fun _ => rfl) .skip
  | writeHandler i => exact (hQ.toAttentive.writeHandler hstop i).branch .skip

section
variable {s t : Port} {o : List Output} {c d : ClientId} {there : Bool} {connections : List ClientId}

/-- The client is attached if it was there, unless it was stopped, and the port knows so many
clients. -/
structure Tracked (c : ClientId) (there : Bool) (connections : List ClientId) (s : Port) (o : List Output) : Prop where
  enrolled : Enrolled s
  attached : (s.handlers c).isSome = true ↔ there = true ∧ .stopClient c ∉ o
  stopped : .stopClient c ∈ o → there = true
  connections : s.connections = connections

theorem Tracked.of_same (h : Tracked c there connections s o) (ht : Enrolled t)
    (hsome : (t.handlers c).isSome = (s.handlers c).isSome) (hconnections : t.connections = s.connections) :
    Tracked c there connections t o :=
  ⟨ht, hsome.symm ▸ h.attached, h.stopped, hconnections.trans h.connections⟩

theorem Tracked.served (h : Tracked c there connections s o) (hst : Served s t) : Tracked c there connections t o :=
  h.of_same (h.enrolled.served hst) (hst.isSome c) (congrArg (·.2.2.2.2.1) hst.same)

theorem Tracked.quiet (h : Tracked c there connections s o) {xs : List Output} (hxs : .stopClient c ∉ xs) :
    Tracked c there connections s (o ++ xs) := by
  have hsame : .stopClient c ∈ o ++ xs ↔ .stopClient c ∈ o := by
    rw [List.mem_append, or_iff_left hxs]
  refine ⟨h.enrolled, ?_, fun hmem => h.stopped (hsame.mp hmem), h.connections⟩
  rw [hsame]
  exact h.attached

theorem Tracked.stopClients (h : Tracked c there connections s o) :
    Tracked c there connections (stopClients s).1 (o ++ (stopClients s).2) := by
  have hrebuilt := h.served (rebuildSubscriptions_served s)
  have hleft : Enrolled (Port.stopClients s).1 := by
    have hgone := hrebuilt.enrolled.leave fun d => decide (d ∈ s.live)
    rw [rebuildSubscriptions_handlers] at hgone
    simp only [decide_eq_true_eq] at hgone
    exact hgone
  have hstopped : .stopClient c ∈ (Port.stopClients s).2 ↔ (s.handlers c).isSome = true := by
    rw [← h.enrolled.mem_live]
    simp [Port.stopClients]
  have hnobody := h.enrolled.stopClients_nobody c
  refine ⟨hleft, ?_, fun hmem => ?_, hrebuilt.connections⟩
  · rw [hnobody, List.mem_append, hstopped, h.attached]
    simp only [Option.isSome_none, Bool.false_eq_true, false_iff]
    tauto
  · rcases List.mem_append.mp hmem with hmem | hmem
    · exact h.stopped hmem
    · exact (h.attached.mp (hstopped.mp hmem)).1

theorem tracked_indifferent (c : ClientId) (there : Bool) (connections : List ClientId) :
    Indifferent (Tracked c there connections) where
  consistent h := h.enrolled.consistent
  members {s t _} h hps hsame := by
    simp only [lockMembers, Prod.mk.injEq] at hsame
    obtain ⟨_, _, _, hhandlers, hlist, hconnections, _⟩ := hsame
    refine h.of_same (h.enrolled.of_members hps ?_) (by rw [hhandlers]) hconnections
    unfold clientMembers
    rw [hhandlers, hlist, hconnections]
  aside h hxs := h.quiet fun hmem => hxs _ hmem
  modify d hf h := h.of_same (h.enrolled.modifyHandler d _) (modifyHandler_isSome d _ _ c) rfl
  rebuild h := h.served (rebuildSubscriptions_served _)
  propagate s o h := by
    refine (h.served (propagateSerialPortState_served s)).quiet fun hmem => ?_
    obtain ⟨_, _, _, _, hstatus⟩ := propagateSerialPortState_outputs hmem
    exact Output.noConfusion hstatus
  control {s t _} h hps hsame := by
    have hhandlers : t.handlers = s.handlers := congrArg (·.1) hsame
    exact h.of_same (h.enrolled.of_members hps hsame) (by rw [hhandlers]) (congrArg (·.2.2) hsame)
  stopClients _ _ h := h.stopClients
  hold d _ h := h.of_same (h.enrolled.modifyHandler d _) (modifyHandler_isSome d _ _ c) rfl

theorem Tracked.begin (hs : Enrolled s) (c : ClientId) :
    Tracked c (s.handlers c).isSome s.connections s [] where
  enrolled := hs
  attached := by rw [and_iff_left List.not_mem_nil]
  stopped hmem := absurd hmem List.not_mem_nil
  connections := rfl

theorem attach_tracked {sap : UInt8} {h : HdlcdServerHandler} (hsap : HdlcdServerHandler.onFrame sap = some h)
    (hcond : (s.registered && s.calls.isEmpty && !s.connections.contains d) = true) (hs : Enrolled s)
    (opens : OpenResult) : Tracked c (decide (c = d) || (s.handlers c).isSome) (s.connections ++ [d])
      (attach d sap opens s).1 (attach d sap opens s).2 := by
  have htracked := tracked_indifferent c (decide (c = d) || (s.handlers c).isSome) (s.connections ++ [d])
  have hnew : d ∉ s.connections := fun hmem => by
    simp [hmem] at hcond
  have hadded : Tracked c (decide (c = d) || (s.handlers c).isSome) (s.connections ++ [d]) (withHandler d h s) [] := by
    refine ⟨hs.withHandler hnew h, ?_, fun hmem => absurd hmem List.not_mem_nil, rfl⟩
    rw [and_iff_left List.not_mem_nil]
    show (if c = d then some h else s.handlers c).isSome = true ↔ _
    by_cases hcd : c = d <;> simp [hcd]
  exact attach_added htracked.propagate (fun hs => hs.quiet (by simp)) htracked.lockless.openSerialPort hsap hcond
    hadded opens

theorem disconnect_tracked (hs : Enrolled s) (hidle : s.calls.isEmpty = true) (hc : (s.handlers c).isSome)
    (opens : OpenResult) : Tracked c false s.connections (disconnect c opens s).1 (disconnect c opens s).2 := by
  have htracked := tracked_indifferent c false s.connections
  obtain ⟨h, hc⟩ := Option.isSome_iff_exists.mp hc
  have herased : Tracked c false s.connections (eraseHandler c s) [] := by
    have hleft := hs.leave fun d => decide (d = c)
    simp only [decide_eq_true_eq] at hleft
    refine ⟨hleft, ?_, fun hmem => absurd hmem List.not_mem_nil, rfl⟩
    rw [show (eraseHandler c s).handlers c = none from if_pos rfl]
    simp
  have hleaves : disconnect c opens s = ((if h.lockGuard.lockedBySelf then resumeSerialPort opens else skip).andThen
      (branch (fun s => s.live.isEmpty) stop skip)) (eraseHandler c s) := by
    unfold disconnect
    rw [hc]
    exact if_pos hidle
  rw [hleaves]
  exact (((htracked.lockless.resumeSerialPort opens).ite (p := h.lockGuard.lockedBySelf = true) .skip).andThen
    (htracked.lockless.stop.branch .skip)) (eraseHandler c s) ([] : List Output) herased

theorem step_tracked (hs : Enrolled s) (c : ClientId) {e : Event} (he : ∀ d sap opens, e ≠ .attach d sap opens)
    (hgone : ∀ opens, e ≠ .disconnect c opens) :
    Tracked c (s.handlers c).isSome s.connections (step e s).1 (step e s).2 := by
  have htracked := tracked_indifferent c (s.handlers c).isSome s.connections
  refine htracked.lockless.inside (fun buffer messageInvalid s o hs => ?_) he (fun d opens hd => ?_) s []
    (.begin hs c)
  · exact htracked.callProtocolState_of (htracked.control hs ((htracked.consistent hs).handle _) rfl)
  · refine .update fun s o hs => ?_
    have hleft := hs.enrolled.leave fun x => decide (x = d)
    simp only [decide_eq_true_eq] at hleft
    refine hs.of_same hleft ?_ rfl
    have hne : c ≠ d := fun hcd => hgone opens (hcd ▸ hd)
    exact congrArg Option.isSome (if_neg hne)

theorem attach_refused {sap : UInt8} (hrefused : ∀ h, HdlcdServerHandler.onFrame sap = some h →
    ¬ (s.registered && s.calls.isEmpty && !s.connections.contains d) = true) (opens : OpenResult) :
    attach d sap opens s = (s, []) := by
  unfold attach
  split
  · rfl
  · exact if_neg (hrefused _ ‹_›)

/-- What an event may do to the client. -/
structure Follows (c : ClientId) (e : Event) (there : Bool) (connections : List ClientId) (s : Port) : Prop where
  brought : there = true → (s.handlers c).isSome ∨ ∃ sap opens, e = .attach c sap opens
  kept : (s.handlers c).isSome → (∀ opens, e ≠ .disconnect c opens) → there = true
  known : c ∈ connections → c ∈ s.connections ∨ ∃ sap opens, e = .attach c sap opens

theorem Follows.same (c : ClientId) (e : Event) (s : Port) : Follows c e (s.handlers c).isSome s.connections s :=
  ⟨.inl, fun hc _ => hc, .inl⟩

theorem step_follows (hs : Enrolled s) (c : ClientId) (e : Event) : ∃ there connections,
    Tracked c there connections (step e s).1 (step e s).2 ∧ Follows c e there connections s := by
  have hnothing (h : step e s = (s, [])) : ∃ there connections,
      Tracked c there connections (step e s).1 (step e s).2 ∧ Follows c e there connections s := by
    rw [h]
    exact ⟨_, _, .begin hs c, .same c e s⟩
  by_cases hother : (∀ d sap opens, e ≠ .attach d sap opens) ∧ ∀ opens, e ≠ .disconnect c opens
  · exact ⟨_, _, step_tracked hs c hother.1 hother.2, .same c e s⟩
  · cases e with
    | attach d sap opens =>
      by_cases hcond : (s.registered && s.calls.isEmpty && !s.connections.contains d) = true
      · cases hsap : HdlcdServerHandler.onFrame sap with
        | none =>
          exact hnothing
            (attach_refused (fun h hh => absurd (hsap.symm.trans hh) (Option.some_ne_none h).symm) opens)
        | some h =>
          refine ⟨_, _, attach_tracked hsap hcond hs opens, fun hthere => ?_, fun hc _ => by rw [hc, Bool.or_true],
            fun hmem => ?_⟩
          · rcases Bool.or_eq_true _ _ |>.mp hthere with hcd | hc
            · exact .inr ⟨sap, opens, by rw [of_decide_eq_true hcd]⟩
            · exact .inl hc
          · rcases List.mem_append.mp hmem with hmem | hmem
            · exact .inl hmem
            · exact .inr ⟨sap, opens, by rw [List.mem_singleton.mp hmem]⟩
      · exact hnothing (attach_refused (fun _ _ => hcond) opens)
    | disconnect d opens =>
      have hcd : d = c := by
        by_contra hne
        exact hother ⟨by simp, fun opens' hd => hne (Event.disconnect.inj hd).1⟩
      subst hcd
      by_cases hleaves : s.calls.isEmpty = true ∧ (s.handlers d).isSome = true
      · refine ⟨_, _, disconnect_tracked hs hleaves.1 hleaves.2 opens, fun hthere => ?_, fun _ hstays => ?_, .inl⟩
        · exact absurd hthere Bool.false_ne_true
        · exact absurd rfl (hstays opens)
      · refine hnothing ?_
        show disconnect d opens s = (s, [])
        unfold disconnect
        split
        · rfl
        · rename_i h hc
          exact if_neg fun hidle => hleaves ⟨hidle, Option.isSome_of_eq_some hc⟩
    | _ => exact absurd ⟨by simp, by simp⟩ hother

theorem step_stopped (hs : Enrolled s) {e : Event} (hstop : .stopClient c ∈ (step e s).2) :
    ((s.handlers c).isSome ∨ ∃ sap opens, e = .attach c sap opens) ∧ ¬ ((step e s).1.handlers c).isSome := by
  obtain ⟨there, connections, htracked, hfollows⟩ := step_follows hs c e
  exact ⟨hfollows.brought (htracked.stopped hstop), fun hc => (htracked.attached.mp hc).2 hstop⟩

theorem step_before (hs : Enrolled s) {e : Event} (hc : ((step e s).1.handlers c).isSome) :
    (s.handlers c).isSome ∨ ∃ sap opens, e = .attach c sap opens := by
  obtain ⟨there, connections, htracked, hfollows⟩ := step_follows hs c e
  exact hfollows.brought (htracked.attached.mp hc).1

theorem step_stays (hs : Enrolled s) (hc : (s.handlers c).isSome) {e : Event} (he : ∀ opens, e ≠ .disconnect c opens) :
    ((step e s).1.handlers c).isSome ∨ .stopClient c ∈ (step e s).2 := by
  obtain ⟨there, connections, htracked, hfollows⟩ := step_follows hs c e
  by_cases hstop : .stopClient c ∈ (step e s).2
  · exact .inr hstop
  · exact .inl (htracked.attached.mpr ⟨hfollows.kept hc he, hstop⟩)

theorem step_known (hs : Enrolled s) {e : Event} (hknown : c ∈ (step e s).1.connections) :
    c ∈ s.connections ∨ ∃ sap opens, e = .attach c sap opens := by
  obtain ⟨there, connections, htracked, hfollows⟩ := step_follows hs c e
  exact hfollows.known (htracked.connections ▸ hknown)

/-- No call has begun or returned, and no client has come. -/
structure Paused (calls : List Call) (connections : List ClientId) (s : Port) : Prop where
  consistent : Consistent s.protocolState
  calls : s.calls = calls
  connections : s.connections = connections

variable {calls : List Call}

theorem Paused.refl (hps : Consistent s.protocolState) : Paused s.calls s.connections s := ⟨hps, rfl, rfl⟩

theorem Paused.served {t : Port} (hs : Paused calls connections s) (h : Served s t) (hcalls : t.calls = s.calls) :
    Paused calls connections t := by
  have hsame := h.same
  simp only [servedMembers, Prod.mk.injEq] at hsame
  obtain ⟨_, hps, _, _, hconnections, _⟩ := hsame
  exact ⟨hps ▸ hs.consistent, hcalls.trans hs.calls, hconnections.trans hs.connections⟩

theorem Paused.control {e : LocalEvent} (he : e = .start ∨ e = .stop ∨ e = .shutdown) :
    Maintains (Always (Paused calls connections)) (callProtocolState (handle (.internal e))) := by
  intro s _ hs
  obtain ⟨hps, hcalls, hconnections⟩ : Paused calls connections s := hs
  have hdone := callProtocolState_done (handle (.internal e)) s
  have hasked := asked_dead hps (control_dead hps he)
  have hhandled : Paused calls connections { s with protocolState := (handle (.internal e) s.protocolState).1 } :=
    ⟨hps.handle (.internal e), hcalls, hconnections⟩
  refine hhandled.served hdone.served ?_
  rw [hdone.calls, queryCalls_eq, hasked]
  rfl

theorem Paused.propagate : Maintains (Always (Paused calls connections)) propagateSerialPortState := fun s _ hs =>
  Paused.served hs (propagateSerialPortState_served s) (rebuildSubscriptions_calls s)

theorem Paused.stopClients : Maintains (Always (Paused calls connections)) stopClients := by
  intro s _ hs
  have hpaused : Paused calls connections s := hs
  have hrebuilt := hpaused.served (rebuildSubscriptions_served s) (rebuildSubscriptions_calls s)
  exact ⟨hrebuilt.consistent, hrebuilt.calls, hrebuilt.connections⟩

theorem Paused.update (calls : List Call) (connections : List ClientId) {f : Port → Port}
    (hf : ∀ s, ((f s).protocolState, (f s).calls, (f s).connections) = (s.protocolState, s.calls, s.connections)) :
    Maintains (Always (Paused calls connections)) (Action.update f) := by
  refine .update fun s _ hs => ?_
  obtain ⟨hps, hcalls, hconnections⟩ : Paused calls connections s := hs
  have hsame := hf s
  simp only [Prod.mk.injEq] at hsame
  exact ⟨hsame.1.symm ▸ hps, hsame.2.1.trans hcalls, hsame.2.2.trans hconnections⟩

theorem Paused.dissolve : Maintains (Always (Paused calls connections)) dissolve :=
  (Paused.control (e := .shutdown) (by simp)).andThen Paused.stopClients

theorem Paused.unregister : Maintains (Always (Paused calls connections)) unregister :=
  Paused.update calls connections fun _ => rfl

theorem Paused.closeSerialPort : Maintains (Always (Paused calls connections)) closeSerialPort :=
  (Maintains.skip.branch (always_emit _)).andThen (Paused.update calls connections fun _ => rfl)

theorem Paused.stop : Maintains (Always (Paused calls connections)) stop :=
  (always_emit _).andThen
    ((Paused.unregister.andThen (Paused.closeSerialPort.andThen Paused.dissolve)).branch .skip)

theorem Paused.openSerialPort (opens : OpenResult) :
    Maintains (Always (Paused calls connections)) (openSerialPort opens) := by
  have hopened : Maintains (Always (Paused calls connections)) openPort :=
    Paused.update calls connections fun _ => rfl
  have hread : Maintains (Always (Paused calls connections)) doRead :=
    (always_emit _).andThen (Paused.update calls connections fun _ => rfl)
  cases opens with
  | opened =>
    exact hopened.andThen ((Paused.control (e := .start) (by simp)).andThen (hread.andThen Paused.propagate))
  | failed => exact Paused.unregister.andThen Paused.dissolve
  | notConfigured => exact hopened.andThen (Paused.unregister.andThen Paused.dissolve)

theorem Paused.suspendSerialPort : Maintains (Always (Paused calls connections)) suspendSerialPort := by
  refine Maintains.branch (fun s o hs => ?_) .skip
  have hlocked := Paused.update calls connections
    (f := fun t => { t with serialPortLock := s.serialPortLock.suspendSerialPort.1 }) fun _ => rfl
  have hsuspended := (always_emit (I := Paused calls connections) [Output.suspended]).andThen
    ((Paused.control (e := .stop) (by simp)).andThen Paused.closeSerialPort)
  exact (hlocked.andThen ((hsuspended.ite (p := s.serialPortLock.suspendSerialPort.2 = true) .skip).andThen
    Paused.propagate)) s o hs

theorem Paused.resumeSerialPort (opens : OpenResult) :
    Maintains (Always (Paused calls connections)) (resumeSerialPort opens) := by
  refine Maintains.branch (fun s o hs => ?_) .skip
  have hunlocked := Paused.update calls connections
    (f := fun t => { t with serialPortLock := s.serialPortLock.resumeSerialPort.1 }) fun _ => rfl
  exact (hunlocked.andThen (((always_emit [Output.resumed]).andThen (Paused.openSerialPort opens)).ite
    (p := s.serialPortLock.resumeSerialPort.2 = true) Paused.propagate)) s o hs

theorem Paused.onCtrlReceived (c : ClientId) (h : HdlcdServerHandler) (opens : OpenResult) (packet : Packet) :
    Maintains (Always (Paused calls connections)) (onCtrlReceived c h opens packet) := by
  have hmodify (f : HdlcdServerHandler → HdlcdServerHandler) :=
    Paused.update calls connections (f := modifyHandler c f) fun _ => rfl
  cases packet with
  | portStatus locked =>
    cases locked with
    | true => exact Maintains.skip.ite ((hmodify _).andThen Paused.suspendSerialPort)
    | false => exact ((hmodify _).andThen (Paused.resumeSerialPort opens)).ite .skip
  | echo => exact always_emit _
  | portKill => exact Paused.stop
  | keepAlive | data => exact .skip

theorem disconnect_paused (hps : Consistent s.protocolState) (hidle : s.calls = []) (c : ClientId)
    (opens : OpenResult) :
    (disconnect c opens s).1.calls = [] := by
  unfold disconnect
  split
  · exact hidle
  · rename_i h _
    rw [hidle, List.isEmpty_nil, if_pos rfl]
    have herased : Paused [] s.connections (eraseHandler c s) := ⟨hps, hidle, rfl⟩
    have hleft : Maintains (Always (Paused [] s.connections))
        ((if h.lockGuard.lockedBySelf then resumeSerialPort opens else skip).andThen
          (branch (fun s => s.live.isEmpty) stop skip)) :=
      ((Paused.resumeSerialPort opens).ite .skip).andThen (Paused.stop.branch .skip)
    exact Paused.calls (hleft (eraseHandler c s) ([] : List Output) herased)

end
end Hdlcd.Port
