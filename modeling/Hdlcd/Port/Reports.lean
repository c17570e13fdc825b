import Mathlib.Data.List.Chain
import Hdlcd.Port.Calm

/-! The port status packets of a client: each one tells something new, and the last one is
what the guards of the client remember. -/

namespace Hdlcd

def HdlcdServerHandler.report (h : HdlcdServerHandler) : Option (Bool × Bool × Bool) :=
  if h.deliverInitialState then none
  else some (h.aliveGuard.alive, h.lockGuard.lastLockedByOthers, h.lockGuard.lastLockedBySelf)

theorem HdlcdServerHandler.updateSerialPortState_report (alive : Bool) (lockHolders : Nat)
    (h : HdlcdServerHandler) :
    (h.updateSerialPortState alive lockHolders).1.report =
        some ((h.updateSerialPortState alive lockHolders).1.aliveGuard.alive,
          (h.updateSerialPortState alive lockHolders).1.lockGuard.lockedByOthers,
          (h.updateSerialPortState alive lockHolders).1.lockGuard.lockedBySelf) ∧
      ((h.updateSerialPortState alive lockHolders).2 = true ↔
        h.report ≠ (h.updateSerialPortState alive lockHolders).1.report) := by
  have hlock := h.lockGuard.updated lockHolders
  have hlast : (h.updateSerialPortState alive lockHolders).1.report =
      some (alive, (h.lockGuard.updateSerialPortState lockHolders).1.lastLockedByOthers,
        (h.lockGuard.updateSerialPortState lockHolders).1.lastLockedBySelf) := rfl
  refine ⟨?_, ?_⟩
  · rw [hlast, hlock.lastOthers, hlock.lastSelf, ← hlock.self]
    rfl
  · rw [hlast]
    unfold report updateSerialPortState AliveGuard.updateSerialPortState
    dsimp only
    cases h.deliverInitialState with
    | true => simp
    | false =>
      have hchanged := hlock.changed
      rw [Ne, Prod.mk.injEq] at hchanged
      simp only [Bool.false_or, Bool.or_eq_true, bne_iff_ne, ne_eq, hchanged, Bool.false_eq_true, if_false,
        Option.some.injEq, Prod.mk.injEq]
      exact not_and_or.symm

namespace Port
open Reactive Action ProtocolState

/-- The port status packets that the client was sent. -/
def statuses (c : ClientId) (o : List Output) : List (Bool × Bool × Bool) :=
  o.filterMap fun
    | .portStatus d alive others self => if d = c then some (alive, others, self) else none
    | _ => none

structure Told (s : Port) (o : List Output) : Prop where
  enrolled : Enrolled s
  told : ∀ c h, s.handlers c = some h → (statuses c o).getLast? = h.report
  chain : ∀ c, (statuses c o).IsChain (· ≠ ·)
  fresh : ∀ c ∉ s.connections, statuses c o = []

section
variable {s t : Port} {o : List Output} {c : ClientId}

theorem statuses_append (c : ClientId) (o o' : List Output) :
    statuses c (o ++ o') = statuses c o ++ statuses c o' := List.filterMap_append

theorem statuses_aside {xs : List Output} (hxs : ∀ y ∈ xs, y.Aside) (c : ClientId) : statuses c xs = [] := by
  refine List.filterMap_eq_nil_iff.mpr fun y hy => ?_
  have haside := hxs y hy
  cases y with
  | portStatus => exact haside.elim
  | _ => rfl

theorem statuses_stopped {xs : List Output} (hxs : ∀ y ∈ xs, ∃ c, y = .stopClient c) (c : ClientId) :
    statuses c xs = [] := by
  refine List.filterMap_eq_nil_iff.mpr fun y hy => ?_
  obtain ⟨d, rfl⟩ := hxs y hy
  rfl

def statusOf (s : Port) (c : ClientId) (h : HdlcdServerHandler) : List Output :=
  let updated := h.updateSerialPortState s.protocolState.aliveState.isAlive s.serialPortLock.getLockHolders
  if updated.2 then
    [.portStatus c updated.1.aliveGuard.alive updated.1.lockGuard.lockedByOthers
      updated.1.lockGuard.lockedBySelf]
  else []

theorem propagateSerialPortState_handlers (s : Port) (c : ClientId) :
    (propagateSerialPortState s).1.handlers c =
      if c ∈ s.live then (s.handlers c).map fun h =>
        (h.updateSerialPortState s.protocolState.aliveState.isAlive s.serialPortLock.getLockHolders).1
      else s.handlers c := rfl

theorem statuses_statusOf_ne {d : ClientId} (hd : d ≠ c) (s : Port) (h : HdlcdServerHandler) :
    statuses c (s.statusOf d h) = [] := by
  unfold statusOf
  dsimp only
  split_ifs
  · simp [statuses, hd]
  · rfl

theorem statuses_propagate (hs : Enrolled s) (c : ClientId) :
    statuses c (propagateSerialPortState s).2 = (s.handlers c).elim [] fun h => statuses c (s.statusOf c h) :=
  hs.forEach_filterMap fun _ h hd => statuses_statusOf_ne hd s h

theorem propagate_handler (hs : Enrolled s) {h : HdlcdServerHandler} (hc : s.handlers c = some h) :
    (propagateSerialPortState s).1.handlers c =
      some (h.updateSerialPortState s.protocolState.aliveState.isAlive s.serialPortLock.getLockHolders).1 := by
  rw [propagateSerialPortState_handlers, if_pos (hs.mem_live.mpr (Option.isSome_of_eq_some hc)), hc]
  rfl

theorem handler_of_propagate {h' : HdlcdServerHandler} (hs : Enrolled s)
    (hc : (propagateSerialPortState s).1.handlers c = some h') : ∃ h, s.handlers c = some h ∧
      h' = (h.updateSerialPortState s.protocolState.aliveState.isAlive s.serialPortLock.getLockHolders).1 := by
  cases hh : s.handlers c with
  | none =>
    have hnone := (propagateSerialPortState_served s).isSome c
    rw [hc, hh] at hnone
    exact Bool.noConfusion hnone
  | some h =>
    rw [propagate_handler hs hh] at hc
    exact ⟨h, rfl, (Option.some.inj hc).symm⟩

theorem Told.statusOf (h : Told s o) {hh : HdlcdServerHandler} (hc : s.handlers c = some hh) :
    (statuses c o ++ statuses c (s.statusOf c hh)).getLast? =
        (hh.updateSerialPortState s.protocolState.aliveState.isAlive s.serialPortLock.getLockHolders).1.report ∧
      (statuses c o ++ statuses c (s.statusOf c hh)).IsChain (· ≠ ·) := by
  obtain ⟨hreport, hsent⟩ := hh.updateSerialPortState_report s.protocolState.aliveState.isAlive
    s.serialPortLock.getLockHolders
  have hlast := h.told c hh hc
  unfold Port.statusOf
  dsimp only
  split_ifs with hupdated
  · have hstatus (a b d : Bool) : statuses c [.portStatus c a b d] = [(a, b, d)] := by simp [statuses]
    rw [hstatus, List.getLast?_concat]
    refine ⟨hreport.symm, List.isChain_append.mpr ⟨h.chain c, List.isChain_singleton _, ?_⟩⟩
    intro x hx y hy
    rw [hlast] at hx
    rw [List.head?_cons] at hy
    rintro rfl
    rw [hreport] at hsent
    exact hsent.mp hupdated (hx.trans hy.symm)
  · rw [show statuses c [] = [] from rfl, List.append_nil]
    refine ⟨hlast.trans ?_, h.chain c⟩
    by_contra hne
    exact hupdated (hsent.mpr hne)

theorem Told.propagate (h : Told s o) :
    Told (propagateSerialPortState s).1 (o ++ (propagateSerialPortState s).2) := by
  have hserved := propagateSerialPortState_served s
  have hsame := hserved.same
  simp only [servedMembers, Prod.mk.injEq] at hsame
  obtain ⟨_, _, _, _, hconnections, _⟩ := hsame
  refine ⟨h.enrolled.served hserved, fun c h' hc => ?_, fun c => ?_, fun c hc => ?_⟩
  · obtain ⟨hh, hold, rfl⟩ := handler_of_propagate h.enrolled hc
    rw [statuses_append, statuses_propagate h.enrolled, hold]
    exact (h.statusOf hold).1
  · rw [statuses_append, statuses_propagate h.enrolled]
    cases hold : s.handlers c with
    | none =>
      rw [Option.elim_none, List.append_nil]
      exact h.chain c
    | some hh => exact (h.statusOf hold).2
  · rw [hconnections] at hc
    have hgone : s.handlers c = none := by
      by_contra hsome
      exact hc (h.enrolled.known c (h.enrolled.listed c (Option.isSome_iff_ne_none.mpr hsome)))
    rw [statuses_append, statuses_propagate h.enrolled, hgone, Option.elim_none, List.append_nil]
    exact h.fresh c hc

theorem Enrolled.of_members (h : Enrolled s) (hps : Consistent t.protocolState)
    (hsame : clientMembers t = clientMembers s) : Enrolled t := by
  simp only [clientMembers, Prod.mk.injEq] at hsame
  obtain ⟨hhandlers, hlist, hconnections⟩ := hsame
  refine ⟨hps, ?_, ?_, ?_, ?_⟩
  · rw [hhandlers, hlist]
    exact h.listed
  · rw [hlist]
    exact h.nodup
  · rw [hlist, hconnections]
    exact h.known
  · rw [hconnections]
    exact h.distinct

theorem Told.of_members (h : Told s o) (hps : Consistent t.protocolState)
    (hsame : clientMembers t = clientMembers s) : Told t o := by
  refine ⟨h.enrolled.of_members hps hsame, ?_, h.chain, ?_⟩
  · rw [show t.handlers = s.handlers from congrArg (·.1) hsame]
    exact h.told
  · rw [show t.connections = s.connections from congrArg (·.2.2) hsame]
    exact h.fresh

theorem Told.modify (h : Told s o) {f : HdlcdServerHandler → HdlcdServerHandler}
    (hf : ∀ h, (f h).report = h.report) (c : ClientId) : Told (modifyHandler c f s) o := by
  refine ⟨h.enrolled.modifyHandler c f, fun d h' hd => ?_, h.chain, h.fresh⟩
  unfold modifyHandler at hd
  dsimp only at hd
  split_ifs at hd
  · obtain ⟨hh, hold, rfl⟩ := Option.map_eq_some_iff.mp hd
    rw [hf]
    exact h.told d hh hold
  · exact h.told d h' hd

theorem report_of_guards {h h' : HdlcdServerHandler} (hsame : h'.guards = h.guards) : h'.report = h.report := by
  simp only [HdlcdServerHandler.guards, Prod.mk.injEq] at hsame
  unfold HdlcdServerHandler.report
  rw [hsame.1, hsame.2.1, hsame.2.2]

theorem Told.quiet (h : Told s o) {xs : List Output} (hxs : ∀ c, statuses c xs = []) : Told s (o ++ xs) := by
  refine ⟨h.enrolled, fun c hh hc => ?_, fun c => ?_, fun c hc => ?_⟩
  all_goals rw [statuses_append, hxs, List.append_nil]
  · exact h.told c hh hc
  · exact h.chain c
  · exact h.fresh c hc

theorem Told.rebuild (h : Told s o) : Told s.rebuildSubscriptions o := by
  have hserved := rebuildSubscriptions_served s
  have hconnections : s.rebuildSubscriptions.connections = s.connections :=
    congrArg (·.2.2.2.2.1) hserved.same
  refine ⟨h.enrolled.served hserved, ?_, h.chain, ?_⟩
  · rw [rebuildSubscriptions_handlers]
    exact h.told
  · rw [hconnections]
    exact h.fresh

theorem Told.leave (h : Told s o) (gone : ClientId → Bool) :
    Told { s with handlers := fun c => if gone c then none else s.handlers c } o := by
  refine ⟨h.enrolled.leave gone, fun c hh hc => ?_, h.chain, h.fresh⟩
  dsimp only at hc
  split_ifs at hc
  exact h.told c hh hc

theorem told_indifferent : Indifferent Told where
  consistent h := h.enrolled.consistent
  members h hps hsame := by
    refine h.of_members hps ?_
    simp only [lockMembers, Prod.mk.injEq] at hsame
    obtain ⟨_, _, _, hhandlers, hlist, hconnections, _⟩ := hsame
    unfold clientMembers
    rw [hhandlers, hlist, hconnections]
  aside h hxs := h.quiet (statuses_aside hxs)
  modify c hf h := h.modify (fun hh => report_of_guards (hf hh)) c
  rebuild h := h.rebuild
  propagate _ _ h := h.propagate
  control h hps hsame := h.of_members hps hsame
  stopClients := stopClients_maintains (fun gone h => h.leave gone) (fun h => h.rebuild) fun h hxs =>
    h.quiet (statuses_stopped hxs)
  hold c lockedBySelf h := h.modify (f := setLockedBySelf lockedBySelf) (fun _ => rfl) c

theorem Told.withHandler (h : Told s o) (hnew : c ∉ s.connections) {sap : UInt8} {hh : HdlcdServerHandler}
    (hsap : HdlcdServerHandler.onFrame sap = some hh) : Told (withHandler c hh s) o := by
  have hinitial : hh.report = none := by
    unfold HdlcdServerHandler.onFrame at hsap
    split at hsap
    · exact absurd hsap (Option.some_ne_none hh).symm
    · split_ifs at hsap
      rw [← Option.some.inj hsap]
      rfl
  refine ⟨h.enrolled.withHandler hnew hh, fun d h' hd => ?_, h.chain, fun d hd => ?_⟩
  · unfold Port.withHandler at hd
    dsimp only at hd
    split_ifs at hd with hdc
    · rw [hdc, h.fresh c hnew, ← Option.some.inj hd, hinitial]
      rfl
    · exact h.told d h' hd
  · exact h.fresh d fun hmem => hd (List.mem_append_left _ hmem)

theorem told_attach (c : ClientId) (sap : UInt8) (opens : OpenResult) : Maintains Told (attach c sap opens) := by
  have hindifferent := told_indifferent
  refine attach_maintains hindifferent.propagate (fun {s o} hs => ?_) hindifferent.lockless.openSerialPort
    (fun hsap hnew hs => hs.withHandler hnew hsap) c sap opens
  exact hs.quiet fun _ => rfl

theorem Told.initial : Told initial [] where
  enrolled := .initial
  told _ _ hc := absurd hc (Option.some_ne_none _).symm
  chain _ := List.isChain_nil
  fresh _ _ := rfl

theorem run_told (es : List Event) : Told (run step es initial).1 (run step es initial).2 :=
  wp_run (fun e _ => told_indifferent.step told_attach (eraseHandler_maintains fun gone h => h.leave gone) e)
    (o := []) .initial

end
end Port
end Hdlcd
