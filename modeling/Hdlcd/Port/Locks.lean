import Mathlib.Data.List.Count
import Hdlcd.Port.Reports

/-! The locks of a port are counted right: the port is open unless a client holds a lock,
and every client knows whether it or another one does. -/

namespace Hdlcd.Port
open Reactive Action ProtocolState

/-- Whether the client has a lock guard that holds a lock. -/
def holds (s : Port) (c : ClientId) : Bool := (s.handlers c).any (·.lockGuard.lockedBySelf)

/-- The number of existing lock guards that hold a lock. -/
def nbrOfHolders (s : Port) : Nat := s.handlerList.countP s.holds

def Opened (s : Port) : Prop :=
  s.connections ≠ [] → (s.protocolState.started = true ↔ s.serialPortLock.nbrOfLocks = 0) ∧
    (s.serialPort.isOpen = true ↔ s.serialPortLock.nbrOfLocks = 0)

structure Balanced (s : Port) : Prop where
  counted : s.serialPortLock.nbrOfLocks = s.nbrOfHolders
  opened : s.Opened

/-- What the client was told about the locks is up to date. -/
structure Current (lockHolders : Nat) (h : HdlcdServerHandler) : Prop where
  initial : h.deliverInitialState = false
  others : h.lockGuard.lockedByOthers = LockGuard.others h.lockGuard.lockedBySelf lockHolders
  lastSelf : h.lockGuard.lastLockedBySelf = h.lockGuard.lockedBySelf
  lastOthers : h.lockGuard.lastLockedByOthers = h.lockGuard.lockedByOthers

/-- The locks are counted, but the clients are not told yet. -/
structure Settled (s : Port) (o : List Output) : Prop where
  enrolled : Enrolled s
  unfaulted : .fault .lockGuardInit ∉ o
  retired : s.registered = false → ∀ c, s.handlers c = none
  balanced : s.registered = true → Balanced s

structure Locked (s : Port) (o : List Output) : Prop extends Settled s o where
  current : ∀ c h, s.handlers c = some h → Current s.serialPortLock.nbrOfLocks h

section
variable {s t : Port} {o : List Output} {c : ClientId}

theorem countP_flip {f g : ClientId → Bool} {l : List ClientId} (hl : l.Nodup) (hc : c ∈ l)
    (hf : f c = false) (hg : g c = true) (hsame : ∀ x ≠ c, f x = g x) : l.countP g = l.countP f + 1 := by
  induction l with
  | nil => exact absurd hc List.not_mem_nil
  | cons x l ih =>
    obtain ⟨hx, hl⟩ := List.nodup_cons.mp hl
    by_cases hxc : x = c
    · subst hxc
      have hrest : l.countP g = l.countP f := by
        refine List.countP_congr fun y hy => ?_
        have hyx : y ≠ x := by
          rintro rfl
          exact hx hy
        rw [hsame y hyx]
      rw [List.countP_cons_of_pos hg, List.countP_cons_of_neg (by simp [hf]), hrest]
    · have htail := ih hl ((List.mem_cons.mp hc).resolve_left (Ne.symm hxc))
      rw [List.countP_cons, List.countP_cons, htail, hsame x hxc]
      exact Nat.add_right_comm ..

theorem holds_isSome (h : s.holds c = true) : (s.handlers c).isSome = true := by
  unfold holds at h
  cases hc : s.handlers c with
  | none =>
    rw [hc] at h
    exact Bool.noConfusion h
  | some => rfl

theorem countP_live (s : Port) : s.live.countP s.holds = s.nbrOfHolders := by
  unfold live nbrOfHolders
  rw [List.countP_filter]
  refine List.countP_congr fun c _ => ?_
  rw [Bool.and_eq_true]
  exact ⟨fun h => h.1, fun h => ⟨h, holds_isSome h⟩⟩

theorem Served.holds (h : Served s t) (c : ClientId) : t.holds c = s.holds c := by
  have hc := congrArg (Option.any (·.lockGuard.lockedBySelf)) (h.handlers c)
  rwa [Option.any_map, Option.any_map] at hc

theorem Served.nbrOfHolders (h : Served s t) : t.nbrOfHolders = s.nbrOfHolders := by
  have hholds : t.holds = s.holds := funext h.holds
  unfold Port.nbrOfHolders
  rw [hholds]
  rcases h.list with hlist | hlist
  · rw [hlist]
  · rw [hlist]
    exact countP_live s

def balance (s : Port) :=
  (s.serialPortLock.nbrOfLocks, s.nbrOfHolders, s.connections, s.protocolState.started, s.serialPort.isOpen)

theorem Opened.congr (h : Opened s) (hsame : t.balance = s.balance) : Opened t := by
  simp only [balance, Prod.mk.injEq] at hsame
  obtain ⟨hnbr, _, hconnections, hstarted, hopen⟩ := hsame
  unfold Opened
  rw [hnbr, hconnections, hstarted, hopen]
  exact h

theorem Balanced.congr (h : Balanced s) (hsame : t.balance = s.balance) : Balanced t := by
  refine ⟨?_, h.opened.congr hsame⟩
  simp only [balance, Prod.mk.injEq] at hsame
  rw [hsame.1, hsame.2.1]
  exact h.counted

theorem Served.balance (h : Served s t) : t.balance = s.balance := by
  have hsame := h.same
  simp only [servedMembers, Prod.mk.injEq] at hsame
  obtain ⟨_, hps, _, hlock, hconnections, hopen, _⟩ := hsame
  unfold Port.balance
  rw [h.nbrOfHolders, hps, hlock, hconnections, hopen]

theorem balance_of_members (hsame : lockMembers t = lockMembers s) : t.balance = s.balance := by
  simp only [lockMembers, Prod.mk.injEq] at hsame
  obtain ⟨_, hstarted, hlock, hhandlers, hlist, hconnections, hopen⟩ := hsame
  unfold balance nbrOfHolders holds
  rw [hstarted, hlock, hhandlers, hlist, hconnections, hopen]

theorem modifyHandler_holds (c : ClientId) (f : HdlcdServerHandler → HdlcdServerHandler) (d : ClientId) :
    (modifyHandler c f s).holds d =
      if d = c then (s.handlers d).any fun h => (f h).lockGuard.lockedBySelf else s.holds d := by
  unfold holds modifyHandler
  dsimp only
  split_ifs
  · exact Option.any_map ..
  · rfl

theorem modifyHandler_balance {f : HdlcdServerHandler → HdlcdServerHandler} (c : ClientId)
    (hf : ∀ h, (f h).guards = h.guards) : (modifyHandler c f s).balance = s.balance := by
  have hsame : (modifyHandler c f s).holds = s.holds := by
    funext d
    rw [modifyHandler_holds]
    split_ifs
    · unfold holds
      refine congrArg (fun p => Option.any p (s.handlers d)) (funext fun h => ?_)
      exact congrArg (·.2.2.lockedBySelf) (hf h)
    · rfl
  unfold balance nbrOfHolders
  rw [hsame]
  rfl

theorem updateSerialPortState_current (alive : Bool) (lockHolders : Nat) (h : HdlcdServerHandler) :
    Current lockHolders (h.updateSerialPortState alive lockHolders).1 := by
  have hlock := h.lockGuard.updated lockHolders
  refine ⟨rfl, ?_, hlock.lastSelf.trans hlock.self.symm, hlock.lastOthers⟩
  show (h.lockGuard.updateSerialPortState lockHolders).1.lockedByOthers =
    LockGuard.others (h.lockGuard.updateSerialPortState lockHolders).1.lockedBySelf lockHolders
  rw [hlock.others, hlock.self]

theorem unfaulted_indirect {xs : List Output} (ho : .fault .lockGuardInit ∉ o) (hxs : ∀ y ∈ xs, y.Indirect) :
    .fault .lockGuardInit ∉ o ++ xs := by
  intro hmem
  rcases List.mem_append.mp hmem with hold | hnew
  · exact ho hold
  · exact hxs _ hnew

theorem Served.gone (h : Served s t) (hnone : s.handlers c = none) : t.handlers c = none := by
  have hsome := h.isSome c
  rw [hnone] at hsome
  exact Option.isNone_iff_eq_none.mp (Option.isSome_eq_false_iff.mp hsome)

namespace Settled

theorem served (h : Settled s o) (hserved : Served s t) : Settled t o := by
  have hregistered : t.registered = s.registered := congrArg (·.1) hserved.same
  refine ⟨h.enrolled.served hserved, h.unfaulted, fun hret c => ?_, fun hreg => ?_⟩
  · exact hserved.gone (h.retired (hregistered ▸ hret) c)
  · exact (h.balanced (hregistered ▸ hreg)).congr hserved.balance

theorem propagate (h : Settled s o) : propagateSerialPortState.wp Locked s o := by
  have hdone := propagateSerialPortState_done s
  have hserved := h.served hdone.served
  have hlock : (propagateSerialPortState s).1.serialPortLock = s.serialPortLock :=
    congrArg (·.2.2.2.1) hdone.served.same
  refine ⟨⟨hserved.enrolled, unfaulted_indirect h.unfaulted hdone.outputs, hserved.retired,
    hserved.balanced⟩, fun c h' hc => ?_⟩
  obtain ⟨hh, _, rfl⟩ := handler_of_propagate h.enrolled hc
  rw [hlock]
  exact updateSerialPortState_current ..

end Settled

theorem locked_calm : Calm Locked where
  consistent h := h.enrolled.consistent
  members h hps hsame := by
    have hbalance := balance_of_members hsame
    simp only [lockMembers, Prod.mk.injEq] at hsame
    obtain ⟨hregistered, _, hlock, hhandlers, hlist, hconnections, _⟩ := hsame
    refine ⟨⟨h.enrolled.of_members hps ?_, h.unfaulted, ?_, fun hreg => ?_⟩, ?_⟩
    · unfold clientMembers
      rw [hhandlers, hlist, hconnections]
    · rw [hregistered, hhandlers]
      exact h.retired
    · exact (h.balanced (hregistered ▸ hreg)).congr hbalance
    · rw [hhandlers, hlock]
      exact h.current
  aside h hxs := by
    refine ⟨⟨h.enrolled, fun hmem => ?_, h.retired, h.balanced⟩, h.current⟩
    rcases List.mem_append.mp hmem with hold | hnew
    · exact h.unfaulted hold
    · exact hxs _ hnew
  modify {s _ f} c hf h := by
    have hnone (d : ClientId) (hd : s.handlers d = none) : (modifyHandler c f s).handlers d = none := by
      unfold modifyHandler
      dsimp only
      rw [hd, Option.map_none, ite_self]
    refine ⟨⟨h.enrolled.modifyHandler c _, h.unfaulted, fun hret d => hnone d (h.retired hret d),
      fun hreg => ?_⟩, fun d h' hd => ?_⟩
    · exact (h.balanced hreg).congr (modifyHandler_balance c hf)
    · unfold modifyHandler at hd
      dsimp only at hd
      split_ifs at hd
      · obtain ⟨hh, hold, rfl⟩ := Option.map_eq_some_iff.mp hd
        have hcurrent := h.current d hh hold
        have hsame := hf hh
        simp only [HdlcdServerHandler.guards, Prod.mk.injEq] at hsame
        obtain ⟨hinitial, _, hguard⟩ := hsame
        refine ⟨hinitial.trans hcurrent.initial, ?_, ?_, ?_⟩
        all_goals rw [hguard]
        · exact hcurrent.others
        · exact hcurrent.lastSelf
        · exact hcurrent.lastOthers
      · exact h.current d h' hd
  rebuild {s _} h := by
    have hserved := rebuildSubscriptions_served s
    have hlock : s.rebuildSubscriptions.serialPortLock = s.serialPortLock :=
      congrArg (·.2.2.2.1) hserved.same
    refine ⟨h.toSettled.served hserved, ?_⟩
    rw [rebuildSubscriptions_handlers, hlock]
    exact h.current
  propagate _ _ h := h.propagate

/-- The port is not registered any more. -/
structure Retired (s : Port) (o : List Output) : Prop where
  enrolled : Enrolled s
  unfaulted : .fault .lockGuardInit ∉ o
  unregistered : s.registered = false

theorem Retired.dissolve (h : Retired s o) : dissolve.wp Locked s o := by
  have hdone := callProtocolState_done (handle (.internal .shutdown)) s
  have hregistered : (callProtocolState ProtocolState.shutdown s).1.registered = s.registered :=
    congrArg (·.1) hdone.served.same
  have henrolled := callProtocolState_enrolled h.enrolled (.internal .shutdown)
  have hstopped := (stopClients_simulates _ henrolled).enrolled
  have hunregistered (t : Port) : (stopClients t).1.registered = t.registered :=
    congrArg (·.1) (rebuildSubscriptions_served t).same
  have hgone := henrolled.stopClients_nobody
  refine wp_andThen.mpr ⟨⟨hstopped, ?_, fun _ => hgone, fun hreg => ?_⟩, fun d hh hd => ?_⟩
  · intro hmem
    rcases List.mem_append.mp hmem with hcalled | hstop
    · exact unfaulted_indirect h.unfaulted hdone.outputs hcalled
    · obtain ⟨c, -, hc⟩ := List.mem_map.mp hstop
      exact Output.noConfusion hc
  · rw [hunregistered, hregistered, h.unregistered] at hreg
    exact Bool.noConfusion hreg
  · exact absurd ((hgone d).symm.trans hd) (Option.some_ne_none hh).symm

theorem unfaulted_cancel (ho : .fault .lockGuardInit ∉ o) (isOpen : Bool) :
    .fault .lockGuardInit ∉ o ++ if isOpen then [] else [.fault .cancelClosed] := by
  cases isOpen <;> simpa using ho

theorem locked_stop : Maintains Locked stop := by
  have hstopped : Maintains Locked (emit [Output.stop]) := locked_calm.emit (by simp [Output.Aside])
  refine hstopped.andThen fun s o h => wp_branch (fun _ => ?_) fun _ => wp_skip.mpr h
  refine wp_andThen.mpr (wp_update.mpr (wp_andThen.mpr (wp_closeSerialPort (Retired.dissolve ⟨?_, ?_, rfl⟩))))
  · exact h.enrolled.congr rfl
  · exact unfaulted_cancel h.unfaulted _

/-- The locks are counted, and the port is on its way to be opened or suspended. -/
structure Switching (started isOpen : Bool) (s : Port) (o : List Output) : Prop where
  enrolled : Enrolled s
  unfaulted : .fault .lockGuardInit ∉ o
  registered : s.registered = true
  counted : s.serialPortLock.nbrOfLocks = s.nbrOfHolders
  started : s.protocolState.started = started
  isOpen : s.serialPort.isOpen = isOpen

namespace Switching

variable {started isOpen : Bool}

theorem served (h : Switching started isOpen s o) (hserved : Served s t) : Switching started isOpen t o := by
  have hsame := hserved.same
  simp only [servedMembers, Prod.mk.injEq] at hsame
  obtain ⟨hregistered, hps, _, hlock, _, hopen, _⟩ := hsame
  refine ⟨h.enrolled.served hserved, h.unfaulted, hregistered.trans h.registered, ?_, ?_, hopen.trans h.isOpen⟩
  · rw [hlock, hserved.nbrOfHolders]
    exact h.counted
  · rw [hps]
    exact h.started

theorem callProtocolState (e : Hdlcd.Event) (h : Switching started isOpen s o) :
    (callProtocolState (handle e)).wp (fun t o => Switching (startedAfter s.protocolState e) isOpen t o ∧
      t.serialPortLock = s.serialPortLock) s o := by
  have hdone := callProtocolState_done (handle e) s
  have hhandled : Switching (startedAfter s.protocolState e) isOpen
      { s with protocolState := (handle e s.protocolState).1 } o :=
    ⟨h.enrolled.protocolState (h.enrolled.consistent.handle e), h.unfaulted, h.registered, h.counted,
      handle_started h.enrolled.consistent e, h.isOpen⟩
  have hserved := hhandled.served hdone.served
  refine ⟨⟨hserved.enrolled, unfaulted_indirect h.unfaulted hdone.outputs, hserved.registered, hserved.counted,
    hserved.started, hserved.isOpen⟩, ?_⟩
  exact congrArg (·.2.2.2.1) hdone.served.same

theorem aside (h : Switching started isOpen s o) {x : Output} (hx : x.Aside) :
    Switching started isOpen s (o ++ [x]) := by
  refine ⟨h.enrolled, fun hmem => ?_, h.registered, h.counted, h.started, h.isOpen⟩
  rcases List.mem_append.mp hmem with hold | hnew
  · exact h.unfaulted hold
  · rw [← List.mem_singleton.mp hnew] at hx
    exact hx

theorem settled (suspended : Bool) (h : Switching (!suspended) (!suspended) s o)
    (hsuspended : suspended = s.serialPortLock.getSerialPortState) : Settled s o := by
  have hstate (b : Bool) (hb : b = !suspended) : b = true ↔ s.serialPortLock.nbrOfLocks = 0 := by
    rw [hb, hsuspended, Bool.not_eq_true', SerialPortLock.getSerialPortState, bne_eq_false_iff_eq]
  refine ⟨h.enrolled, h.unfaulted, fun hret => ?_, fun _ => ⟨h.counted, fun _ => ⟨?_, ?_⟩⟩⟩
  · rw [h.registered] at hret
    exact Bool.noConfusion hret
  · exact hstate _ h.started
  · exact hstate _ h.isOpen

end Switching

theorem openSerialPort_locked {started isOpen : Bool} (opens : OpenResult) (h : Switching started isOpen s o)
    (hnbr : s.serialPortLock.nbrOfLocks = 0) : (openSerialPort opens).wp Locked s o := by
  have hfailed (t : Port) (ht : Enrolled t) : (unregister.andThen Port.dissolve).wp Locked t o :=
    wp_andThen.mpr (wp_update.mpr (Retired.dissolve ⟨ht.congr rfl, h.unfaulted, rfl⟩))
  cases opens with
  | failed => exact hfailed s h.enrolled
  | notConfigured => exact wp_andThen.mpr (wp_update.mpr (hfailed _ (h.enrolled.congr rfl)))
  | opened =>
    have hopened : Switching started true { s with serialPort := s.serialPort.openPort } o :=
      ⟨h.enrolled.congr rfl, h.unfaulted, h.registered, h.counted, h.started, rfl⟩
    refine wp_andThen.mpr (wp_update.mpr (wp_andThen.mpr ?_))
    refine wp_mono (hopened.callProtocolState (.internal .start)) fun t o ht => ?_
    have hread := ht.1.aside (x := .doRead) trivial
    refine wp_andThen.mpr (wp_andThen.mpr (wp_emit.mpr (wp_update.mpr (Settled.propagate ?_))))
    refine Switching.settled false ⟨hread.enrolled.congr rfl, hread.unfaulted, hread.registered,
      hread.counted, hread.started, hread.isOpen⟩ ?_
    show false = t.serialPortLock.getSerialPortState
    rw [ht.2, SerialPortLock.getSerialPortState, hnbr]
    rfl

theorem locked_suspended (s : Port) : s.serialPortLock.suspendSerialPort.1.getSerialPortState = true := rfl

theorem openSerialPort_lock (opens : OpenResult) (s : Port) :
    (openSerialPort opens s).1.serialPortLock = s.serialPortLock := by
  have hlock {t u : Port} (h : Served t u) : u.serialPortLock = t.serialPortLock := congrArg (·.2.2.2.1) h.same
  have hdissolved (t : Port) : (dissolve t).1.serialPortLock = t.serialPortLock := by
    have hshutdown := hlock (callProtocolState_done (handle (.internal .shutdown)) t).served
    exact (hlock (rebuildSubscriptions_served _)).trans hshutdown
  cases opens with
  | opened =>
    have hstarted := hlock (callProtocolState_done (handle (.internal .start)) (openPort s).1).served
    exact (hlock (propagateSerialPortState_served _)).trans hstarted
  | failed => exact hdissolved (unregister s).1
  | notConfigured => exact hdissolved (unregister (openPort s).1).1

theorem suspendSerialPort_locked {suspended : Bool} (hstate : suspended = s.serialPortLock.getSerialPortState)
    (h : Switching (!suspended) (!suspended)
      { s with serialPortLock := s.serialPortLock.suspendSerialPort.1 } o) :
    suspendSerialPort.wp Locked s o := by
  refine wp_branch (fun _ => ?_) fun hunreg => absurd (h.registered.symm.trans hunreg) Bool.noConfusion
  refine wp_of_eq (b := (if s.serialPortLock.suspendSerialPort.2 = true then
      (emit [.suspended]).andThen ((Port.callProtocolState ProtocolState.stop).andThen closeSerialPort)
      else skip).andThen propagateSerialPortState) rfl (wp_andThen.mpr ?_)
  split_ifs with hfirst
  · have hstopped := (h.aside (x := .suspended) trivial).callProtocolState (.internal .stop)
    refine wp_andThen.mpr (wp_emit.mpr (wp_andThen.mpr (wp_mono hstopped fun t o ht => ?_)))
    have hclosed (o' : List Output) (hunfaulted : .fault .lockGuardInit ∉ o') :
        Switching false false { t with serialPort := t.serialPort.close } o' :=
      ⟨ht.1.enrolled.congr rfl, hunfaulted, ht.1.registered, ht.1.counted, ht.1.started, rfl⟩
    refine wp_closeSerialPort (Settled.propagate (Switching.settled true (hclosed _ ?_) ?_))
    · exact unfaulted_cancel ht.1.unfaulted _
    show true = t.serialPortLock.getSerialPortState
    rw [ht.2]
    exact (locked_suspended s).symm
  · have hlocks : s.serialPortLock.nbrOfLocks ≠ 0 := by
      rintro hzero
      rw [SerialPortLock.suspendSerialPort, hzero] at hfirst
      exact hfirst rfl
    refine wp_skip.mpr (Settled.propagate (h.settled _ (hstate.trans ?_)))
    show s.serialPortLock.getSerialPortState = s.serialPortLock.suspendSerialPort.1.getSerialPortState
    rw [locked_suspended, SerialPortLock.getSerialPortState, bne_iff_ne]
    exact hlocks

theorem resumeSerialPort_locked {opens : OpenResult}
    (h : Switching false false { s with serialPortLock := s.serialPortLock.resumeSerialPort.1 } o) :
    (resumeSerialPort opens).wp Locked s o := by
  refine wp_branch (fun _ => ?_) fun hunreg => absurd (h.registered.symm.trans hunreg) Bool.noConfusion
  refine wp_of_eq (b := if s.serialPortLock.resumeSerialPort.2 = true then
      (emit [.resumed]).andThen (openSerialPort opens) else propagateSerialPortState) rfl ?_
  split_ifs with hlast
  · refine wp_andThen.mpr (wp_emit.mpr ?_)
    exact openSerialPort_locked opens (h.aside (x := .resumed) trivial) (beq_iff_eq.mp hlast)
  · refine Settled.propagate (h.settled true ?_)
    show true = !s.serialPortLock.resumeSerialPort.2
    rw [Bool.eq_false_of_not_eq_true hlast]
    rfl

theorem Settled.registered (h : Settled s o) {hh : HdlcdServerHandler} (hc : s.handlers c = some hh) :
    s.registered = true := by
  by_contra hret
  rw [h.retired (Bool.eq_false_of_not_eq_true hret) c] at hc
  exact Option.some_ne_none hh hc.symm

theorem Settled.connected (h : Settled s o) {hh : HdlcdServerHandler} (hc : s.handlers c = some hh) :
    s.connections ≠ [] :=
  List.ne_nil_of_mem (h.enrolled.known c (h.enrolled.listed c (Option.isSome_of_eq_some hc)))

theorem Settled.switching (h : Settled s o) {hh : HdlcdServerHandler} (hc : s.handlers c = some hh)
    (henrolled : Enrolled t) (hsame : (t.registered, t.protocolState, t.serialPort) =
      (s.registered, s.protocolState, s.serialPort)) (hcounted : t.serialPortLock.nbrOfLocks = t.nbrOfHolders) :
    Switching (!s.serialPortLock.getSerialPortState) (!s.serialPortLock.getSerialPortState) t o := by
  have hreg := h.registered hc
  obtain ⟨hstarted, hisOpen⟩ := (h.balanced hreg).opened (h.connected hc)
  simp only [Prod.mk.injEq] at hsame
  obtain ⟨hregistered, hps, hport⟩ := hsame
  have hstate (b : Bool) (hb : b = true ↔ s.serialPortLock.nbrOfLocks = 0) :
      b = !s.serialPortLock.getSerialPortState := by
    rw [Bool.eq_iff_iff, hb, Bool.not_eq_true', SerialPortLock.getSerialPortState, bne_eq_false_iff_eq]
  refine ⟨henrolled, h.unfaulted, hregistered.trans hreg, hcounted, ?_, ?_⟩
  · rw [hps]
    exact hstate _ hstarted
  · rw [hport]
    exact hstate _ hisOpen

theorem holds_eq {h : HdlcdServerHandler} (hc : s.handlers c = some h) : s.holds c = h.lockGuard.lockedBySelf := by
  unfold holds
  rw [hc]
  rfl

theorem nbrOfHolders_flip (hs : Enrolled s) {h : HdlcdServerHandler} (hc : s.handlers c = some h)
    (hlist : t.handlerList = s.handlerList) (hsame : ∀ d ≠ c, t.holds d = s.holds d) :
    (s.holds c = false → t.holds c = true → t.nbrOfHolders = s.nbrOfHolders + 1) ∧
      (s.holds c = true → t.holds c = false → s.nbrOfHolders = t.nbrOfHolders + 1) := by
  have hmem : c ∈ s.handlerList := hs.listed c (Option.isSome_of_eq_some hc)
  unfold nbrOfHolders
  rw [hlist]
  exact ⟨fun hf hg => countP_flip hs.nodup hmem hf hg fun d hd => (hsame d hd).symm,
    fun hf hg => countP_flip hs.nodup hmem hg hf hsame⟩

theorem setLockedBySelf_holds {h : HdlcdServerHandler} (hc : s.handlers c = some h) (lockedBySelf : Bool) :
    (modifyHandler c (setLockedBySelf lockedBySelf) s).holds c = lockedBySelf ∧
      ∀ d ≠ c, (modifyHandler c (setLockedBySelf lockedBySelf) s).holds d = s.holds d := by
  refine ⟨?_, fun d hd => ?_⟩
  · rw [modifyHandler_holds, if_pos rfl, hc]
    rfl
  · rw [modifyHandler_holds, if_neg hd]

theorem acquireLock_locked {h : HdlcdServerHandler} (hc : s.handlers c = some h) (hs : Locked s o) :
    (acquireLock c h).wp Locked s o := by
  unfold acquireLock
  split_ifs with hself
  · exact wp_skip.mpr hs
  · obtain ⟨hholds, hothers⟩ := setLockedBySelf_holds hc true
    have hbalanced := hs.balanced (hs.registered hc)
    have hmore := (nbrOfHolders_flip (t := modifyHandler c (setLockedBySelf true) s) hs.enrolled hc rfl hothers).1
      ((holds_eq hc).trans (Bool.eq_false_of_not_eq_true hself)) hholds
    refine wp_andThen.mpr (wp_update.mpr (suspendSerialPort_locked rfl ?_))
    refine hs.switching hc ((hs.enrolled.modifyHandler c (setLockedBySelf true)).congr rfl) rfl ?_
    exact (congrArg (· + 1) hbalanced.counted).trans hmore.symm

theorem resume_locked {opens : OpenResult} {h : HdlcdServerHandler} (hc : s.handlers c = some h)
    (hself : h.lockGuard.lockedBySelf = true) (hs : Locked s o) (henrolled : Enrolled t)
    (hsame : (t.registered, t.protocolState, t.serialPort, t.serialPortLock) =
      (s.registered, s.protocolState, s.serialPort, s.serialPortLock)) (hlist : t.handlerList = s.handlerList)
    (hholds : t.holds c = false) (hothers : ∀ d ≠ c, t.holds d = s.holds d) :
    (resumeSerialPort opens).wp Locked t o := by
  simp only [Prod.mk.injEq] at hsame
  obtain ⟨hregistered, hps, hport, hlock⟩ := hsame
  have hcounted := (hs.balanced (hs.registered hc)).counted
  have hless := (nbrOfHolders_flip hs.enrolled hc hlist hothers).2 ((holds_eq hc).trans hself) hholds
  have hlocked : s.serialPortLock.getSerialPortState = true := by
    rw [SerialPortLock.getSerialPortState, hcounted, hless]
    rfl
  have hswitching := hs.switching (t := { t with serialPortLock := t.serialPortLock.resumeSerialPort.1 }) hc
    (henrolled.congr rfl) (by rw [← hregistered, ← hps, ← hport]) ?_
  · rw [hlocked] at hswitching
    exact resumeSerialPort_locked hswitching
  · show (if t.serialPortLock.nbrOfLocks = 0 then 2 ^ 64 - 1 else t.serialPortLock.nbrOfLocks - 1) = t.nbrOfHolders
    rw [hlock, hcounted, hless, if_neg (Nat.succ_ne_zero _)]
    rfl

theorem releaseLock_locked {opens : OpenResult} {h : HdlcdServerHandler} (hc : s.handlers c = some h)
    (hs : Locked s o) : (releaseLock c h opens).wp Locked s o := by
  unfold releaseLock
  split_ifs with hself
  · obtain ⟨hholds, hothers⟩ := setLockedBySelf_holds hc false
    refine wp_andThen.mpr (wp_update.mpr ?_)
    exact resume_locked hc hself hs (hs.enrolled.modifyHandler c _) rfl rfl hholds hothers
  · exact wp_skip.mpr hs

theorem eraseHandler_handlers (c d : ClientId) (s : Port) :
    (eraseHandler c s).handlers d = if d = c then none else s.handlers d := rfl

theorem disconnect_locked (c : ClientId) (opens : OpenResult) : Maintains Locked (disconnect c opens) := by
  intro s o hs
  unfold wp disconnect
  split
  · exact (List.append_nil o).symm ▸ hs
  · rename_i h hc
    by_cases hidle : s.calls.isEmpty = true
    · rw [if_pos hidle]
      have henrolled := ((eraseHandler_simulates c) s hs.enrolled).enrolled
      have hholds : (eraseHandler c s).holds c = false := by
        unfold holds
        rw [eraseHandler_handlers, if_pos rfl]
        rfl
      have hothers (d : ClientId) (hd : d ≠ c) : (eraseHandler c s).holds d = s.holds d := by
        unfold holds
        rw [eraseHandler_handlers, if_neg hd]
      have hreleased : (if h.lockGuard.lockedBySelf = true then resumeSerialPort opens else skip).wp Locked
          (eraseHandler c s) o := by
        split_ifs with hself
        · exact resume_locked hc hself hs henrolled rfl rfl hholds hothers
        · have hsame : (eraseHandler c s).holds = s.holds := by
            funext d
            by_cases hd : d = c
            · rw [hd, hholds, holds_eq hc, Bool.eq_false_of_not_eq_true hself]
            · exact hothers d hd
          have hbalance : (eraseHandler c s).balance = s.balance := by
            unfold balance nbrOfHolders
            rw [hsame]
            rfl
          refine wp_skip.mpr ⟨⟨henrolled, hs.unfaulted, fun hret d => ?_, fun hreg => ?_⟩, fun d h' hd => ?_⟩
          · rw [eraseHandler_handlers, hs.retired hret d, ite_self]
          · exact (hs.balanced hreg).congr hbalance
          · rw [eraseHandler_handlers] at hd
            split_ifs at hd
            exact hs.current d h' hd
      exact wp_andThen.mpr (wp_update.mpr (wp_andThen.mpr
        (wp_mono hreleased (locked_stop.branch .skip))))
    · rw [if_neg hidle]
      exact (List.append_nil o).symm ▸ hs

theorem initLockGuard_locked (h : Settled s o)
    (hunlocked : ∀ hh, s.handlers c = some hh → hh.lockGuard.lockedBySelf = false ∧
      hh.lockGuard.lockedByOthers = false) (hgone : s.handlers c = none → Locked s o) :
    (initLockGuard c).wp Locked s o := by
  unfold wp initLockGuard
  split
  · rename_i hnone
    exact (List.append_nil o).symm ▸ hgone hnone
  · rename_i hh hc
    obtain ⟨hself, hothers⟩ := hunlocked hh hc
    refine wp_andThen.mpr (wp_emit.mpr ?_)
    rw [hself, hothers]
    show propagateSerialPortState.wp Locked s (o ++ [])
    rw [List.append_nil]
    exact h.propagate

theorem Locked.unlocked (h : Locked s o) (hnbr : s.serialPortLock.nbrOfLocks = 0) {hh : HdlcdServerHandler}
    (hc : s.handlers c = some hh) : hh.lockGuard.lockedBySelf = false ∧ hh.lockGuard.lockedByOthers = false := by
  have hcounted := (h.balanced (h.registered hc)).counted
  have hself : hh.lockGuard.lockedBySelf = false := by
    rw [← holds_eq hc, ← Bool.not_eq_true]
    refine List.countP_eq_zero.mp (hcounted.symm.trans hnbr) c ?_
    exact h.enrolled.listed c (Option.isSome_of_eq_some hc)
  refine ⟨hself, ?_⟩
  rw [(h.current c hh hc).others, hself, hnbr]
  rfl

theorem withHandler_holders {h : HdlcdServerHandler} (hfresh : h.lockGuard.lockedBySelf = false)
    (hnew : s.handlers c = none) : (withHandler c h s).nbrOfHolders = s.nbrOfHolders := by
  have hholds : (withHandler c h s).holds = s.holds := by
    funext d
    unfold holds withHandler
    dsimp only
    split_ifs with hd
    · rw [hd, hnew]
      exact hfresh
    · rfl
  have hnone : s.holds c = false := by
    unfold holds
    rw [hnew]
    rfl
  unfold nbrOfHolders
  rw [hholds]
  show (s.handlerList ++ [c]).countP s.holds = _
  rw [List.countP_append, List.countP_cons_of_neg (by rw [hnone]; exact Bool.false_ne_true), List.countP_nil,
    Nat.add_zero]

theorem Enrolled.unknown (hs : Enrolled s) (hnew : c ∉ s.connections) : s.handlers c = none := by
  by_contra hsome
  exact hnew (hs.known c (hs.listed c (Option.isSome_iff_ne_none.mpr hsome)))

theorem attach_first {h : HdlcdServerHandler} (opens : OpenResult) (hs : Locked s o) (hreg : s.registered = true)
    (hfirst : s.connections = []) (hfresh : h.lockGuard = {}) :
    ((addHdlcdServerHandler c h).andThen ((openSerialPort opens).andThen (initLockGuard c))).wp Locked s o := by
  have hempty : s.handlerList = [] :=
    List.eq_nil_iff_forall_not_mem.mpr fun d hd => List.not_mem_nil (hfirst ▸ hs.enrolled.known d hd)
  have hnew : c ∉ s.connections := hfirst ▸ List.not_mem_nil
  have hnbr : s.serialPortLock.nbrOfLocks = 0 := by
    rw [(hs.balanced hreg).counted, nbrOfHolders, hempty, List.countP_nil]
  have hcounted : (withHandler c h s).serialPortLock.nbrOfLocks = (withHandler c h s).nbrOfHolders := by
    rw [withHandler_holders (by rw [hfresh]) (hs.enrolled.unknown hnew)]
    exact (hs.balanced hreg).counted
  have hadded : Switching s.protocolState.started s.serialPort.isOpen (withHandler c h s) o :=
    ⟨hs.enrolled.withHandler hnew h, hs.unfaulted, hreg, hcounted, rfl, rfl⟩
  have hopened {t : Port} {o : List Output} (ht : Switching s.protocolState.started s.serialPort.isOpen t o)
      (hlock : t.serialPortLock = s.serialPortLock) :
      ((openSerialPort opens).andThen (initLockGuard c)).wp Locked t o := by
    have hzero : t.serialPortLock.nbrOfLocks = 0 := by rw [hlock, hnbr]
    have hlocked := openSerialPort_locked opens ht hzero
    have hsame := openSerialPort_lock opens t
    refine wp_andThen.mpr (initLockGuard_locked hlocked.toSettled (fun hh hc => ?_) fun _ => hlocked)
    exact hlocked.unlocked (by rw [hsame, hzero]) hc
  refine wp_andThen.mpr (wp_andThen.mpr (wp_update.mpr (wp_branch (fun _ => ?_) fun _ => ?_)))
  · have hdone := propagateSerialPortState_done (withHandler c h s)
    have htold := hadded.served hdone.served
    refine hopened ⟨htold.enrolled, unfaulted_indirect hs.unfaulted hdone.outputs, htold.registered,
      htold.counted, htold.started, htold.isOpen⟩ ?_
    exact congrArg (·.2.2.2.1) hdone.served.same
  · exact wp_skip.mpr (hopened hadded rfl)

theorem attach_later {h : HdlcdServerHandler} (hs : Locked s o) (hreg : s.registered = true)
    (hlater : s.connections ≠ []) (hnew : c ∉ s.connections) (hfresh : h.lockGuard = {}) :
    ((addHdlcdServerHandler c h).andThen (initLockGuard c)).wp Locked s o := by
  have hbalanced := hs.balanced hreg
  have hholders := withHandler_holders (h := h) (by rw [hfresh]) (hs.enrolled.unknown hnew)
  have hadded : Settled (withHandler c h s) o := by
    refine ⟨hs.enrolled.withHandler hnew h, hs.unfaulted, fun hret => ?_, fun _ => ⟨?_, ?_⟩⟩
    · exact absurd (hreg.symm.trans hret) Bool.noConfusion
    · exact hbalanced.counted.trans hholders.symm
    · exact fun _ => hbalanced.opened hlater
  have hnewcomer : (withHandler c h s).handlers c = some h := if_pos rfl
  refine wp_andThen.mpr (wp_andThen.mpr (wp_update.mpr (wp_branch (fun hstarted => ?_) fun _ => ?_)))
  · have hnbr : s.serialPortLock.nbrOfLocks = 0 := (hbalanced.opened hlater).1.mp hstarted
    have htold := hadded.propagate
    refine initLockGuard_locked htold.toSettled (fun hh hc => htold.unlocked ?_ hc) fun _ => htold
    have hlock : (propagateSerialPortState (withHandler c h s)).1.serialPortLock = s.serialPortLock :=
      congrArg (·.2.2.2.1) (propagateSerialPortState_served (withHandler c h s)).same
    rw [hlock, hnbr]
  · refine wp_skip.mpr (initLockGuard_locked hadded (fun hh hc => ?_) fun hgone => ?_)
    · rw [← Option.some.inj (hnewcomer.symm.trans hc), hfresh]
      exact ⟨rfl, rfl⟩
    · exact absurd (hnewcomer.symm.trans hgone) (Option.some_ne_none h)

theorem attach_locked (c : ClientId) (sap : UInt8) (opens : OpenResult) : Maintains Locked (attach c sap opens) := by
  intro s o hs
  unfold wp attach
  split
  · exact (List.append_nil o).symm ▸ hs
  · rename_i h hsap
    have hfresh := (onFrame_desk hsap).2.1
    by_cases hcond : (s.registered && s.calls.isEmpty && !s.connections.contains c) = true
    · rw [if_pos hcond, addClient]
      simp only [Bool.and_eq_true, Bool.not_eq_true', List.contains_eq_mem, decide_eq_false_iff_not] at hcond
      by_cases hfirst : s.connections.isEmpty = true
      · rw [if_pos hfirst]
        exact attach_first opens hs hcond.1.1 (List.isEmpty_iff.mp hfirst) hfresh
      · rw [if_neg hfirst, skip_andThen]
        exact attach_later hs hcond.1.1 (fun hempty => hfirst (List.isEmpty_iff.mpr hempty)) hcond.2 hfresh
    · rw [if_neg hcond]
      exact (List.append_nil o).symm ▸ hs

theorem Locked.initial : Locked initial [] where
  enrolled := .initial
  unfaulted := List.not_mem_nil
  retired _ _ := rfl
  balanced _ := ⟨rfl, fun hconnected => absurd rfl hconnected⟩
  current _ _ hc := absurd hc (Option.some_ne_none _).symm

theorem step_locked (e : Event) : Maintains Locked (step e) :=
  locked_calm.step locked_stop (fun c sap => attach_locked c sap _) (fun c => disconnect_locked c _)
    acquireLock_locked releaseLock_locked

theorem run_locked (es : List Event) : Locked (run step es initial).1 (run step es initial).2 :=
  wp_run (fun e _ => step_locked e) (o := []) .initial

theorem others_iff (hs : Enrolled s) {h : HdlcdServerHandler} (hc : s.handlers c = some h) :
    LockGuard.others (s.holds c) s.nbrOfHolders = true ↔ ∃ d, d ≠ c ∧ s.holds d = true := by
  have hmem : c ∈ s.handlerList := hs.listed c (Option.isSome_of_eq_some hc)
  have hrest : 0 < (s.handlerList.erase c).countP s.holds ↔ ∃ d, d ≠ c ∧ s.holds d = true := by
    rw [List.countP_pos_iff]
    constructor
    · rintro ⟨d, hd, hholds⟩
      exact ⟨d, (hs.nodup.mem_erase_iff.mp hd).1, hholds⟩
    · rintro ⟨d, hd, hholds⟩
      exact ⟨d, hs.nodup.mem_erase_iff.mpr ⟨hd, hs.listed d (holds_isSome hholds)⟩, hholds⟩
  rw [← hrest, List.countP_erase, LockGuard.others, nbrOfHolders]
  cases s.holds c <;> simp [hmem]

/-- The locks are counted: the port runs and is open exactly if no client holds one, no assertion of
`LockGuard::Init` fails, and each client was told last whether it or another one holds a lock, by
packets that tell something new each time. -/
theorem locks_counted (es : List Event) (hregistered : (run step es initial).1.registered = true) :
    (run step es initial).1.serialPortLock.nbrOfLocks = (run step es initial).1.nbrOfHolders ∧
      ((run step es initial).1.connections ≠ [] →
        ((run step es initial).1.protocolState.started = true ↔ (run step es initial).1.nbrOfHolders = 0) ∧
          ((run step es initial).1.serialPort.isOpen = true ↔ (run step es initial).1.nbrOfHolders = 0)) ∧
      .fault .lockGuardInit ∉ (run step es initial).2 ∧
      ∀ c, (statuses c (run step es initial).2).IsChain (· ≠ ·) ∧
        ∀ h, (run step es initial).1.handlers c = some h → ∃ alive others,
          (statuses c (run step es initial).2).getLast? = some (alive, others, (run step es initial).1.holds c) ∧
            (others = true ↔ ∃ d, d ≠ c ∧ (run step es initial).1.holds d = true) := by
  have hlocked := run_locked es
  have htold := run_told es
  obtain ⟨hcounted, hopened⟩ := hlocked.balanced hregistered
  refine ⟨hcounted, hcounted ▸ hopened, hlocked.unfaulted, fun c => ⟨htold.chain c, fun h hc => ?_⟩⟩
  have hcurrent := hlocked.current c h hc
  refine ⟨h.aliveGuard.alive, h.lockGuard.lastLockedByOthers, ?_, ?_⟩
  · rw [htold.told c h hc, HdlcdServerHandler.report, hcurrent.initial, hcurrent.lastSelf, holds_eq hc]
    rfl
  · rw [← others_iff hlocked.enrolled hc, hcurrent.lastOthers, hcurrent.others, hcounted, holds_eq hc]

def lockedByFirst : List Event :=
  [.attach 0 0x00 .opened, .attach 1 0x00 .opened, .receive 0 (.portStatus true) .opened]

/-- Two clients, of which the first holds a lock. -/
theorem locks_counted_lockedByFirst :
    (run step lockedByFirst initial).1.serialPortLock.nbrOfLocks = 1 ∧
      ∃ alive, (statuses 1 (run step lockedByFirst initial).2).getLast? = some (alive, true, false) := by
  have hholders : (run step lockedByFirst initial).1.nbrOfHolders = 1 := by decide +kernel
  have hself : (run step lockedByFirst initial).1.holds 1 = false := by decide +kernel
  have hother : ∃ d, d ≠ 1 ∧ (run step lockedByFirst initial).1.holds d = true := ⟨0, by decide +kernel⟩
  have hsecond : ((run step lockedByFirst initial).1.handlers 1).isSome = true := by decide +kernel
  obtain ⟨h, hc⟩ := Option.isSome_iff_exists.mp hsecond
  obtain ⟨hcounted, _, _, htold⟩ := locks_counted lockedByFirst (by decide +kernel)
  obtain ⟨alive, others, hlast, hothers⟩ := (htold 1).2 h hc
  rw [hothers.mpr hother, hself] at hlast
  exact ⟨hcounted.trans hholders, alive, hlast⟩

end
end Hdlcd.Port
