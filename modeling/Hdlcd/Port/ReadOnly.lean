import Hdlcd.Port.Alike
import Hdlcd.Port.Locks

/-! The session table says what a client may do, but nothing checks it: a run looks like one in
which clients only do what they may do exactly if no client makes use of more. -/

namespace Hdlcd.Port
open Reactive Action ProtocolState

def permissions (sap : UInt8) : Permissions where
  data := sap &&& 0xF0 == 0x00
  portStatus := sap &&& 0xF0 == 0x00 || sap &&& 0xF0 == 0x10

def serviceAccessPoint (c : ClientId) : Port → List Event → Option UInt8
  | _, [] => none
  | s, e :: es =>
    match e with
    | .attach d sap _ =>
      if d == c && (step e s).1.connections.contains c then some sap else serviceAccessPoint c (step e s).1 es
    | _ => serviceAccessPoint c (step e s).1 es

/-- What the clients of a run may do. -/
def granted (es : List Event) (c : ClientId) : Permissions :=
  ((serviceAccessPoint c initial es).map permissions).getD ⟨true, true⟩

/-- Not a packet of a client without the permission for it. -/
def permitted (p : ClientId → Permissions) : Event → Bool
  | .receive c (.data _) _ => (p c).data
  | .receive c (.portStatus _) _ => (p c).portStatus
  | _ => true

def otherHolds (p : ClientId → Permissions) (s : Port) (c : ClientId) : Bool :=
  s.live.any fun d => d != c && (p d).portStatus && s.holds d

def intruderHolds (p : ClientId → Permissions) (s : Port) : Bool :=
  s.live.any fun d => !(p d).portStatus && s.holds d

/-- A data packet without permission, a lock without permission that suspends the port, or the end of
the last lock with permission while one without permission keeps the port suspended. -/
def influences (p : ClientId → Permissions) (s : Port) : Event → Bool
  | .receive c (.data _) _ => (s.handlers c).any fun h => s.receives c h && !(p c).data
  | .receive c (.portStatus true) _ => (s.handlers c).any fun h =>
    s.receives c h && !(p c).portStatus && !s.otherHolds p c
  | .receive c (.portStatus false) _ => (s.handlers c).any fun h =>
    s.receives c h && h.lockGuard.lockedBySelf && (p c).portStatus && !s.otherHolds p c && s.intruderHolds p
  | .disconnect c _ => (s.handlers c).any fun h =>
    s.calls.isEmpty && h.lockGuard.lockedBySelf && (p c).portStatus && !s.otherHolds p c && s.intruderHolds p
  | _ => false

/-- Two ports, one with all events and one with the permitted ones. -/
structure Shadows (p : ClientId → Permissions) (s t : Port) : Prop extends Alike p s t where
  counted : Locked s []
  counted' : Locked t []

section
variable {p : ClientId → Permissions} {s t : Port} {o o' : List Output} {c : ClientId}

theorem onFrame_claims {sap : UInt8} {h : HdlcdServerHandler} (hsap : HdlcdServerHandler.onFrame sap = some h)
    (q : Permissions) : h.claims q = h.rights q := by
  unfold HdlcdServerHandler.onFrame at hsap
  split at hsap
  · exact absurd hsap (Option.some_ne_none h).symm
  · split_ifs at hsap
    rw [← Option.some.inj hsap]
    simp [HdlcdServerHandler.claims, HdlcdServerHandler.rights]

theorem withHandler_live (hs : Enrolled s) (hnew : c ∉ s.connections) (h : HdlcdServerHandler) :
    (withHandler c h s).live = s.live ++ [c] := by
  have hlive : (withHandler c h s).live = (s.handlerList ++ [c]).filter
      fun d => (if d = c then some h else s.handlers d).isSome := rfl
  rw [hlive, List.filter_append, List.filter_cons_of_pos (by simp), List.filter_nil]
  refine congrArg (· ++ [c]) (List.filter_congr fun d hd => ?_)
  rw [if_neg]
  rintro rfl
  exact hnew (hs.known d hd)

theorem withHandler_alike {h : HdlcdServerHandler} (hsame : h.claims (p c) = h.rights (p c)) (hs : Enrolled s)
    (ht : Enrolled t) (hnew : c ∉ s.connections) (halike : Alike p s t) :
    Alike p (withHandler c h s) (withHandler c h t) := by
  have hnew' : c ∉ t.connections := halike.connections ▸ hnew
  refine { halike with live := ?_, connections := ?_, handlers := fun d => ?_ }
  · rw [withHandler_live hs hnew, withHandler_live ht hnew', halike.live]
  · exact congrArg (· ++ [c]) halike.connections
  · show (if d = c then some h else s.handlers d).map _ = (if d = c then some h else t.handlers d).map _
    split_ifs with hd
    · subst hd
      exact congrArg some hsame
    · exact halike.handlers d

theorem initLockGuard_alike (c : ClientId) : Respects Unchanged (Alike p) (initLockGuard c) := by
  have hE := unchanged_piecewise
  intro s t h
  unfold Coupled initLockGuard
  rcases h.cases c with ⟨hs, ht⟩ | ⟨g, k, hs, ht, _⟩
  · rw [hs, ht]
    exact Coupled.skip hE h
  · rw [hs, ht]
    refine Coupled.andThen hE (.emit (unchanged_unseen (unseen_ite trivial) (unseen_ite trivial)) h) ?_
    exact propagateSerialPortState_alike

theorem attach_alike (c : ClientId) (sap : UInt8) (opens : OpenResult) (h : Shadows p s t) :
    Coupled Unchanged (Alike p) (attach c sap opens) (attach c sap opens) s t := by
  have hE := unchanged_piecewise
  unfold Coupled attach
  rw [← h.registered, ← h.calls, ← h.connections]
  split
  · exact Coupled.skip hE h.toAlike
  · rename_i g hsap
    by_cases hcond : (s.registered && s.calls.isEmpty && !s.connections.contains c) = true
    · rw [if_pos hcond, if_pos hcond]
      simp only [Bool.and_eq_true, Bool.not_eq_true', List.contains_eq_mem, decide_eq_false_iff_not] at hcond
      have hadded := withHandler_alike (onFrame_claims hsap (p c)) h.counted.enrolled h.counted'.enrolled hcond.2
        h.toAlike
      have htold : Respects Unchanged (Alike p) (branch (·.protocolState.started) propagateSerialPortState skip) :=
        .branch (fun _ _ h => by rw [h.protocolState]) propagateSerialPortState_alike (.skip hE)
      have hopened : Respects Unchanged (Alike p) (if s.connections.isEmpty then openSerialPort opens else skip) :=
        (openSerialPort_alike opens).ite (.skip hE)
      have hadmitted := (Coupled.update_andThen hE (htold _ _ hadded)).andThen hE
        (hopened.andThen hE (initLockGuard_alike c))
      unfold addClient
      rw [← h.connections]
      exact hadmitted
    · rw [if_neg hcond, if_neg hcond]
      exact Coupled.skip hE h.toAlike

theorem eraseHandler_live (c : ClientId) (s : Port) : (eraseHandler c s).live = s.live.filter (· != c) := by
  unfold live
  rw [List.filter_filter]
  refine List.filter_congr fun d _ => ?_
  show (if d = c then none else s.handlers d).isSome = _
  split_ifs with hd
  · simp [hd]
  · simp [hd]

theorem eraseHandler_alike (h : Alike p s t) : Alike p (eraseHandler c s) (eraseHandler c t) := by
  refine { h with live := ?_, handlers := fun d => ?_ }
  · rw [eraseHandler_live, eraseHandler_live, h.live]
  · show (if d = c then none else s.handlers d).map _ = (if d = c then none else t.handlers d).map _
    split_ifs
    · rfl
    · exact h.handlers d

theorem disconnect_alike (opens : OpenResult) (h : Alike p s t)
    (hreleased : ∀ g k, s.handlers c = some g → t.handlers c = some k → s.calls = [] →
      Coupled Unchanged (Alike p) (if g.lockGuard.lockedBySelf then resumeSerialPort opens else skip)
        (if k.lockGuard.lockedBySelf then resumeSerialPort opens else skip) (eraseHandler c s) (eraseHandler c t)) :
    Coupled Unchanged (Alike p) (disconnect c opens) (disconnect c opens) s t := by
  have hE := unchanged_piecewise
  unfold Coupled disconnect
  rcases h.cases c with ⟨hs, ht⟩ | ⟨g, k, hs, ht, _⟩
  · rw [hs, ht]
    exact Coupled.skip hE h
  · rw [hs, ht, ← h.calls]
    dsimp only
    by_cases hidle : s.calls.isEmpty = true
    · rw [if_pos hidle, if_pos hidle]
      have hlast : Respects Unchanged (Alike p) (branch (fun s => s.live.isEmpty) stop skip) :=
        .branch (fun _ _ h => by rw [h.live]) stop_alike (.skip hE)
      exact Coupled.update_andThen hE ((hreleased g k hs ht (List.isEmpty_iff.mp hidle)).andThen hE hlast)
    · rw [if_neg hidle, if_neg hidle]
      exact Coupled.skip hE h

theorem locked_iff (hs : Locked s o) (hreg : s.registered = true) :
    s.serialPortLock.getSerialPortState = true ↔ ∃ d, s.holds d = true := by
  rw [SerialPortLock.getSerialPortState, bne_iff_ne, (hs.balanced hreg).counted, ← Nat.pos_iff_ne_zero]
  refine List.countP_pos_iff.trans ⟨?_, ?_⟩
  · rintro ⟨d, _, hd⟩
    exact ⟨d, hd⟩
  · rintro ⟨d, hd⟩
    exact ⟨d, hs.enrolled.listed d (holds_isSome hd), hd⟩

theorem resume_last (hs : Locked s o) {g : HdlcdServerHandler} (hc : s.handlers c = some g)
    (hself : g.lockGuard.lockedBySelf = true) :
    s.serialPortLock.resumeSerialPort.2 = true ↔ ∀ d, d ≠ c → s.holds d = false := by
  have hcounted := (hs.balanced (hs.registered hc)).counted
  have hholds : s.holds c = true := (holds_eq hc).trans hself
  have hothers := others_iff hs.enrolled hc
  have hpositive : 0 < s.nbrOfHolders :=
    List.countP_pos_iff.mpr ⟨c, hs.enrolled.listed c (holds_isSome hholds), hholds⟩
  rw [LockGuard.others, hholds, if_pos rfl, decide_eq_true_eq] at hothers
  have hlast : s.serialPortLock.resumeSerialPort.2 = true ↔ ¬ s.nbrOfHolders > 1 := by
    show ((if s.serialPortLock.nbrOfLocks = 0 then 2 ^ 64 - 1 else s.serialPortLock.nbrOfLocks - 1) == 0) = true ↔ _
    rw [hcounted, if_neg (Nat.pos_iff_ne_zero.mp hpositive), beq_iff_eq]
    omega
  rw [hlast, hothers]
  constructor
  · intro hnone d hd
    exact Bool.eq_false_of_not_eq_true fun hholds => hnone ⟨d, hd, hholds⟩
  · rintro hnone ⟨d, hd, hholds⟩
    exact absurd ((hnone d hd).symm.trans hholds) Bool.noConfusion

theorem Alike.holds (h : Alike p s t) (d : ClientId) : t.holds d = ((p d).portStatus && s.holds d) := by
  unfold Port.holds
  rcases h.cases d with ⟨hs, ht⟩ | ⟨g, k, hs, ht, hsame⟩
  · rw [hs, ht]
    exact (Bool.and_false _).symm
  · rw [hs, ht]
    exact (claims_eq hsame).2.2.2.symm

theorem otherHolds_iff (hs : Enrolled s) :
    s.otherHolds p c = true ↔ ∃ d, d ≠ c ∧ (p d).portStatus = true ∧ s.holds d = true := by
  unfold otherHolds
  rw [List.any_eq_true]
  constructor
  · rintro ⟨d, _, hd⟩
    simp only [Bool.and_eq_true, bne_iff_ne, and_assoc] at hd
    exact ⟨d, hd⟩
  · rintro ⟨d, hd, hstatus, hholds⟩
    refine ⟨d, hs.mem_live.mpr (holds_isSome hholds), ?_⟩
    simp only [hstatus, hholds, Bool.and_true, bne_iff_ne]
    exact hd

theorem intruderHolds_iff (hs : Enrolled s) :
    s.intruderHolds p = true ↔ ∃ d, (p d).portStatus = false ∧ s.holds d = true := by
  unfold intruderHolds
  rw [List.any_eq_true]
  constructor
  · rintro ⟨d, _, hd⟩
    simp only [Bool.and_eq_true, Bool.not_eq_true'] at hd
    exact ⟨d, hd⟩
  · rintro ⟨d, hstatus, hholds⟩
    refine ⟨d, hs.mem_live.mpr (holds_isSome hholds), ?_⟩
    simp only [hstatus, hholds, Bool.not_false, Bool.and_true]

theorem Shadows.holder (h : Shadows p s t) (hreg : s.registered = true)
    (hlocked : s.serialPortLock.getSerialPortState = true) : ∃ d, (p d).portStatus = true ∧ s.holds d = true := by
  rw [h.locked] at hlocked
  obtain ⟨d, hd⟩ := (locked_iff h.counted' (h.registered ▸ hreg)).mp hlocked
  rw [h.holds, Bool.and_eq_true] at hd
  exact ⟨d, hd⟩

theorem Shadows.last' (h : Shadows p s t) {g k : HdlcdServerHandler} (hs : s.handlers c = some g)
    (ht : t.handlers c = some k) (hself : g.lockGuard.lockedBySelf = true) (hstatus : (p c).portStatus = true) :
    t.serialPortLock.resumeSerialPort.2 = true ↔ s.otherHolds p c = false := by
  have hself' : k.lockGuard.lockedBySelf = true := by
    rw [← holds_eq ht, h.holds, hstatus, holds_eq hs, hself]
    rfl
  rw [resume_last h.counted' ht hself', ← Bool.not_eq_true, otherHolds_iff h.counted.enrolled]
  constructor
  · rintro hnone ⟨d, hd, hwrites, hholds⟩
    have hother := hnone d hd
    rw [h.holds, hwrites, hholds] at hother
    exact Bool.noConfusion hother
  · intro hnone d hd
    rw [h.holds]
    refine Bool.eq_false_of_not_eq_true fun hholds => hnone ⟨d, hd, ?_⟩
    exact Bool.and_eq_true_iff.mp hholds

theorem Shadows.last (h : Shadows p s t) {g k : HdlcdServerHandler} (hs : s.handlers c = some g)
    (ht : t.handlers c = some k) (hself : g.lockGuard.lockedBySelf = true) (hstatus : (p c).portStatus = true) :
    s.serialPortLock.resumeSerialPort.2 = true ↔ s.otherHolds p c = false ∧ s.intruderHolds p = false := by
  rw [resume_last h.counted hs hself, ← Bool.not_eq_true, ← Bool.not_eq_true, otherHolds_iff h.counted.enrolled,
    intruderHolds_iff h.counted.enrolled]
  constructor
  · refine fun hnone => ⟨?_, ?_⟩
    · rintro ⟨d, hd, _, hholds⟩
      exact absurd ((hnone d hd).symm.trans hholds) Bool.noConfusion
    · rintro ⟨d, hintrudes, hholds⟩
      have hd : d ≠ c := by
        rintro rfl
        exact absurd (hstatus.symm.trans hintrudes) Bool.noConfusion
      exact absurd ((hnone d hd).symm.trans hholds) Bool.noConfusion
  · rintro ⟨hothers, hintruders⟩ d hd
    refine Bool.eq_false_of_not_eq_true fun hholds => ?_
    cases hwrites : (p d).portStatus with
    | true => exact hothers ⟨d, hd, hwrites, hholds⟩
    | false => exact hintruders ⟨d, hwrites, hholds⟩

theorem Shadows.same_last (h : Shadows p s t) {g k : HdlcdServerHandler} (hs : s.handlers c = some g)
    (ht : t.handlers c = some k) (hself : g.lockGuard.lockedBySelf = true) (hstatus : (p c).portStatus = true)
    (hkept : (!s.otherHolds p c && s.intruderHolds p) = false) :
    s.serialPortLock.resumeSerialPort.2 = t.serialPortLock.resumeSerialPort.2 := by
  rw [Bool.eq_iff_iff, h.last hs ht hself hstatus, h.last' hs ht hself hstatus]
  refine ⟨fun hnone => hnone.1, fun hnone => ⟨hnone, ?_⟩⟩
  rw [hnone] at hkept
  exact hkept

theorem Shadows.remains (h : Shadows p s t) {g : HdlcdServerHandler} (hs : s.handlers c = some g)
    (hself : g.lockGuard.lockedBySelf = true) (hstatus : (p c).portStatus = false) :
    s.serialPortLock.getSerialPortState = true ∧ s.serialPortLock.resumeSerialPort.2 = false := by
  have hreg := h.counted.registered hs
  have hlocked := (locked_iff h.counted hreg).mpr ⟨c, (holds_eq hs).trans hself⟩
  obtain ⟨d, hwrites, hholds⟩ := h.holder hreg hlocked
  have hd : d ≠ c := by
    rintro rfl
    exact absurd (hstatus.symm.trans hwrites) Bool.noConfusion
  refine ⟨hlocked, Bool.eq_false_of_not_eq_true fun hlast => ?_⟩
  exact absurd (((resume_last h.counted hs hself).mp hlast d hd).symm.trans hholds) Bool.noConfusion

theorem Alike.intrude (h : Alike p s t) (hstatus : (p c).portStatus = false) (lockedBySelf : Bool) :
    Alike p (Port.modifyHandler c (setLockedBySelf lockedBySelf) s) t := by
  refine { h with live := ?_, handlers := fun d => ?_ }
  · rw [modifyHandler_live, h.live]
  · show (if d = c then (s.handlers d).map (setLockedBySelf lockedBySelf) else s.handlers d).map _ = _
    split_ifs with hd
    · subst hd
      rw [← h.handlers d, Option.map_map]
      refine congrArg (fun f => Option.map f (s.handlers d)) (funext fun g => ?_)
      simp only [Function.comp, HdlcdServerHandler.claims, setLockedBySelf, hstatus, Bool.false_and]
    · exact h.handlers d

theorem propagate_intruder (h : Alike p s t) : Coupled Unchanged (Alike p) propagateSerialPortState skip s t :=
  quiet_alike (propagateSerialPortState_done s) (forEach_frame _ s) (.skip t) rfl h

theorem suspendSerialPort_intruder (h : Alike p s t) (hlocked : s.serialPortLock.getSerialPortState = true) :
    Coupled Unchanged (Alike p) suspendSerialPort skip s t := by
  have hE := unchanged_piecewise
  cases hreg : s.registered with
  | true =>
    have hmore : s.serialPortLock.suspendSerialPort.2 = false := by
      rw [SerialPortLock.getSerialPortState, bne_iff_ne] at hlocked
      unfold SerialPortLock.suspendSerialPort
      rw [beq_eq_false_iff_ne]
      omega
    have hsuspended : suspendSerialPort s = propagateSerialPortState
        { s with serialPortLock := s.serialPortLock.suspendSerialPort.1 } := by
      rw [suspendSerialPort, branch, if_pos hreg]
      dsimp only
      rw [hmore]
      rfl
    have hlater : Alike p { s with serialPortLock := s.serialPortLock.suspendSerialPort.1 } t :=
      { h with locked := hlocked.symm.trans h.locked }
    unfold Coupled
    rw [hsuspended]
    exact propagate_intruder hlater
  | false =>
    have hskipped : suspendSerialPort s = (s, []) := if_neg (by simp [hreg])
    unfold Coupled
    rw [hskipped]
    exact Coupled.skip hE h

theorem resumeSerialPort_remains (opens : OpenResult) (hreg : s.registered = true)
    (hremains : s.serialPortLock.resumeSerialPort.2 = false) : resumeSerialPort opens s =
      propagateSerialPortState { s with serialPortLock := s.serialPortLock.resumeSerialPort.1 } := by
  rw [resumeSerialPort, branch, if_pos hreg]
  dsimp only
  rw [hremains]
  rfl

theorem resumeSerialPort_intruder (opens : OpenResult) (h : Alike p s t)
    (hlocked : s.serialPortLock.getSerialPortState = true) (hremains : s.serialPortLock.resumeSerialPort.2 = false) :
    Coupled Unchanged (Alike p) (resumeSerialPort opens) skip s t := by
  have hE := unchanged_piecewise
  cases hreg : s.registered with
  | true =>
    have hstate : s.serialPortLock.resumeSerialPort.1.getSerialPortState = true :=
      congrArg (!·) hremains
    have hresumed := resumeSerialPort_remains opens hreg hremains
    have hlater : Alike p { s with serialPortLock := s.serialPortLock.resumeSerialPort.1 } t :=
      { h with locked := (hstate.trans hlocked.symm).trans h.locked }
    unfold Coupled
    rw [hresumed]
    exact propagate_intruder hlater
  | false =>
    have hskipped : resumeSerialPort opens s = (s, []) := if_neg (by simp [hreg])
    unfold Coupled
    rw [hskipped]
    exact Coupled.skip hE h

theorem acquireLock_intruder {g : HdlcdServerHandler} (h : Alike p s t) (hstatus : (p c).portStatus = false)
    (hlocked : s.serialPortLock.getSerialPortState = true) :
    Coupled Unchanged (Alike p) (acquireLock c g) skip s t := by
  unfold acquireLock
  split_ifs
  · exact .skip unchanged_piecewise h
  · rw [← skip_andThen skip]
    exact .update_andThen unchanged_piecewise (suspendSerialPort_intruder (h.intrude hstatus true) hlocked)

theorem releaseLock_intruder {g : HdlcdServerHandler} (opens : OpenResult) (h : Shadows p s t)
    (hs : s.handlers c = some g) (hstatus : (p c).portStatus = false) :
    Coupled Unchanged (Alike p) (releaseLock c g opens) skip s t := by
  unfold releaseLock
  split_ifs with hself
  · obtain ⟨hlocked, hremains⟩ := h.remains hs hself hstatus
    rw [← skip_andThen skip]
    exact .update_andThen unchanged_piecewise
      (resumeSerialPort_intruder opens (h.toAlike.intrude hstatus false) hlocked hremains)
  · exact .skip unchanged_piecewise h.toAlike

theorem disconnect_coupled (c : ClientId) (opens : OpenResult) (h : Shadows p s t)
    (he : s.influences p (.disconnect c opens) = false) :
    Coupled Unchanged (Alike p) (disconnect c opens) (disconnect c opens) s t := by
  have hE := unchanged_piecewise
  refine disconnect_alike opens h.toAlike fun g k hs ht hidle => ?_
  have hleft := eraseHandler_alike (c := c) h.toAlike
  have hlock : ((p c).portStatus && g.lockGuard.lockedBySelf) = k.lockGuard.lockedBySelf := by
    rw [← holds_eq hs, ← h.holds, holds_eq ht]
  by_cases hself : g.lockGuard.lockedBySelf = true
  · rw [if_pos hself]
    rw [hself, Bool.and_true] at hlock
    cases hstatus : (p c).portStatus with
    | true =>
      rw [if_pos (hlock.symm.trans hstatus)]
      refine resumeSerialPort_alike opens hleft fun _ => h.same_last hs ht hself hstatus ?_
      simpa [influences, hs, hidle, hself, hstatus] using he
    | false =>
      obtain ⟨hlocked, hremains⟩ := h.remains hs hself hstatus
      rw [if_neg (by rw [← hlock, hstatus]; exact Bool.false_ne_true)]
      exact resumeSerialPort_intruder opens hleft hlocked hremains
  · rw [if_neg hself, if_neg]
    · exact .skip hE hleft
    · rw [← hlock, Bool.and_eq_true]
      exact fun hboth => hself hboth.2

theorem receive_coupled (c : ClientId) (packet : Packet) (opens : OpenResult) (h : Shadows p s t)
    (he : s.influences p (.receive c packet opens) = false)
    (hpermitted : permitted p (.receive c packet opens) = true) :
    Coupled Unchanged (Alike p) (receive c packet opens) (receive c packet opens) s t := by
  have hE := unchanged_piecewise
  have halike := h.toAlike
  unfold Coupled receive
  rcases halike.cases c with ⟨hs, ht⟩ | ⟨g, k, hs, ht, hsame⟩
  · rw [hs, ht]
    exact Coupled.skip hE halike
  · rw [hs, ht]
    dsimp only
    rw [← receives_alike hsame halike]
    split_ifs with hreceives
    · cases packet with
      | data d => exact onDataReceived_alike d hpermitted hsame halike
      | keepAlive => exact Coupled.skip hE halike
      | echo => exact emit_alike _ s t halike
      | portKill => exact stop_alike s t halike
      | portStatus lock =>
        cases lock with
        | true => exact acquireLock_alike hpermitted hsame halike
        | false =>
          refine releaseLock_alike opens hpermitted hsame halike fun _ hself => ?_
          have hstatus : (p c).portStatus = true := hpermitted
          refine h.same_last hs ht hself hstatus ?_
          simpa [influences, hs, hreceives, hself, hstatus] using he
    · exact Coupled.skip hE halike

theorem receive_dropped (c : ClientId) (packet : Packet) (opens : OpenResult) (h : Shadows p s t)
    (he : s.influences p (.receive c packet opens) = false)
    (hdropped : permitted p (.receive c packet opens) = false) :
    Coupled Unchanged (Alike p) (receive c packet opens) skip s t := by
  have hE := unchanged_piecewise
  have halike := h.toAlike
  unfold Coupled receive
  cases hs : s.handlers c with
  | none => exact Coupled.skip hE halike
  | some g =>
    dsimp only
    split_ifs with hreceives
    · cases packet with
      | data d =>
        have hdata : (p c).data = false := hdropped
        simp [influences, hs, hreceives, hdata] at he
      | portStatus lock =>
        have hstatus : (p c).portStatus = false := hdropped
        cases lock with
        | true =>
          refine acquireLock_intruder halike hstatus ((locked_iff h.counted (h.counted.registered hs)).mpr ?_)
          have hother : s.otherHolds p c = true := by simpa [influences, hs, hreceives, hstatus] using he
          obtain ⟨d, _, _, hholds⟩ := (otherHolds_iff h.counted.enrolled).mp hother
          exact ⟨d, hholds⟩
        | false => exact releaseLock_intruder opens h hs hstatus
      | keepAlive | echo | portKill => exact Bool.noConfusion hdropped
    · exact Coupled.skip hE halike

theorem step_coupled {e : Event} (h : Shadows p s t) (he : s.influences p e = false) :
    Coupled Unchanged (Alike p) (step e) (if permitted p e then step e else skip) s t := by
  have hE := unchanged_piecewise
  have halike := h.toAlike
  have hidle {a : Act} (ha : Respects Unchanged (Alike p) a) : Respects Unchanged (Alike p) (whenIdle a) :=
    .branch (fun _ _ h => by rw [h.calls]) ha (.skip hE)
  cases e with
  | attach c sap opens => exact attach_alike c sap opens h
  | disconnect c opens => exact disconnect_coupled c opens h he
  | receive c packet opens =>
    cases hpermitted : permitted p (.receive c packet opens) with
    | true => exact receive_coupled c packet opens h he hpermitted
    | false => exact receive_dropped c packet opens h he hpermitted
  | endReceiving c => exact endReceiving_alike c s t halike
  | proceed => exact proceed_alike s t halike
  | timer e => exact hidle (callProtocolState_alike _) s t halike
  | readCompletes i completion =>
    have hfilled : Respects Unchanged (Alike p) (update (fillReadBuffer completion.bytes)) :=
      .update hE fun _ _ h => { h with readBuffer := by rw [fillReadBuffer, h.readBuffer, fillReadBuffer] }
    have hcompleted : Respects Unchanged (Alike p) (readCompletes i completion) :=
      .andThen hE (.branch (fun _ _ h => by rw [h.serialPort]) hfilled (.skip hE))
        (.update hE fun _ _ h => { h with serialPort := congrArg (·.readCompletes i completion.result) h.serialPort })
    exact (hcompleted.ite (.skip hE)) s t halike
  | readHandler i => exact hidle (readHandler_alike i) s t halike
  | writeCompletes i result =>
    have hcompleted : Respects Unchanged (Alike p)
        (update fun s => { s with serialPort := s.serialPort.writeCompletes i result }) :=
      .update hE fun _ _ h => { h with serialPort := congrArg (·.writeCompletes i result) h.serialPort }
    refine Respects.branch (fun s t h => ?_) hcompleted (.skip hE) s t halike
    cases result with
    | success n => rw [validWrite, validWrite, h.serialPort]
    | error => rfl
  | writeHandler i => exact hidle (writeHandler_alike i) s t halike

theorem step_shadows {e : Event} (h : Shadows p s t) (he : s.influences p e = false) :
    Coupled Unchanged (Shadows p) (step e) (if permitted p e then step e else skip) s t := by
  obtain ⟨halike, hsame⟩ := step_coupled h he
  have hquiet {u : Port} {o : List Output} (hu : Locked u o) : Locked u [] :=
    ⟨⟨hu.enrolled, List.not_mem_nil, hu.retired, hu.balanced⟩, hu.current⟩
  refine ⟨⟨halike, hquiet (step_locked e s [] h.counted), ?_⟩, hsame⟩
  split_ifs
  · exact hquiet (step_locked e t [] h.counted')
  · exact h.counted'

theorem mem_wp {a : Act} {y : Output} (hy : y ∈ o) : a.wp (fun _ o => y ∈ o) s o := List.mem_append_left _ hy

theorem emit_mem {a : Act} (y : Output) : ((emit [y]).andThen a).wp (fun _ o => y ∈ o) s o :=
  wp_andThen.mpr (wp_emit.mpr (mem_wp (List.mem_append_right _ (List.mem_singleton.mpr rfl))))

theorem onDataReceived_passes {g : HdlcdServerHandler} (d : PacketData)
    (hawaits : g.serialPortHandlerAwaitsPacket = true) :
    .sendPayload c d ∈ (onDataReceived c g d s).2 := by
  have hpassed : (onDataReceived c g d).wp (fun _ o => .sendPayload c d ∈ o) s [] := by
    unfold onDataReceived
    rw [if_pos hawaits]
    refine wp_andThen.mpr (wp_emit.mpr (wp_andThen.mpr ?_))
    have hrest (s : Port) (o : List Output) : ((update (modifyHandler c fun h =>
        { h with pendingIncomingPacketData := some d })).andThen ((update (modifyHandler c fun h =>
        { h with serialPortHandlerAwaitsPacket := false })).andThen ((pushCall (.packetDelivery c)).andThen
          (deliverPayloadToHDLC c d)))).wp (fun _ o => .sendPayload c d ∈ o) s o :=
      wp_andThen.mpr (wp_update.mpr (wp_andThen.mpr (wp_update.mpr (wp_andThen.mpr (wp_update.mpr (emit_mem _))))))
    exact hrest _ _
  exact hpassed

theorem suspendSerialPort_suspends (hreg : s.registered = true)
    (hunlocked : s.serialPortLock.getSerialPortState = false) :
    .suspended ∈ (suspendSerialPort s).2 := by
  have hfirst : s.serialPortLock.suspendSerialPort.2 = true := by
    rw [SerialPortLock.getSerialPortState, bne_eq_false_iff_eq] at hunlocked
    rw [SerialPortLock.suspendSerialPort, hunlocked]
    rfl
  rw [suspendSerialPort, branch, if_pos hreg]
  dsimp only
  rw [hfirst]
  have hsuspended (s : Port) : (((emit [.suspended]).andThen ((callProtocolState ProtocolState.stop).andThen
      closeSerialPort)).andThen propagateSerialPortState).wp
        (fun _ o => .suspended ∈ o) s [] := wp_andThen.mpr (wp_mono (emit_mem _) fun _ _ hmem => mem_wp hmem)
  exact hsuspended _

theorem resumeSerialPort_resumes (opens : OpenResult) (hreg : s.registered = true)
    (hlast : s.serialPortLock.resumeSerialPort.2 = true) : .resumed ∈ (resumeSerialPort opens s).2 := by
  rw [resumeSerialPort, branch, if_pos hreg]
  dsimp only
  rw [hlast]
  have hresumed (s : Port) : ((emit [.resumed]).andThen (openSerialPort opens)).wp (fun _ o => .resumed ∈ o) s [] :=
    emit_mem _
  exact hresumed _

theorem mem_payloads {d : PacketData} (h : .sendPayload c d ∈ o) : payloads o ≠ [] :=
  List.ne_nil_of_mem (List.mem_filterMap.mpr ⟨_, h, rfl⟩)

theorem mem_suspensions (h : .suspended ∈ o ∨ .resumed ∈ o) : suspensions o ≠ [] := by
  rcases h with h | h
  · exact List.ne_nil_of_mem (List.mem_filterMap.mpr ⟨_, h, rfl⟩)
  · exact List.ne_nil_of_mem (List.mem_filterMap.mpr ⟨_, h, rfl⟩)

theorem stop_unseen (s : Port) : ∀ y ∈ (stop s).2, y.Unseen := by
  have happend {o xs : List Output} (ho : ∀ y ∈ o, y.Unseen) (hxs : ∀ y ∈ xs, y.Unseen) : ∀ y ∈ o ++ xs, y.Unseen :=
    fun y hy => (List.mem_append.mp hy).elim (ho y) (hxs y)
  have hstop : ∀ y ∈ [Output.stop], y.Unseen := by simp [Output.Unseen]
  have hstopped : stop.wp (fun _ o => ∀ y ∈ o, y.Unseen) s [] := by
    refine wp_andThen.mpr (wp_emit.mpr (wp_branch (fun _ => ?_) fun _ => wp_skip.mpr hstop))
    refine wp_andThen.mpr (wp_update.mpr (wp_andThen.mpr (wp_closeSerialPort (wp_andThen.mpr ?_))))
    have hthrown : ∀ y ∈ if s.serialPort.isOpen then [] else [Output.fault .cancelClosed], y.Unseen := by
      split_ifs <;> simp [Output.Unseen]
    have hshutdown (s : Port) := (callProtocolState_done ProtocolState.shutdown s).outputs
    refine happend (happend (happend hstop hthrown) fun y hy => (hshutdown _ y hy).unseen) fun y hy => ?_
    obtain ⟨c, -, rfl⟩ := List.mem_map.mp hy
    trivial
  exact hstopped

theorem resume_differs {g k : HdlcdServerHandler} (h : Shadows p s t) (hs : s.handlers c = some g)
    (ht : t.handlers c = some k) (hself : g.lockGuard.lockedBySelf = true) (hstatus : (p c).portStatus = true)
    (hothers : s.otherHolds p c = false) (hintruders : s.intruderHolds p = true) :
    s.serialPortLock.resumeSerialPort.2 = false ∧ t.serialPortLock.resumeSerialPort.2 = true := by
  refine ⟨?_, (h.last' hs ht hself hstatus).mpr hothers⟩
  refine Bool.eq_false_of_not_eq_true fun hlast => ?_
  exact absurd (((h.last hs ht hself hstatus).mp hlast).2.symm.trans hintruders) Bool.noConfusion

theorem resumeSerialPort_unseen (opens : OpenResult) (hreg : s.registered = true)
    (hremains : s.serialPortLock.resumeSerialPort.2 = false) : ∀ y ∈ (resumeSerialPort opens s).2, y.Unseen := by
  rw [resumeSerialPort_remains opens hreg hremains]
  exact fun y hy => ((propagateSerialPortState_done _).outputs y hy).unseen

theorem step_receive {g : HdlcdServerHandler} {packet : Packet} (opens : OpenResult) (hs : s.handlers c = some g)
    (hreceives : s.receives c g = true) : step (.receive c packet opens) s =
      (match packet with
        | .data d => onDataReceived c g d
        | packet => onCtrlReceived c g opens packet) s := by
  show receive c packet opens s = _
  unfold receive
  rw [hs]
  dsimp only
  rw [if_pos hreceives]
  cases packet <;> rfl

theorem data_differs {d : PacketData} {opens : OpenResult} (h : Shadows p s t)
    (he : s.influences p (.receive c (.data d) opens) = true) :
    (p c).data = false ∧ payloads (step (.receive c (.data d) opens) s).2 ≠ [] := by
  obtain ⟨g, hs, hg⟩ := (Option.any_eq_true _ _).mp he
  simp only [Bool.and_eq_true, Bool.not_eq_true'] at hg
  obtain ⟨hreceives, hdata⟩ := hg
  refine ⟨hdata, ?_⟩
  rcases h.toAlike.cases c with ⟨hnone, _⟩ | ⟨g', k, hs', _, hsame⟩
  · exact absurd (hnone.symm.trans hs) (Option.some_ne_none g).symm
  · have hawaits := (claims_eq hsame).1
    rw [hdata, ← Option.some.inj (hs.symm.trans hs')] at hawaits
    rw [step_receive opens hs hreceives]
    exact mem_payloads (onDataReceived_passes d hawaits)

theorem lock_differs {opens : OpenResult} (h : Shadows p s t)
    (he : s.influences p (.receive c (.portStatus true) opens) = true) :
    (p c).portStatus = false ∧ suspensions (step (.receive c (.portStatus true) opens) s).2 ≠ [] := by
  obtain ⟨g, hs, hg⟩ := (Option.any_eq_true _ _).mp he
  simp only [Bool.and_eq_true, Bool.not_eq_true'] at hg
  obtain ⟨⟨hreceives, hstatus⟩, hothers⟩ := hg
  have hreg := h.counted.registered hs
  have hunlocked : s.serialPortLock.getSerialPortState = false := by
    refine Bool.eq_false_of_not_eq_true fun hlocked => ?_
    obtain ⟨d, hwrites, hholds⟩ := h.holder hreg hlocked
    have hd : d ≠ c := by
      rintro rfl
      exact absurd (hstatus.symm.trans hwrites) Bool.noConfusion
    have hother := (otherHolds_iff h.counted.enrolled).mpr ⟨d, hd, hwrites, hholds⟩
    exact absurd (hothers.symm.trans hother) Bool.noConfusion
  have hself : ¬ g.lockGuard.lockedBySelf = true := by
    intro hself
    have hlocked := (locked_iff h.counted hreg).mpr ⟨c, (holds_eq hs).trans hself⟩
    exact absurd (hunlocked.symm.trans hlocked) Bool.noConfusion
  refine ⟨hstatus, mem_suspensions (.inl ?_)⟩
  rw [step_receive opens hs hreceives]
  show .suspended ∈ (acquireLock c g s).2
  rw [acquireLock, if_neg hself]
  exact suspendSerialPort_suspends (s := modifyHandler c (setLockedBySelf true) s) hreg hunlocked

theorem unlock_differs {opens : OpenResult} (h : Shadows p s t)
    (he : s.influences p (.receive c (.portStatus false) opens) = true) : (p c).portStatus = true ∧
      suspensions (step (.receive c (.portStatus false) opens) s).2 = [] ∧
      suspensions (step (.receive c (.portStatus false) opens) t).2 ≠ [] := by
  obtain ⟨g, hs, hg⟩ := (Option.any_eq_true _ _).mp he
  simp only [Bool.and_eq_true, Bool.not_eq_true'] at hg
  obtain ⟨⟨⟨⟨hreceives, hself⟩, hstatus⟩, hothers⟩, hintruders⟩ := hg
  refine ⟨hstatus, ?_⟩
  rcases h.toAlike.cases c with ⟨hnone, _⟩ | ⟨g', k, hs', ht, hsame⟩
  · exact absurd (hnone.symm.trans hs) (Option.some_ne_none g).symm
  · obtain rfl := Option.some.inj (hs.symm.trans hs')
    obtain ⟨hremains, hlast⟩ := resume_differs h hs ht hself hstatus hothers hintruders
    have hself' : k.lockGuard.lockedBySelf = true := by
      rw [← holds_eq ht, h.holds, hstatus, holds_eq hs, hself]
      rfl
    rw [step_receive opens hs hreceives, step_receive opens ht ((receives_alike hsame h.toAlike).symm.trans hreceives)]
    show suspensions (releaseLock c g opens s).2 = [] ∧ suspensions (releaseLock c k opens t).2 ≠ []
    rw [releaseLock, releaseLock, if_pos hself, if_pos hself']
    exact ⟨(unseen (resumeSerialPort_unseen (s := modifyHandler c (setLockedBySelf false) s) opens
        (h.counted.registered hs) hremains)).2, mem_suspensions (.inr (resumeSerialPort_resumes
        (s := modifyHandler c (setLockedBySelf false) t) opens (h.counted'.registered ht) hlast))⟩

theorem step_disconnect {g : HdlcdServerHandler} (opens : OpenResult) (hs : s.handlers c = some g)
    (hidle : s.calls.isEmpty = true) (hself : g.lockGuard.lockedBySelf = true) :
    step (.disconnect c opens) s = ((update (eraseHandler c)).andThen ((resumeSerialPort opens).andThen
      (branch (fun s => s.live.isEmpty) stop skip))) s := by
  show disconnect c opens s = _
  unfold disconnect
  rw [hs]
  dsimp only
  rw [if_pos hidle, if_pos hself]

theorem disconnect_differs {opens : OpenResult} (h : Shadows p s t) (he : s.influences p (.disconnect c opens) = true) :
    suspensions (step (.disconnect c opens) s).2 = [] ∧ suspensions (step (.disconnect c opens) t).2 ≠ [] := by
  obtain ⟨g, hs, hg⟩ := (Option.any_eq_true _ _).mp he
  simp only [Bool.and_eq_true, Bool.not_eq_true'] at hg
  obtain ⟨⟨⟨⟨hidle, hself⟩, hstatus⟩, hothers⟩, hintruders⟩ := hg
  rcases h.toAlike.cases c with ⟨hnone, _⟩ | ⟨g', k, hs', ht, hsame⟩
  · exact absurd (hnone.symm.trans hs) (Option.some_ne_none g).symm
  · obtain rfl := Option.some.inj (hs.symm.trans hs')
    obtain ⟨hremains, hlast⟩ := resume_differs h hs ht hself hstatus hothers hintruders
    have hself' : k.lockGuard.lockedBySelf = true := by
      rw [← holds_eq ht, h.holds, hstatus, holds_eq hs, hself]
      rfl
    rw [step_disconnect opens hs hidle hself, step_disconnect opens ht (h.calls ▸ hidle) hself']
    have hresumed := resumeSerialPort_resumes (s := eraseHandler c t) opens (h.counted'.registered ht) hlast
    have hunseen := resumeSerialPort_unseen (s := eraseHandler c s) opens (h.counted.registered hs) hremains
    refine ⟨(unseen fun y hy => ?_).2,
      mem_suspensions (.inr (List.mem_append_right _ (List.mem_append_left _ hresumed)))⟩
    rcases List.mem_append.mp ((List.mem_append.mp hy).resolve_left List.not_mem_nil) with hy | hy
    · exact hunseen y hy
    · unfold branch at hy
      split_ifs at hy
      · exact stop_unseen _ y hy
      · exact absurd hy List.not_mem_nil

theorem step_differs {e : Event} (h : Shadows p s t) (he : ¬ s.influences p e = false) :
    ¬ Unchanged (step e s).2 ((if permitted p e then step e else skip) t).2 := by
  rw [Bool.not_eq_false] at he
  rintro ⟨hpayloads, hsuspensions⟩
  cases e with
  | receive c packet opens =>
    cases packet with
    | data d =>
      obtain ⟨hdata, hdiffers⟩ := data_differs h he
      rw [if_neg (by rw [permitted, hdata]; exact Bool.false_ne_true)] at hpayloads
      exact hdiffers hpayloads
    | portStatus lock =>
      cases lock with
      | true =>
        obtain ⟨hstatus, hdiffers⟩ := lock_differs h he
        rw [if_neg (by rw [permitted, hstatus]; exact Bool.false_ne_true)] at hsuspensions
        exact hdiffers hsuspensions
      | false =>
        obtain ⟨hstatus, hnone, hdiffers⟩ := unlock_differs h he
        rw [if_pos (by rw [permitted, hstatus])] at hsuspensions
        exact hdiffers (hsuspensions.symm.trans hnone)
    | keepAlive | echo | portKill => exact Bool.noConfusion he
  | disconnect c opens =>
    obtain ⟨hnone, hdiffers⟩ := disconnect_differs h he
    have hsame : suspensions (step (.disconnect c opens) s).2 = suspensions (step (.disconnect c opens) t).2 :=
      hsuspensions
    exact hdiffers (hsame.symm.trans hnone)
  | _ => exact Bool.noConfusion he

theorem Shadows.initial (p : ClientId → Permissions) : Shadows p initial initial where
  registered := rfl
  serialPort := rfl
  protocolState := rfl
  readBuffer := rfl
  sendBuffer := rfl
  offset := rfl
  locked := rfl
  live := rfl
  connections := rfl
  calls := rfl
  handlers _ := rfl
  counted := .initial
  counted' := .initial

end

/-- Up to every point of a run, the packets without permission change neither what is passed to
`SendPayload` nor the suspends and resumes, exactly if no step makes use of a missing permission. -/
theorem read_only_iff (es : List Event) :
    (∀ pre, pre <+: es → Unchanged (run step pre initial).2
      (run step (pre.filter (permitted (granted es))) initial).2) ↔
    Along step (fun s e => s.influences (granted es) e = false) initial es := by
  simp only [run_filter]
  exact coupled_iff unchanged_piecewise (fun s t e he h => step_shadows h he)
    (fun s t e he h => step_differs h he) (Shadows.initial (granted es))

/-- A client that may only read hands over a data packet. -/
def readerWrites : List Event :=
  [.attach 0 0x00 .opened, .attach 1 0x20 .opened, .receive 1 (.data ⟨[0x41], true⟩) .opened]

theorem reader_influences : ¬ Unchanged (run step readerWrites initial).2
    (run step (readerWrites.filter (permitted (granted readerWrites))) initial).2 := by
  intro hsame
  exact absurd hsame.1 (by decide +kernel)

end Hdlcd.Port
