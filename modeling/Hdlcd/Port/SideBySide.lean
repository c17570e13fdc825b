import Hdlcd.Port.ActiveHandlers
import Hdlcd.Port.Line

/-! The serial port handlers of the daemon run side by side: each of them does what a port
does that is left alone with the events that concern it. -/

namespace Hdlcd
namespace SerialPortHandlerCollection
open Reactive Action Port

def portEvent (s : SerialPortHandlerCollection) : Event → Option (Nat × Port.Event)
  | .onFrame c serialPortName sap opens =>
    if (HdlcdServerHandler.onFrame sap).isSome && s.idle && !s.knows c then
      some ((s.getSerialPortHandler serialPortName).1, .attach c sap opens)
    else none
  | .onClosed i c opens _ => if s.idle then some (i, .disconnect c opens) else none
  | .handler i e _ =>
    match e with
    | .attach .. | .disconnect .. => none
    | e => if s.othersIdle i then some (i, e) else none
  | .destroyed .. => none

def eventsAt (i : Nat) (s : SerialPortHandlerCollection) (e : Event) : List Port.Event :=
  (s.portEvent e).toList.filterMap fun x => if x.1 = i then some x.2 else none

def portEvents (i : Nat) : SerialPortHandlerCollection → List Event → List Port.Event
  | _, [] => []
  | s, e :: es => s.eventsAt i e ++ portEvents i (step e s).1 es

/-- The port of the serial port handler, initial before it is created. -/
def portAt (s : SerialPortHandlerCollection) (i : Nat) : Port := (s.handlers[i]?).elim .initial (·.port)

/-- `Stop` is called once more when nobody owns a stopper of an ended serial port handler. -/
def unstopped (o : List Port.Output) : List Port.Output := o.filter fun y => decide (y ≠ .stop)

def outputsAt (i : Nat) (o : List (Nat × Port.Output)) : List Port.Output :=
  unstopped (o.filterMap fun y => if y.1 = i then some y.2 else none)

section
variable {s t : SerialPortHandlerCollection} {h : SerialPortHandler} {i j : Nat} {c : ClientId} {p q : Port}
  {a : Port.Act} {r : List ClientId} {e : Port.Event}

theorem unstopped_append (o o' : List Port.Output) : unstopped (o ++ o') = unstopped o ++ unstopped o' :=
  List.filter_append ..

theorem outputsAt_append (i : Nat) (o o' : List (Nat × Port.Output)) :
    outputsAt i (o ++ o') = outputsAt i o ++ outputsAt i o' := by
  unfold outputsAt
  rw [List.filterMap_append, unstopped_append]

theorem outputsAt_map (j i : Nat) (o : List Port.Output) :
    outputsAt j (o.map fun y => (i, y)) = if i = j then unstopped o else [] := by
  unfold outputsAt
  rw [List.filterMap_map]
  split_ifs with hij
  · refine congrArg unstopped ((List.filterMap_congr fun y _ => ?_).trans (List.filterMap_some))
    exact if_pos hij
  · refine congrArg unstopped (List.filterMap_eq_nil_iff.mpr fun y _ => ?_)
    exact if_neg hij

theorem portAt_some (hi : s.handlers[i]? = some h) : s.portAt i = h.port := by
  unfold portAt
  rw [hi]
  rfl

theorem After.portAt (hafter : After i h p s t) (hi : s.handlers[i]? = some h) (j : Nat) :
    t.portAt j = if i = j then p else s.portAt j := by
  unfold SerialPortHandlerCollection.portAt
  rw [hafter.getElem? hi]
  split_ifs <;> rfl

theorem onHandler_outputs (hi : s.handlers[i]? = some h) :
    (onHandler i a r s).2 = (a h.port).2.map fun y => (i, y) := by
  unfold onHandler
  rw [hi]

theorem unstopped_stop (hreg : p.registered = false) : unstopped (stop p).2 = [] := by
  rw [stop_dissolved hreg]
  rfl

theorem deleteStopper_silent (hi : s.handlers[i]? = some h) (hidle : h.port.registered = false ∨ s.owned i = true)
    (j : Nat) : outputsAt j (deleteStopper i s).2 = [] := by
  unfold deleteStopper branch
  split_ifs with howned
  · rfl
  · rw [onHandler_outputs hi, outputsAt_map, unstopped_stop (hidle.resolve_right howned), ite_self]

theorem released_outputs (hs : Registry s) (hi : s.handlers[i]? = some h) (hreg : h.port.registered = true)
    (hq : q.registered = true) (j : Nat) :
    outputsAt j (releaseStopper c i (onHandler i a r (put i h q (acquired c i s))).1).2 =
      if i = j then unstopped (branch (fun s => s.live.isEmpty) Port.stop skip (a q).1).2 else [] := by
  have hi' : (put i h q (acquired c i s)).handlers[i]? = some { h with port := q } := by
    rw [getElem?_put (s := acquired c i s) hi, if_pos rfl]
  have hreleased (t : SerialPortHandlerCollection) : (releaseStopper c i t).2 =
      (deleteStopper i { t with owners := t.owners.erase (c, i) }).2 := rfl
  rw [hreleased]
  cases hover : (a q).1.registered with
  | true =>
    have hkept : { (onHandler i a r (put i h q (acquired c i s))).1 with
        owners := (onHandler i a r (put i h q (acquired c i s))).1.owners.erase (c, i) } =
          put i h (a q).1 s := by
      rw [onHandler_kept hi' (.inr hover), put_put]
      show { put i h (a q).1 (acquired c i s) with owners := ((c, i) :: s.owners).erase (c, i) } = _
      rw [List.erase_cons_head]
      rfl
    have hi'' : (put i h (a q).1 s).handlers[i]? = some { h with port := (a q).1 } := by
      rw [getElem?_put hi, if_pos rfl]
    rw [hkept]
    cases hlive : (a q).1.live.isEmpty with
    | false =>
      have howned : (put i h (a q).1 s).owned i = true :=
        owned_of_live hi'' (List.isEmpty_eq_false_iff.mp hlive)
      rw [deleteStopper_silent hi'' (.inr howned), branch, hlive]
      exact (ite_self _).symm
    | true =>
      have howned : (put i h (a q).1 s).owned i = false :=
        (unowned_iff hi'').mpr ⟨hs.unshared hi hreg, List.isEmpty_iff.mp hlive⟩
      have hdeleted : (deleteStopper i (put i h (a q).1 s)).2 = (Port.stop (a q).1).2.map fun y => (i, y) := by
        have hcond : ¬ (put i h (a q).1 s).owned i = true := by rw [howned]; exact Bool.false_ne_true
        unfold deleteStopper branch
        rw [if_neg hcond, onHandler_outputs hi'']
      rw [hdeleted, outputsAt_map, branch, hlive]
      rfl
  | false =>
    have hgone : unstopped (branch (fun s => s.live.isEmpty) Port.stop skip (a q).1).2 = [] := by
      unfold branch
      split_ifs
      · exact unstopped_stop hover
      · rfl
    have hi'' : (onHandler i a r (put i h q (acquired c i s))).1.handlers[i]? =
        some { h with port := (a q).1 } := by
      rw [onHandler_ended hi' hq hover, ended_handlers, put_put, getElem?_put (s := acquired c i s) hi, if_pos rfl]
    have hsilent := deleteStopper_silent (s := { (onHandler i a r (put i h q (acquired c i s))).1 with
      owners := (onHandler i a r (put i h q (acquired c i s))).1.owners.erase (c, i) }) hi'' (.inl hover) j
    rw [hsilent, hgone, ite_self]

theorem branch_silent (hp : Reached p) (hp' : Attended p) :
    unstopped (branch (fun s => s.live.isEmpty) Port.stop skip p).2 = [] := by
  cases hreg : p.registered with
  | false =>
    unfold branch
    split_ifs
    · exact unstopped_stop hreg
    · rfl
  | true =>
    obtain ⟨c, hc⟩ := hp'.client hreg
    rw [branch, List.isEmpty_eq_false_iff.mpr (hp.live_ne hc)]
    rfl

def Alone (j : Nat) (es : List Port.Event) (s t : SerialPortHandlerCollection) (o : List (Nat × Port.Output)) : Prop :=
  t.portAt j = (run Port.step es (s.portAt j)).1 ∧ outputsAt j o = unstopped (run Port.step es (s.portAt j)).2

theorem Alone.none (hport : t.portAt j = s.portAt j) {o : List (Nat × Port.Output)} (ho : outputsAt j o = []) :
    Alone j [] s t o := ⟨hport, ho⟩

theorem Alone.event (hafter : After i h (Port.step e h.port).1 s t) (hi : s.handlers[i]? = some h)
    {o : List (Nat × Port.Output)} (ho : outputsAt j o = if i = j then unstopped (Port.step e h.port).2 else []) :
    Alone j (if i = j then [e] else []) s t o := by
  unfold Alone
  rw [hafter.portAt hi, ho]
  split_ifs with hij
  · subst hij
    rw [run_singleton, portAt_some hi]
    exact ⟨rfl, rfl⟩
  · exact ⟨rfl, rfl⟩

theorem eventsAt_some {e : Event} {e' : Port.Event} (he : s.portEvent e = some (i, e')) (j : Nat) :
    s.eventsAt j e = if i = j then [e'] else [] := by
  unfold eventsAt
  rw [he]
  by_cases hij : i = j
  · simp [hij]
  · simp [hij]

theorem eventsAt_none {e : Event} (he : s.portEvent e = none) (j : Nat) : s.eventsAt j e = [] := by
  unfold eventsAt
  rw [he]
  rfl

theorem attach_alone (hs : Registry s) (hi : s.handlers[i]? = some h) (hreg : h.port.registered = true)
    {sap : UInt8} {opens : OpenResult} (hp' : Attended (attach c sap opens h.port).1) (j : Nat) :
    Alone j (if i = j then [.attach c sap opens] else []) s
      ((acquireStopper c i).andThen ((onHandler i (attach c sap opens) []).andThen (releaseStopper c i)) s).1
      ((acquireStopper c i).andThen ((onHandler i (attach c sap opens) []).andThen (releaseStopper c i)) s).2 := by
  have hp : Reached (attach c sap opens h.port).1 := (hs.reached i h hi).step (.attach c sap opens)
  have hafter := attach_after (c := c) hs hi hreg hp'
  have hreleased := released_outputs (c := c) (a := attach c sap opens) (r := []) hs hi hreg hreg j
  rw [put_self (s := acquired c i s) hi, branch_silent hp hp', ite_self] at hreleased
  refine Alone.event hafter hi ?_
  show outputsAt j ([] ++ ((onHandler i (attach c sap opens) [] (acquired c i s)).2 ++
    (releaseStopper c i (onHandler i (attach c sap opens) [] (acquired c i s)).1).2)) = _
  rw [List.nil_append, outputsAt_append, hreleased, List.append_nil,
    onHandler_outputs (s := acquired c i s) hi, outputsAt_map]
  rfl

theorem portAt_created (serialPortName : String) (s : SerialPortHandlerCollection) (j : Nat) :
    (created serialPortName s).portAt j = s.portAt j := by
  unfold portAt
  rw [getElem?_created]
  split_ifs with hj
  · rw [hj, List.getElem?_eq_none (Nat.le_refl _)]
    rfl
  · rfl

theorem onSessionHeader_alone (hs : Staffed s) (c : ClientId) (serialPortName : String) (sap : UInt8)
    (opens : OpenResult) (j : Nat) : Alone j (s.eventsAt j (.onFrame c serialPortName sap opens)) s
      (onSessionHeader c serialPortName sap opens s).1 (onSessionHeader c serialPortName sap opens s).2 := by
  by_cases hcond : ((HdlcdServerHandler.onFrame sap).isSome && s.idle && !s.knows c) = true
  · have hevent : s.portEvent (.onFrame c serialPortName sap opens) =
        some ((s.getSerialPortHandler serialPortName).1, .attach c sap opens) := if_pos hcond
    rw [onSessionHeader_accepted hs hcond, eventsAt_some hevent]
    simp only [Bool.and_eq_true, Bool.not_eq_true'] at hcond
    obtain ⟨hh, hsap⟩ := Option.isSome_iff_exists.mp hcond.1.1
    unfold getSerialPortHandler
    cases hlock : s.lock serialPortName with
    | some i =>
      obtain ⟨h, hi, -, hreg⟩ := hs.registered_of_lock hlock
      have hattended : Attended (attach c sap opens h.port).1 :=
        step_attended (.attach c sap opens) h.port [] (hs.attended i h hi)
      exact attach_alone hs.toRegistry hi hreg hattended j
    | none =>
      have hi : (created serialPortName s).handlers[s.handlers.length]? =
          some { serialPortName := serialPortName } := by rw [getElem?_created, if_pos rfl]
      have hadded : Attended (withHandler c hh Port.initial) :=
        ⟨ProtocolState.Consistent.initial, fun _ => ⟨c, withHandler_isSome c hh _⟩⟩
      have hattended : Attended (attach c sap opens Port.initial).1 :=
        attdissolved_regular.attach_added (o := []) hsap rfl hadded opens
      have halone := attach_alone (c := c) (hs.create hlock) hi rfl hattended j
      unfold Alone at halone ⊢
      rwa [portAt_created] at halone
  · have hevent : s.portEvent (.onFrame c serialPortName sap opens) = Option.none := if_neg hcond
    rw [onSessionHeader_ignored hcond, eventsAt_none hevent]
    exact .none rfl rfl

theorem closed_alone (hs : Staffed s) (hi : s.handlers[i]? = some h) {client : HdlcdServerHandler}
    (hc : h.port.handlers c = some client) (hidle : s.idle = true) (opens : OpenResult) (r : List ClientId) (j : Nat) :
    Alone j (if i = j then [.disconnect c opens] else []) s (onClosed i c opens r s).1 (onClosed i c opens r s).2 := by
  obtain ⟨o, hlocked⟩ := (hs.reached i h hi).locked
  have hreg : h.port.registered = true := hlocked.registered hc
  have hcalls : h.port.calls.isEmpty = true := List.all_eq_true.mp hidle h (List.mem_of_getElem? hi)
  have hp : Reached (disconnect c opens h.port).1 := (hs.reached i h hi).step (.disconnect c opens)
  have hp' : Attended (disconnect c opens h.port).1 := attended_disconnect c opens h.port [] (hs.attended i h hi)
  have hleaves : disconnect c opens h.port =
      ((if client.lockGuard.lockedBySelf then resumeSerialPort opens else skip).andThen
        (branch (fun s => s.live.isEmpty) Port.stop skip)) (eraseHandler c h.port) := by
    unfold disconnect
    rw [hc]
    dsimp only
    rw [if_pos hcalls]
    rfl
  have hclosed : onClosed i c opens r s = ((acquireStopper c i).andThen
      ((onHandler i (update (Port.eraseHandler c)) []).andThen
        ((if client.lockGuard.lockedBySelf then onHandler i (Port.resumeSerialPort opens) r
          else skip).andThen (releaseStopper c i)))) s := by
    unfold onClosed
    rw [hi, Option.bind_some, hc]
    dsimp only
    rw [if_pos hidle]
  have herased : (onHandler i (update (eraseHandler c)) [] (acquired c i s)).1 =
      put i h (eraseHandler c h.port) (acquired c i s) :=
    onHandler_kept (a := update (eraseHandler c)) (s := acquired c i s) hi (.inr hreg)
  have hsilent : (onHandler i (update (eraseHandler c)) [] (acquired c i s)).2 = [] :=
    onHandler_outputs (s := acquired c i s) hi
  have hi' : (put i h (eraseHandler c h.port) (acquired c i s)).handlers[i]? =
      some { h with port := eraseHandler c h.port } := by
    rw [getElem?_put (s := acquired c i s) hi, if_pos rfl]
  have hresumed : (if client.lockGuard.lockedBySelf then onHandler i (resumeSerialPort opens) r else skip)
      (put i h (eraseHandler c h.port) (acquired c i s)) =
      onHandler i (if client.lockGuard.lockedBySelf then resumeSerialPort opens else skip) r
        (put i h (eraseHandler c h.port) (acquired c i s)) := by
    split_ifs
    · rfl
    · refine Prod.ext ?_ (onHandler_outputs (a := skip) (r := r) hi').symm
      rw [onHandler_kept hi' (.inr hreg)]
      exact (put_self hi').symm
  have hsteps : onClosed i c opens r s =
      ((onHandler i (if client.lockGuard.lockedBySelf then resumeSerialPort opens else skip) r).andThen
        (releaseStopper c i)) (put i h (eraseHandler c h.port) (acquired c i s)) := by
    rw [hclosed]
    show ((releaseStopper c i _).1, [] ++ (_ ++ (_ ++ _))) = _
    dsimp only [acquireStopper, update]
    rw [show ({ s with owners := (c, i) :: s.owners } : SerialPortHandlerCollection) = acquired c i s from rfl,
      herased, hsilent, hresumed, List.nil_append, List.nil_append]
    rfl
  have hend : (disconnect c opens h.port).1 = (branch (fun s => s.live.isEmpty) Port.stop skip
      ((if client.lockGuard.lockedBySelf then resumeSerialPort opens else skip) (eraseHandler c h.port)).1).1 := by
    rw [hleaves]
    rfl
  have hafter := released_after (c := c) (r := r)
    (a := if client.lockGuard.lockedBySelf then resumeSerialPort opens else skip) hs.toRegistry hi hreg
    (q := eraseHandler c h.port) hreg hp hp' hend
  have hreleased := released_outputs (c := c) (r := r)
    (a := if client.lockGuard.lockedBySelf then resumeSerialPort opens else skip) hs.toRegistry hi hreg
    (q := eraseHandler c h.port) hreg j
  rw [hsteps]
  refine Alone.event hafter hi ?_
  rw [andThen_apply, outputsAt_append, hreleased, onHandler_outputs hi', outputsAt_map]
  show _ = if i = j then unstopped (disconnect c opens h.port).2 else []
  rw [hleaves, andThen_apply, unstopped_append]
  split_ifs <;> rfl

theorem onClosed_alone (hs : Staffed s) (i : Nat) (c : ClientId) (opens : OpenResult) (r : List ClientId) (j : Nat) :
    Alone j (s.eventsAt j (.onClosed i c opens r)) s (onClosed i c opens r s).1 (onClosed i c opens r s).2 := by
  by_cases hidle : s.idle = true
  · have hevent : s.portEvent (.onClosed i c opens r) = some (i, .disconnect c opens) := if_pos hidle
    rw [eventsAt_some hevent]
    cases hclient : (s.handlers[i]?).bind fun h => h.port.handlers c with
    | some client =>
      obtain ⟨h, hi, hc⟩ := Option.bind_eq_some_iff.mp hclient
      exact closed_alone hs hi hc hidle opens r j
    | none =>
      have hgone : (s.portAt i).handlers c = none := by
        unfold portAt
        cases hi : s.handlers[i]? with
        | none => rfl
        | some h =>
          rw [hi] at hclient
          exact hclient
      have hclosed : onClosed i c opens r s = (s, []) := by
        unfold onClosed
        rw [hclient]
      have hnothing : disconnect c opens (s.portAt i) = (s.portAt i, []) := by
        unfold disconnect
        rw [hgone]
      rw [hclosed]
      split_ifs with hij
      · subst hij
        unfold Alone
        rw [run_singleton]
        show _ = (disconnect c opens (s.portAt i)).1 ∧ _ = unstopped (disconnect c opens (s.portAt i)).2
        rw [hnothing]
        exact ⟨rfl, rfl⟩
      · exact .none rfl rfl
  · have hevent : s.portEvent (.onClosed i c opens r) = none := if_neg hidle
    have hclosed : onClosed i c opens r s = (s, []) := by
      unfold onClosed
      split
      · rfl
      · rw [if_neg hidle]
    rw [eventsAt_none hevent, hclosed]
    exact .none rfl rfl

theorem handler_alone (hs : Staffed s) (i : Nat) {e : Port.Event} (he : ∀ c sap opens, e ≠ .attach c sap opens)
    (r : List ClientId) (j : Nat) : Alone j (if i = j then [e] else []) s
      ((onHandler i (Port.step e) r).andThen (if s.owned i then deleteStopper i else skip) s).1
      ((onHandler i (Port.step e) r).andThen (if s.owned i then deleteStopper i else skip) s).2 := by
  rw [andThen_apply]
  cases hi : s.handlers[i]? with
  | none =>
    have hdeleted : (if s.owned i then deleteStopper i else skip) s = (s, []) := by
      split_ifs with howned
      · exact if_pos howned
      · rfl
    rw [onHandler_none hi, hdeleted]
    split_ifs with hij
    · subst hij
      have hport : s.portAt i = Port.initial := by
        unfold portAt
        rw [hi]
        rfl
      have hnothing : Port.step e Port.initial = (Port.initial, []) := by
        rcases Wired.step_initial e with ⟨c, sap, opens, rfl⟩ | hnothing
        · exact absurd rfl (he c sap opens)
        · exact hnothing
      unfold Alone
      rw [run_singleton, hport, hnothing]
      exact ⟨rfl, rfl⟩
    · exact .none rfl rfl
  | some h =>
    have hreached := hs.reached i h hi
    have hattended : Attended (Port.step e h.port).1 := step_attended e h.port [] (hs.attended i h hi)
    have hafter := onHandler_after (r := r) (a := Port.step e) hs.toRegistry hi (hreached.step e)
    have hi' : (onHandler i (Port.step e) r s).1.handlers[i]? = some { h with port := (Port.step e h.port).1 } := by
      rw [hafter.handlers, getElem?_put hi, if_pos rfl]
    have hused : (Port.step e h.port).1.registered = false ∨ (onHandler i (Port.step e) r s).1.owned i = true := by
      cases hreg : (Port.step e h.port).1.registered with
      | false => exact .inl rfl
      | true =>
        obtain ⟨c, hc⟩ := hattended.client hreg
        exact .inr (owned_of_live hi' ((hreached.step e).live_ne hc))
    have hdeleted := deleteStopper_silent hi' hused j
    have hkept : ((if s.owned i then deleteStopper i else skip) (onHandler i (Port.step e) r s).1).1 =
        (onHandler i (Port.step e) r s).1 := by
      split_ifs
      · exact deleteStopper_idle hi' hused
      · rfl
    have hsilent : outputsAt j ((if s.owned i then deleteStopper i else skip)
        (onHandler i (Port.step e) r s).1).2 = [] := by
      split_ifs
      · exact hdeleted
      · rfl
    rw [hkept]
    refine Alone.event hafter hi ?_
    rw [outputsAt_append, hsilent, List.append_nil, onHandler_outputs hi, outputsAt_map]

theorem destroyed_alone (hs : Staffed s) (hc : (c, i) ∈ s.owners) (j : Nat) :
    Alone j [] s (releaseStopper c i s).1 (releaseStopper c i s).2 := by
  obtain ⟨h, hi, hover⟩ := hs.remaining (c, i) hc
  have hi' : ({ s with owners := s.owners.erase (c, i) } : SerialPortHandlerCollection).handlers[i]? = some h := hi
  have hkept : (releaseStopper c i s).1 = { s with owners := s.owners.erase (c, i) } :=
    deleteStopper_idle hi' (.inl hover)
  rw [hkept]
  exact .none rfl (deleteStopper_silent hi' (.inl hover) j)

theorem handler_event (i : Nat) (e : Port.Event) (r : List ClientId) :
    s.portEvent (.handler i e r) = none ∧ onEvent i e r s = (s, []) ∨
    s.portEvent (.handler i e r) = some (i, e) ∧ (∀ c sap opens, e ≠ .attach c sap opens) ∧
      onEvent i e r s =
        ((onHandler i (Port.step e) r).andThen (if s.owned i then deleteStopper i else skip)) s := by
  by_cases hidle : s.othersIdle i = true
  · cases e with
    | attach | disconnect => exact .inl ⟨rfl, rfl⟩
    | _ => exact .inr ⟨if_pos hidle, by simp, if_pos hidle⟩
  · refine .inl ?_
    cases e with
    | attach | disconnect => exact ⟨rfl, rfl⟩
    | _ => exact ⟨if_neg hidle, if_neg hidle⟩

theorem step_alone (hs : Staffed s) (e : Event) (j : Nat) :
    Alone j (s.eventsAt j e) s (step e s).1 (step e s).2 := by
  cases e with
  | onFrame c serialPortName sap opens => exact onSessionHeader_alone hs c serialPortName sap opens j
  | onClosed i c opens r => exact onClosed_alone hs i c opens r j
  | handler i e r =>
    show Alone j _ s (onEvent i e r s).1 (onEvent i e r s).2
    rcases handler_event (s := s) i e r with ⟨hnone, hnothing⟩ | ⟨hevent, he, hhandled⟩
    · rw [eventsAt_none hnone, hnothing]
      exact .none rfl rfl
    · rw [eventsAt_some hevent, hhandled]
      exact handler_alone hs i he r j
  | destroyed c i =>
    show Alone j [] s (branch _ (releaseStopper c i) skip s).1 (branch _ (releaseStopper c i) skip s).2
    unfold branch
    split_ifs with hc
    · exact destroyed_alone hs (List.contains_iff_mem.mp hc) j
    · exact .none rfl rfl

/-- In every run of the daemon, each serial port handler does exactly what a port does that is
alone with the events that concern it, whatever the other ones do meanwhile. -/
theorem run_sideBySide (es : List Event) (i : Nat) :
    (run SerialPortHandlerCollection.step es initial).1.portAt i =
        (run Port.step (portEvents i initial es) Port.initial).1 ∧
      outputsAt i (run SerialPortHandlerCollection.step es initial).2 =
        unstopped (run Port.step (portEvents i initial es) Port.initial).2 := by
  have hall : ∀ s, Staffed s → (run SerialPortHandlerCollection.step es s).1.portAt i =
        (run Port.step (portEvents i s es) (s.portAt i)).1 ∧
      outputsAt i (run SerialPortHandlerCollection.step es s).2 =
        unstopped (run Port.step (portEvents i s es) (s.portAt i)).2 := by
    induction es with
    | nil => exact fun s _ => ⟨rfl, rfl⟩
    | cons e es ih =>
      intro s hs
      obtain ⟨hport, ho⟩ := step_alone hs e i
      obtain ⟨hport', ho'⟩ := ih _ (hs.step e)
      rw [portEvents, run_append, andThen_apply, unstopped_append, ← hport, ← ho]
      exact ⟨hport', by rw [run, andThen_apply, outputsAt_append, ho']⟩
  exact hall initial .initial

end
end SerialPortHandlerCollection
end Hdlcd
