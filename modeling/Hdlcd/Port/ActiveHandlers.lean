import Hdlcd.SerialPort.SerialPortHandlerCollection
import Hdlcd.Port.Locks
import Hdlcd.Port.Sessions

/-! At most one serial port handler of a name is registered, and the collection leads to it. -/

namespace Hdlcd

namespace Port
open Reactive Action ProtocolState

/-- A registered serial port handler has a client. -/
structure Attended (s : Port) : Prop where
  consistent : Consistent s.protocolState
  client : s.registered = true → ∃ c, (s.handlers c).isSome

/-- A serial port handler that ended. -/
structure Dissolved (s : Port) : Prop where
  consistent : Consistent s.protocolState
  unregistered : s.registered = false

def Reached (s : Port) : Prop := ∃ es, s = (run step es initial).1

section
variable {s t : Port} {o : List Output} {c : ClientId}

theorem withHandler_isSome (c : ClientId) (h : HdlcdServerHandler) (s : Port) :
    ((withHandler c h s).handlers c).isSome := by
  unfold withHandler
  dsimp only
  rw [if_pos rfl]
  rfl

theorem consistent_regular : Regular fun s => Consistent s.protocolState where
  consistent hs := hs
  retired hps _ := hps
  members _ hps _ := hps
  enroll _ _ hs := hs

theorem attdissolved_regular : Regular Attended where
  consistent hs := hs.consistent
  retired hps hreg := ⟨hps, fun ht => absurd (hreg.symm.trans ht) Bool.false_ne_true⟩
  members hs hps hsame := by
    simp only [tenureMembers, Prod.mk.injEq] at hsame
    obtain ⟨hreg, _, hhandlers, _⟩ := hsame
    refine ⟨hps, fun ht => ?_⟩
    obtain ⟨c, hc⟩ := hs.client (hreg ▸ ht)
    exact ⟨c, (congrFun hhandlers c).trans hc⟩
  enroll c h hs := ⟨hs.consistent, fun _ => ⟨c, withHandler_isSome c h _⟩⟩

theorem dissolved_regular : Regular Dissolved where
  consistent hs := hs.consistent
  retired hps hreg := ⟨hps, hreg⟩
  members hs hps hsame := ⟨hps, (congrArg (·.1) hsame).trans hs.unregistered⟩
  enroll _ _ hs := ⟨hs.consistent, hs.unregistered⟩

theorem attended_disconnect (c : ClientId) (opens : OpenResult) : Maintains (Always Attended) (disconnect c opens) := by
  intro s o hs
  unfold wp disconnect
  split
  · exact hs
  · rename_i h _
    have hreleased := (consistent_regular.resumeSerialPort opens).ite (p := h.lockGuard.lockedBySelf = true) .skip
    have herased : Consistent (eraseHandler c s).protocolState := hs.consistent
    have hended : ∀ t o, Consistent t.protocolState →
        (branch (fun s => s.live.isEmpty) stop skip).wp (Always Attended) t o := by
      intro t o hps
      refine wp_branch (fun _ => attdissolved_regular.stop_from hps) fun hlive => wp_skip.mpr ⟨hps, fun _ => ?_⟩
      rw [List.isEmpty_eq_false_iff_exists_mem] at hlive
      obtain ⟨d, hd⟩ := hlive
      exact ⟨d, (List.mem_filter.mp hd).2⟩
    by_cases hidle : s.calls.isEmpty = true
    · rw [if_pos hidle]
      exact wp_andThen.mpr (wp_update.mpr (wp_andThen.mpr (wp_mono (hreleased _ o herased) hended)))
    · rw [if_neg hidle]
      exact hs

theorem step_attended (e : Event) : Maintains (Always Attended) (step e) :=
  attdissolved_regular.step attended_disconnect e

theorem step_dissolved (e : Event) : Maintains (Always Dissolved) (step e) :=
  dissolved_regular.step (dissolved_regular.disconnect fun hs => ⟨hs.consistent, hs.unregistered⟩) e

theorem stop_dissolved (hreg : s.registered = false) : stop s = (s, [.stop]) := by
  unfold stop branch
  simp only [andThen_apply, emit, hreg, Bool.false_eq_true, if_false, skip, List.append_nil]

theorem stop_over (s : Port) : (stop s).1.registered = false := by
  cases hreg : s.registered with
  | false => rw [stop_dissolved hreg, hreg]
  | true =>
    have hstopped : stop.wp (fun t _ => t.registered = false) s [] := by
      refine wp_andThen.mpr (wp_emit.mpr (wp_branch (fun _ => ?_) fun hover => wp_skip.mpr hover))
      refine wp_andThen.mpr (wp_update.mpr (wp_andThen.mpr (wp_closeSerialPort ?_)))
      exact (congrArg (·.1) (rebuildSubscriptions_served _).same).trans
        (congrArg (·.1) (callProtocolState_done ProtocolState.shutdown _).served.same)
    exact hstopped

theorem Reached.step (hs : Reached s) (e : Event) : Reached (step e s).1 := by
  obtain ⟨es, rfl⟩ := hs
  refine ⟨es ++ [e], ?_⟩
  rw [run_append, run_singleton]
  rfl

theorem Reached.locked (hs : Reached s) : ∃ o, Locked s o := by
  obtain ⟨es, rfl⟩ := hs
  exact ⟨_, run_locked es⟩

theorem Reached.live (hs : Reached s) (hreg : s.registered = false) : s.live = [] := by
  obtain ⟨o, hlocked⟩ := hs.locked
  refine List.filter_eq_nil_iff.mpr fun c _ => ?_
  rw [hlocked.retired hreg c]
  exact Bool.false_ne_true

theorem Reached.live_ne (hs : Reached s) (hc : (s.handlers c).isSome) : s.live ≠ [] := by
  obtain ⟨o, hlocked⟩ := hs.locked
  exact List.ne_nil_of_mem (hlocked.enrolled.mem_live.mpr hc)

theorem Reached.dissolved (hs : Reached s) (hreg : s.registered = false) (e : Event) :
    (Port.step e s).1.registered = false := by
  obtain ⟨o, hlocked⟩ := hs.locked
  have hended := step_dissolved e s o ⟨hlocked.enrolled.consistent, hreg⟩
  exact hended.unregistered

theorem propagate_branch_tenure (s : Port) :
    tenureMembers (branch (·.protocolState.started) propagateSerialPortState skip s).1 = tenureMembers s := by
  unfold branch
  split_ifs
  · exact (propagateSerialPortState_served s).tenure
  · rfl

theorem initLockGuard_tenure (c : ClientId) (s : Port) :
    tenureMembers (initLockGuard c s).1 = tenureMembers s := by
  unfold initLockGuard
  split
  · rfl
  · exact (propagateSerialPortState_served s).tenure

theorem attach_attached (hs : Reached s) (hattended : Attended s) (hreg : s.registered = true)
    (hidle : s.calls.isEmpty = true) (hnew : s.connections.contains c = false) {sap : UInt8}
    (hsap : (HdlcdServerHandler.onFrame sap).isSome) (opens : OpenResult) :
    (attach c sap opens s).1.registered = true ∧ ((attach c sap opens s).1.handlers c).isSome := by
  obtain ⟨h, hsap⟩ := Option.isSome_iff_exists.mp hsap
  obtain ⟨d, hd⟩ := hattended.client hreg
  obtain ⟨o, hlocked⟩ := hs.locked
  have hlater : s.connections.isEmpty = false := by
    have hmem := hlocked.enrolled.known d (hlocked.enrolled.listed d hd)
    exact List.isEmpty_eq_false_iff_exists_mem.mpr ⟨d, hmem⟩
  have htenure : tenureMembers (attach c sap opens s).1 = tenureMembers (withHandler c h s) := by
    unfold attach
    rw [hsap]
    simp only [hreg, hidle, hnew, Bool.not_false, Bool.and_self, if_true]
    rw [addClient, hlater, if_neg Bool.false_ne_true]
    exact (initLockGuard_tenure c _).trans (propagate_branch_tenure _)
  simp only [tenureMembers, Prod.mk.injEq] at htenure
  obtain ⟨hreg', _, hhandlers, _⟩ := htenure
  exact ⟨hreg'.trans hreg, (congrFun hhandlers c).trans (withHandler_isSome c h s)⟩

end
end Port

namespace SerialPortHandlerCollection
open Reactive Action Port

def put (i : Nat) (h : SerialPortHandler) (p : Port) (s : SerialPortHandlerCollection) :
    SerialPortHandlerCollection := { s with handlers := s.handlers.set i { h with port := p } }

section
variable {s t : SerialPortHandlerCollection} {i j : Nat} {h h' : SerialPortHandler} {p : Port} {c : ClientId}
  {a : Port.Act} {r : List ClientId} {serialPortName : String}

theorem getElem?_put (hi : s.handlers[i]? = some h) (p : Port) (j : Nat) :
    (put i h p s).handlers[j]? = if i = j then some { h with port := p } else s.handlers[j]? := by
  have hlt : i < s.handlers.length := (List.getElem?_eq_some_iff.mp hi).1
  unfold put
  rw [List.getElem?_set]
  split_ifs <;> rfl

theorem put_self (hi : s.handlers[i]? = some h) : put i h h.port s = s := by
  obtain ⟨hlt, hget⟩ := List.getElem?_eq_some_iff.mp hi
  have hsame : s.handlers.set i h = s.handlers := by
    rw [← hget]
    exact List.set_getElem_self hlt
  unfold put
  rw [hsame]

theorem owned_eq (hi : s.handlers[i]? = some h) :
    s.owned i = (s.owners.any (fun x => x.2 == i) || !h.port.live.isEmpty) := by
  unfold owned
  rw [hi]
  rfl

theorem owned_of_live (hi : s.handlers[i]? = some h) (hlive : h.port.live ≠ []) : s.owned i = true := by
  rw [owned_eq hi, List.isEmpty_eq_false_iff.mpr hlive, Bool.not_false, Bool.or_true]

theorem unowned_iff (hi : s.handlers[i]? = some h) :
    s.owned i = false ↔ (∀ x ∈ s.owners, x.2 ≠ i) ∧ h.port.live = [] := by
  rw [owned_eq hi]
  simp

theorem deregister_handlers (i : Nat) (s : SerialPortHandlerCollection) :
    (s.deregisterSerialPortHandler i).handlers = s.handlers := by
  unfold deregisterSerialPortHandler
  split <;> rfl

theorem deregister_unowned (howned : s.owned i = false) : s.deregisterSerialPortHandler i = s := by
  have hnone : (s.serialPortHandlerMap.entries.find? fun it => s.owned it.2 && it.2 == i) = none := by
    refine List.find?_eq_none.mpr fun it _ hit => ?_
    simp only [Bool.and_eq_true, beq_iff_eq] at hit
    rw [hit.2, howned] at hit
    exact Bool.false_ne_true hit.1
  unfold deregisterSerialPortHandler
  rw [hnone]

theorem deregister_other (hne : j ≠ i) (hj : s.serialPortHandlerMap.lookup serialPortName = some j) :
    (s.deregisterSerialPortHandler i).serialPortHandlerMap.lookup serialPortName = some j := by
  unfold deregisterSerialPortHandler
  split
  · rename_i it hit
    have hfound := List.find?_some hit
    simp only [Bool.and_eq_true, beq_iff_eq] at hfound
    have hentry : s.serialPortHandlerMap.lookup it.1 = some it.2 :=
      AList.mem_lookup_iff.mpr (List.mem_of_find?_eq_some hit)
    have hname : serialPortName ≠ it.1 := by
      rintro rfl
      rw [hj, hfound.2] at hentry
      exact hne (Option.some.inj hentry)
    show (s.serialPortHandlerMap.erase it.1).lookup serialPortName = some j
    rw [AList.lookup_erase_ne hname]
    exact hj
  · exact hj

theorem deregister_lookup {name : String}
    (hname : ∀ n, s.serialPortHandlerMap.lookup n = some i → n = name) (howned : s.owned i = true) (n : String) :
    (s.deregisterSerialPortHandler i).serialPortHandlerMap.lookup n =
      if s.serialPortHandlerMap.lookup n = some i then none else s.serialPortHandlerMap.lookup n := by
  split_ifs with hn
  · unfold deregisterSerialPortHandler
    split
    · rename_i it hit
      have hfound := List.find?_some hit
      simp only [Bool.and_eq_true, beq_iff_eq] at hfound
      have hentry : s.serialPortHandlerMap.lookup it.1 = some i :=
        hfound.2 ▸ AList.mem_lookup_iff.mpr (List.mem_of_find?_eq_some hit)
      have hsame : n = it.1 := (hname n hn).trans (hname it.1 hentry).symm
      show (s.serialPortHandlerMap.erase it.1).lookup n = none
      rw [hsame, AList.lookup_erase]
    · rename_i hnone
      have hentry := List.find?_eq_none.mp hnone ⟨n, i⟩ (AList.mem_lookup_iff.mp hn)
      simp [howned] at hentry
  · cases hlookup : s.serialPortHandlerMap.lookup n with
    | some j => exact deregister_other (fun hji => hn (hji ▸ hlookup)) hlookup
    | none =>
      unfold deregisterSerialPortHandler
      split
      · rename_i it hit
        have hname : n ≠ it.1 := by
          rintro rfl
          have hentry : s.serialPortHandlerMap.lookup it.1 = some it.2 :=
            AList.mem_lookup_iff.mpr (List.mem_of_find?_eq_some hit)
          exact Option.some_ne_none _ (hentry.symm.trans hlookup)
        show (s.serialPortHandlerMap.erase it.1).lookup n = none
        rw [AList.lookup_erase_ne hname]
        exact hlookup
      · exact hlookup

theorem onHandler_none (hi : s.handlers[i]? = none) : onHandler i a r s = (s, []) := by
  unfold onHandler
  rw [hi]

theorem onHandler_kept (hi : s.handlers[i]? = some h)
    (hreg : h.port.registered = false ∨ (a h.port).1.registered = true) :
    (onHandler i a r s).1 = put i h (a h.port).1 s := by
  have hcond : ¬ (h.port.registered && !(a h.port).1.registered) = true := by
    rcases hreg with hreg | hreg <;> simp [hreg]
  unfold onHandler
  rw [hi]
  dsimp only
  rw [if_neg hcond]
  rfl

def ended (i : Nat) (h : SerialPortHandler) (p : Port) (r : List ClientId)
    (s : SerialPortHandlerCollection) : SerialPortHandlerCollection :=
  put i h p { s.deregisterSerialPortHandler i with
    owners := s.owners ++ (h.port.live.filter fun c => r.contains c).map fun c => (c, i) }

theorem onHandler_ended (hi : s.handlers[i]? = some h) (hreg : h.port.registered = true)
    (hover : (a h.port).1.registered = false) :
    (onHandler i a r s).1 = ended i h (a h.port).1 r s := by
  unfold onHandler ended put
  rw [hi]
  dsimp only
  rw [hreg, hover, Bool.not_false, Bool.and_self, if_pos rfl]
  dsimp only
  rw [deregister_handlers]

theorem deleteStopper_idle (hi : s.handlers[i]? = some h) (hidle : h.port.registered = false ∨ s.owned i = true) :
    (deleteStopper i s).1 = s := by
  unfold deleteStopper branch
  split_ifs with howned
  · rfl
  · have hreg := hidle.resolve_right howned
    rw [onHandler_kept hi (.inl hreg), stop_dissolved hreg, put_self hi]

/-- The map leads to the registered serial port handlers, and to expired pointers. -/
structure Registry (s : SerialPortHandlerCollection) : Prop where
  reached : ∀ (i : Nat) (h : SerialPortHandler), s.handlers[i]? = some h → Reached h.port
  -- whoever else owns a stopper was stopped with its serial port handler
  remaining : ∀ x ∈ s.owners, ∃ h : SerialPortHandler, s.handlers[x.2]? = some h ∧ h.port.registered = false
  mapped : ∀ (i : Nat) (h : SerialPortHandler), s.handlers[i]? = some h → h.port.registered = true →
    s.serialPortHandlerMap.lookup h.serialPortName = some i
  entry : ∀ n i, s.serialPortHandlerMap.lookup n = some i →
    ∃ h : SerialPortHandler, s.handlers[i]? = some h ∧ h.serialPortName = n ∧
      (h.port.registered = true ∨ s.owned i = false)

/-- What an event of a serial port handler does to the collection. -/
structure After (i : Nat) (h : SerialPortHandler) (p : Port) (s t : SerialPortHandlerCollection) : Prop where
  handlers : t.handlers = (put i h p s).handlers
  owners : ∀ x ∈ t.owners, x ∈ s.owners ∨ x.2 = i ∧ p.registered = false
  map : t.serialPortHandlerMap = s.serialPortHandlerMap ∧ (p.registered = true ∨ t.owned i = false ∨
      h.port.registered = false ∧ (s.owned i = false → t.owned i = false)) ∨
    p.registered = false ∧ ∀ n, t.serialPortHandlerMap.lookup n =
      if s.serialPortHandlerMap.lookup n = some i then none else s.serialPortHandlerMap.lookup n

theorem Registry.name (hs : Registry s) (hi : s.handlers[i]? = some h) {n : String}
    (hn : s.serialPortHandlerMap.lookup n = some i) : n = h.serialPortName := by
  obtain ⟨h', hi', hname, _⟩ := hs.entry n i hn
  rw [← hname, Option.some.inj (hi.symm.trans hi')]

theorem Registry.unshared (hs : Registry s) (hi : s.handlers[i]? = some h) (hreg : h.port.registered = true) :
    ∀ x ∈ s.owners, x.2 ≠ i := by
  intro x hx hxi
  obtain ⟨h', hi', hover⟩ := hs.remaining x hx
  rw [hxi, hi] at hi'
  rw [← Option.some.inj hi', hreg] at hover
  exact Bool.noConfusion hover

theorem After.getElem? (hafter : After i h p s t) (hi : s.handlers[i]? = some h) (j : Nat) :
    t.handlers[j]? = if i = j then some { h with port := p } else s.handlers[j]? := by
  rw [hafter.handlers, getElem?_put hi]

theorem After.owned_other (hafter : After i h p s t) (hi : s.handlers[i]? = some h) (hne : j ≠ i)
    (howned : s.owned j = false) : t.owned j = false := by
  have hsame : t.handlers[j]? = s.handlers[j]? := by
    rw [hafter.getElem? hi, if_neg (Ne.symm hne)]
  unfold owned at howned ⊢
  rw [hsame]
  rw [Bool.or_eq_false_iff] at howned ⊢
  refine ⟨List.any_eq_false.mpr fun x hx => ?_, howned.2⟩
  rcases hafter.owners x hx with hold | ⟨hxi, _⟩
  · exact List.any_eq_false.mp howned.1 x hold
  · rw [hxi, beq_iff_eq]
    exact Ne.symm hne

theorem Registry.remaining_after (hs : Registry s) (hi : s.handlers[i]? = some h)
    (hreg : h.port.registered = false → p.registered = false) (hafter : After i h p s t) {x : ClientId × Nat}
    (hx : x ∈ t.owners) : ∃ h', t.handlers[x.2]? = some h' ∧ h'.port.registered = false := by
  have hended (hover : p.registered = false) (hx : x.2 = i) :
      ∃ h', t.handlers[x.2]? = some h' ∧ h'.port.registered = false := by
    refine ⟨{ h with port := p }, ?_, hover⟩
    rw [hafter.getElem? hi, if_pos hx.symm]
  rcases hafter.owners x hx with hold | ⟨hxi, hover⟩
  · obtain ⟨h', hj, hover⟩ := hs.remaining x hold
    by_cases hxi : x.2 = i
    · rw [hxi, hi] at hj
      exact hended (hreg (Option.some.inj hj ▸ hover)) hxi
    · exact ⟨h', by rw [hafter.getElem? hi, if_neg (Ne.symm hxi), hj], hover⟩
  · exact hended hover hxi

theorem Registry.mapped_after (hs : Registry s) (hi : s.handlers[i]? = some h)
    (hreg : h.port.registered = false → p.registered = false) (hafter : After i h p s t)
    (hj : t.handlers[j]? = some h') (hj' : h'.port.registered = true) :
    t.serialPortHandlerMap.lookup h'.serialPortName = some j := by
  rw [hafter.getElem? hi] at hj
  split_ifs at hj with hij
  · have hh := Option.some.inj hj
    subst hij hh
    have hmapped := hs.mapped i h hi (Bool.eq_true_of_not_eq_false fun hover =>
      Bool.false_ne_true ((hreg hover).symm.trans hj'))
    rcases hafter.map with ⟨hsame, _⟩ | ⟨hover, _⟩
    · rw [hsame]
      exact hmapped
    · exact absurd (hover.symm.trans hj') Bool.false_ne_true
  · have hmapped := hs.mapped j h' hj hj'
    rcases hafter.map with ⟨hsame, _⟩ | ⟨_, hlookup⟩
    · rw [hsame]
      exact hmapped
    · rw [hlookup, hmapped, if_neg fun hji => hij (Option.some.inj hji).symm]

theorem Registry.entry_after (hs : Registry s) (hi : s.handlers[i]? = some h) (hafter : After i h p s t) {n : String}
    (hn : t.serialPortHandlerMap.lookup n = some j) : ∃ h', t.handlers[j]? = some h' ∧
      h'.serialPortName = n ∧ (h'.port.registered = true ∨ t.owned j = false) := by
  have hother (hij : i ≠ j) (hn : s.serialPortHandlerMap.lookup n = some j) : ∃ h', t.handlers[j]? = some h' ∧
      h'.serialPortName = n ∧ (h'.port.registered = true ∨ t.owned j = false) := by
    obtain ⟨h', hj, hname, hright⟩ := hs.entry n j hn
    have hsame : t.handlers[j]? = some h' := by rw [hafter.getElem? hi, if_neg hij, hj]
    exact ⟨h', hsame, hname, hright.imp_right (hafter.owned_other hi (Ne.symm hij))⟩
  rcases hafter.map with ⟨hsame, hright⟩ | ⟨_, hlookup⟩
  · rw [hsame] at hn
    by_cases hij : i = j
    · subst hij
      obtain ⟨h', hj, hname, hbefore⟩ := hs.entry n i hn
      have hh := Option.some.inj (hi.symm.trans hj)
      subst hh
      refine ⟨{ h with port := p }, by rw [hafter.getElem? hi, if_pos rfl], hname, ?_⟩
      rcases hright with hp | hexpired | ⟨hover, hexpired⟩
      · exact .inl hp
      · exact .inr hexpired
      · exact .inr (hexpired (hbefore.resolve_left fun ht => Bool.false_ne_true (hover.symm.trans ht)))
    · exact hother hij hn
  · rw [hlookup] at hn
    split_ifs at hn with hni
    refine hother (fun hij => hni ?_) hn
    rw [hij]
    exact hn

theorem Registry.after (hs : Registry s) (hi : s.handlers[i]? = some h) (hp : Reached p)
    (hreg : h.port.registered = false → p.registered = false) (hafter : After i h p s t) : Registry t where
  reached j h' hj := by
    rw [hafter.getElem? hi] at hj
    split_ifs at hj
    · rw [← Option.some.inj hj]
      exact hp
    · exact hs.reached j h' hj
  remaining _ hx := hs.remaining_after hi hreg hafter hx
  mapped _ _ hj hj' := hs.mapped_after hi hreg hafter hj hj'
  entry _ _ hn := hs.entry_after hi hafter hn

theorem ended_handlers (i : Nat) (h : SerialPortHandler) (p : Port) (r : List ClientId)
    (s : SerialPortHandlerCollection) : (ended i h p r s).handlers = (put i h p s).handlers := by
  unfold ended put
  dsimp only
  rw [deregister_handlers]

theorem ended_owners {x : ClientId × Nat} (hx : x ∈ (ended i h p r s).owners) :
    x ∈ s.owners ∨ x.2 = i := by
  rcases List.mem_append.mp hx with hold | hnew
  · exact .inl hold
  · obtain ⟨c, _, rfl⟩ := List.mem_map.mp hnew
    exact .inr rfl

theorem ended_unowned (hi : s.handlers[i]? = some h) (hp : p.live = []) (howned : s.owned i = false) :
    (ended i h p r s).owned i = false := by
  obtain ⟨hnobody, hlive⟩ := (unowned_iff hi).mp howned
  have hi' : (ended i h p r s).handlers[i]? = some { h with port := p } := by
    rw [ended_handlers, getElem?_put hi, if_pos rfl]
  refine (unowned_iff hi').mpr ⟨fun x hx => ?_, hp⟩
  have hsame : (ended i h p r s).owners = s.owners := by
    show s.owners ++ _ = _
    rw [hlive]
    exact List.append_nil _
  exact hnobody x (hsame ▸ hx)

theorem onHandler_after (hs : Registry s) (hi : s.handlers[i]? = some h) (hp : Reached (a h.port).1) :
    After i h (a h.port).1 s (onHandler i a r s).1 := by
  cases hreg' : (a h.port).1.registered with
  | true =>
    rw [onHandler_kept hi (.inr hreg')]
    exact ⟨rfl, fun x hx => .inl hx, .inl ⟨rfl, .inl hreg'⟩⟩
  | false =>
    have hlive := hp.live hreg'
    cases hreg : h.port.registered with
    | false =>
      rw [onHandler_kept hi (.inl hreg)]
      refine ⟨rfl, fun x hx => .inl hx, .inl ⟨rfl, .inr (.inr ⟨hreg, fun howned => ?_⟩)⟩⟩
      have hi' : (put i h (a h.port).1 s).handlers[i]? = some { h with port := (a h.port).1 } := by
        rw [getElem?_put hi, if_pos rfl]
      exact (unowned_iff hi').mpr ⟨((unowned_iff hi).mp howned).1, hlive⟩
    | true =>
      rw [onHandler_ended hi hreg hreg']
      refine ⟨ended_handlers .., fun x hx => (ended_owners hx).imp_right fun hxi => ⟨hxi, hreg'⟩, ?_⟩
      cases howned : s.owned i with
      | true => exact .inr ⟨hreg', fun n => deregister_lookup (fun _ hn => hs.name hi hn) howned n⟩
      | false =>
        have hsame := deregister_unowned howned
        refine .inl ⟨congrArg (·.serialPortHandlerMap) hsame, .inr (.inl ?_)⟩
        exact ended_unowned hi hlive howned

/-- Between events, every registered serial port handler has a client. -/
structure Staffed (s : SerialPortHandlerCollection) : Prop extends Registry s where
  attended : ∀ (i : Nat) (h : SerialPortHandler), s.handlers[i]? = some h → Attended h.port

theorem Staffed.after (hs : Staffed s) (hi : s.handlers[i]? = some h) (hp : Reached p) (hp' : Attended p)
    (hover : h.port.registered = false → p.registered = false) (hafter : After i h p s t) : Staffed t := by
  refine ⟨hs.toRegistry.after hi hp hover hafter, fun j h' hj => ?_⟩
  rw [hafter.handlers, getElem?_put hi] at hj
  split_ifs at hj
  · rw [← Option.some.inj hj]
    exact hp'
  · exact hs.attended j h' hj

theorem deleteStopper_after (hi : s.handlers[i]? = some h) (hp : Reached p) (hp' : Attended p)
    (hafter : After i h p s t) : (deleteStopper i t).1 = t := by
  have hi' : t.handlers[i]? = some { h with port := p } := by
    rw [hafter.handlers, getElem?_put hi, if_pos rfl]
  refine deleteStopper_idle hi' ?_
  cases hreg : p.registered with
  | false => exact .inl rfl
  | true =>
    obtain ⟨c, hc⟩ := hp'.client hreg
    exact .inr (owned_of_live hi' (hp.live_ne hc))

theorem Staffed.handler (hs : Staffed s) (i : Nat) (e : Port.Event) (r : List ClientId) :
    Staffed ((onHandler i (Port.step e) r).andThen (if s.owned i then deleteStopper i else skip) s).1 := by
  have hboth (t : SerialPortHandlerCollection) (ht : (deleteStopper i t).1 = t) :
      ((if s.owned i then deleteStopper i else skip) t).1 = t := by
    split_ifs
    · exact ht
    · rfl
  rw [andThen_apply]
  cases hi : s.handlers[i]? with
  | none =>
    rw [onHandler_none hi]
    refine (hboth s ?_).symm ▸ hs
    unfold deleteStopper branch
    split_ifs
    · rfl
    · rw [onHandler_none hi]
  | some h =>
    have hreached := hs.reached i h hi
    have hattended : Attended (Port.step e h.port).1 := step_attended e h.port [] (hs.attended i h hi)
    have hafter := onHandler_after (r := r) (a := Port.step e) hs.toRegistry hi (hreached.step e)
    refine (hboth _ (deleteStopper_after hi (hreached.step e) hattended hafter)).symm ▸ ?_
    exact hs.after hi (hreached.step e) hattended (fun hover => hreached.dissolved hover e) hafter

theorem Staffed.destroyed (hs : Staffed s) (hc : (c, i) ∈ s.owners) : Staffed (releaseStopper c i s).1 := by
  obtain ⟨h, hi, hover⟩ := hs.remaining (c, i) hc
  have hleft : After i h h.port s { s with owners := s.owners.erase (c, i) } := by
    refine ⟨?_, fun x hx => .inl (List.mem_of_mem_erase hx), .inl ⟨rfl, .inr (.inr ⟨hover, fun howned => ?_⟩)⟩⟩
    · rw [put_self hi]
    · exact absurd ((unowned_iff hi).mp howned).1 fun hnobody => hnobody (c, i) hc rfl
  have hreached := hs.reached i h hi
  have hattended := hs.attended i h hi
  show Staffed (deleteStopper i { s with owners := s.owners.erase (c, i) }).1
  rw [deleteStopper_after hi hreached hattended hleft]
  exact hs.after hi hreached hattended id hleft

theorem put_put (i : Nat) (h : SerialPortHandler) (p q : Port) (s : SerialPortHandlerCollection) :
    put i { h with port := p } q (put i h p s) = put i h q s := by
  unfold put
  dsimp only
  rw [List.set_set]

def acquired (c : ClientId) (i : Nat) (s : SerialPortHandlerCollection) : SerialPortHandlerCollection :=
  { s with owners := (c, i) :: s.owners }

theorem release_kept (hs : Registry s) (hi : s.handlers[i]? = some h) (hreg : h.port.registered = true) {q : Port}
    (hq : q.registered = true) (hp : Reached p) (hp' : Attended p)
    (hend : p = (branch (fun s => s.live.isEmpty) Port.stop skip q).1) :
    After i h p s (releaseStopper c i (put i h q (acquired c i s))).1 := by
  have hreleased : (releaseStopper c i (put i h q (acquired c i s))).1 = (deleteStopper i (put i h q s)).1 := by
    show (deleteStopper i { put i h q (acquired c i s) with owners := ((c, i) :: s.owners).erase (c, i) }).1 = _
    rw [List.erase_cons_head]
    rfl
  have hi' : (put i h q s).handlers[i]? = some { h with port := q } := by rw [getElem?_put hi, if_pos rfl]
  rw [hreleased]
  cases hlive : q.live.isEmpty with
  | false =>
    have hsame : p = q := by
      rw [hend, branch, hlive]
      rfl
    subst hsame
    have hafter : After i h p s (put i h p s) := ⟨rfl, fun x hx => .inl hx, .inl ⟨rfl, .inl hq⟩⟩
    rw [deleteStopper_after hi hp hp' hafter]
    exact hafter
  | true =>
    have hstopped : p = (Port.stop q).1 := by
      rw [hend, branch, hlive]
      rfl
    have hover : p.registered = false := hstopped ▸ stop_over q
    have howned : (put i h q s).owned i = false :=
      (unowned_iff hi').mpr ⟨hs.unshared hi hreg, List.isEmpty_iff.mp hlive⟩
    have hdeleted : (deleteStopper i (put i h q s)).1 = ended i { h with port := q } p [] (put i h q s) := by
      unfold deleteStopper branch
      simp only [howned, Bool.false_eq_true, if_false]
      rw [hstopped]
      exact onHandler_ended hi' hq (hstopped ▸ hover)
    have hgone := ended_unowned (r := []) hi' (hp.live hover) howned
    rw [hdeleted]
    refine ⟨?_, fun x hx => ?_, .inl ⟨?_, .inr (.inl hgone)⟩⟩
    · rw [ended_handlers, put_put]
    · exact (ended_owners hx).imp_right fun hxi => ⟨hxi, hover⟩
    · exact congrArg (·.serialPortHandlerMap) (deregister_unowned howned)

theorem release_ended (hs : Registry s) (hi : s.handlers[i]? = some h) {q : Port} (hp : Reached p)
    (hp' : Attended p) (hover : p.registered = false) :
    After i h p s (releaseStopper c i (ended i { h with port := q } p r (put i h q (acquired c i s)))).1 := by
  have howned : (put i h q (acquired c i s)).owned i = true := by
    have hbefore : (put i h q (acquired c i s)).owners.any (fun x => x.2 == i) = true := by
      show ((c, i) :: s.owners).any (fun x => x.2 == i) = true
      rw [List.any_cons, beq_self_eq_true, Bool.true_or]
    unfold owned
    rw [hbefore, Bool.true_or]
  have hlookup := deregister_lookup (s := put i h q (acquired c i s)) (fun _ hn => hs.name hi hn) howned
  have hafter : After i h p s { ended i { h with port := q } p r (put i h q (acquired c i s)) with
      owners := (ended i { h with port := q } p r (put i h q (acquired c i s))).owners.erase (c, i) } := by
    refine ⟨?_, fun x hx => ?_, .inr ⟨hover, hlookup⟩⟩
    · show (ended i { h with port := q } p r (put i h q (acquired c i s))).handlers = _
      rw [ended_handlers, put_put]
      rfl
    · rcases ended_owners (List.mem_of_mem_erase hx) with hold | hxi
      · rcases List.mem_cons.mp hold with rfl | hold
        · exact .inr ⟨rfl, hover⟩
        · exact .inl hold
      · exact .inr ⟨hxi, hover⟩
  show After i h p s (deleteStopper i { ended i { h with port := q } p r (put i h q (acquired c i s)) with
    owners := (ended i { h with port := q } p r (put i h q (acquired c i s))).owners.erase (c, i) }).1
  rw [deleteStopper_after hi hp hp' hafter]
  exact hafter

theorem released_after (hs : Registry s) (hi : s.handlers[i]? = some h) (hreg : h.port.registered = true) {q : Port}
    (hq : q.registered = true) (hp : Reached p) (hp' : Attended p)
    (hend : p = (branch (fun s => s.live.isEmpty) Port.stop skip (a q).1).1) :
    After i h p s (releaseStopper c i (onHandler i a r (put i h q (acquired c i s))).1).1 := by
  have hi' : (put i h q (acquired c i s)).handlers[i]? = some { h with port := q } := by
    rw [getElem?_put (s := acquired c i s) hi, if_pos rfl]
  cases hover : (a q).1.registered with
  | true =>
    rw [onHandler_kept hi' (.inr hover), put_put]
    exact release_kept hs hi hreg hover hp hp' hend
  | false =>
    have hsame : p = (a q).1 := by
      rw [hend, branch, stop_dissolved hover]
      split_ifs <;> rfl
    rw [onHandler_ended hi' hq hover, ← hsame]
    exact release_ended hs hi hp hp' (hsame ▸ hover)

theorem branch_idle (hp : Reached p) (hp' : Attended p) :
    p = (branch (fun s => s.live.isEmpty) Port.stop skip p).1 := by
  cases hreg : p.registered with
  | false =>
    rw [branch, stop_dissolved hreg]
    split_ifs <;> rfl
  | true =>
    obtain ⟨c, hc⟩ := hp'.client hreg
    rw [branch, List.isEmpty_eq_false_iff.mpr (hp.live_ne hc)]
    rfl

theorem attach_after (hs : Registry s) (hi : s.handlers[i]? = some h) (hreg : h.port.registered = true)
    {sap : UInt8} {opens : OpenResult} (hp' : Attended (attach c sap opens h.port).1) :
    After i h (attach c sap opens h.port).1 s
      ((acquireStopper c i).andThen ((onHandler i (attach c sap opens) []).andThen (releaseStopper c i)) s).1 := by
  have hp : Reached (attach c sap opens h.port).1 := (hs.reached i h hi).step (.attach c sap opens)
  have hafter := released_after (c := c) (r := []) (a := attach c sap opens) hs hi hreg hreg hp hp'
    (branch_idle hp hp')
  rw [put_self (s := acquired c i s) hi] at hafter
  exact hafter

theorem Staffed.lock_of_registered (hs : Staffed s) (hi : s.handlers[i]? = some h)
    (hreg : h.port.registered = true) : s.lock h.serialPortName = some i := by
  obtain ⟨c, hc⟩ := (hs.attended i h hi).client hreg
  unfold lock
  rw [hs.mapped i h hi hreg, Option.filter_some, owned_of_live hi ((hs.reached i h hi).live_ne hc), if_pos rfl]

theorem Registry.registered_of_lock (hs : Registry s) (hlock : s.lock serialPortName = some i) :
    ∃ h, s.handlers[i]? = some h ∧ h.serialPortName = serialPortName ∧ h.port.registered = true := by
  obtain ⟨hentry, howned⟩ := Option.filter_eq_some_iff.mp hlock
  obtain ⟨h, hi, hname, hright⟩ := hs.entry serialPortName i hentry
  exact ⟨h, hi, hname, hright.resolve_right fun hexpired => Bool.false_ne_true (hexpired.symm.trans howned)⟩

def created (serialPortName : String) (s : SerialPortHandlerCollection) : SerialPortHandlerCollection :=
  { s with
    handlers := s.handlers ++ [{ serialPortName := serialPortName }]
    serialPortHandlerMap := s.serialPortHandlerMap.insert serialPortName s.handlers.length }

theorem getElem?_created (serialPortName : String) (s : SerialPortHandlerCollection) (j : Nat) :
    (created serialPortName s).handlers[j]? =
      if j = s.handlers.length then some { serialPortName := serialPortName } else s.handlers[j]? := by
  show (s.handlers ++ [_])[j]? = _
  rcases Nat.lt_trichotomy j s.handlers.length with hlt | rfl | hgt
  · rw [List.getElem?_append_left hlt, if_neg (Nat.ne_of_lt hlt)]
  · rw [List.getElem?_concat_length, if_pos rfl]
  · rw [if_neg (Nat.ne_of_gt hgt), List.getElem?_eq_none (Nat.le_of_lt hgt), List.getElem?_eq_none]
    rw [List.length_append]
    exact hgt

theorem Staffed.create (hs : Staffed s) (hlock : s.lock serialPortName = none) :
    Registry (created serialPortName s) := by
  have hold {j : Nat} {h : SerialPortHandler} (hj : s.handlers[j]? = some h) :
      (created serialPortName s).handlers[j]? = some h := by
    have hne : j ≠ s.handlers.length := Nat.ne_of_lt (List.getElem?_eq_some_iff.mp hj).1
    rw [getElem?_created, if_neg hne, hj]
  refine ⟨fun j h hj => ?_, fun x hx => ?_, fun j h hj hreg => ?_, fun n j hn => ?_⟩
  · rw [getElem?_created] at hj
    split_ifs at hj
    · rw [← Option.some.inj hj]
      exact ⟨[], rfl⟩
    · exact hs.reached j h hj
  · obtain ⟨h, hx, hover⟩ := hs.remaining x hx
    exact ⟨h, hold hx, hover⟩
  · show (s.serialPortHandlerMap.insert serialPortName s.handlers.length).lookup h.serialPortName = some j
    rw [getElem?_created] at hj
    split_ifs at hj with hjl
    · rw [← Option.some.inj hj, AList.lookup_insert, hjl]
    · have hname : h.serialPortName ≠ serialPortName := by
        rintro rfl
        rw [hs.lock_of_registered hj hreg] at hlock
        exact Option.some_ne_none j hlock
      rw [AList.lookup_insert_ne hname]
      exact hs.mapped j h hj hreg
  · have hn' : (s.serialPortHandlerMap.insert serialPortName s.handlers.length).lookup n = some j := hn
    by_cases hname : n = serialPortName
    · rw [hname, AList.lookup_insert] at hn'
      refine ⟨{ serialPortName := serialPortName }, ?_, hname.symm, .inl rfl⟩
      rw [getElem?_created, if_pos (Option.some.inj hn').symm]
    · rw [AList.lookup_insert_ne hname] at hn'
      obtain ⟨h, hj, hh, hright⟩ := hs.entry n j hn'
      refine ⟨h, hold hj, hh, hright.imp_right fun howned => ?_⟩
      exact (unowned_iff (hold hj)).mpr ((unowned_iff hj).mp howned)

theorem getSerialPortHandler_ready (hs : Staffed s) (hidle : s.idle = true) (hnew : s.knows c = false)
    (serialPortName : String) : ∃ h, (s.getSerialPortHandler serialPortName).2.handlers[
      (s.getSerialPortHandler serialPortName).1]? = some h ∧
      (h.port.registered && h.port.calls.isEmpty && !h.port.connections.contains c) = true := by
  unfold getSerialPortHandler
  cases hlock : s.lock serialPortName with
  | some i =>
    obtain ⟨h, hi, -, hreg⟩ := hs.registered_of_lock hlock
    have hmem := List.mem_of_getElem? hi
    have hcalls := List.all_eq_true.mp hidle h hmem
    have hunknown := List.any_eq_false.mp hnew h hmem
    rw [Bool.not_eq_true] at hunknown
    refine ⟨h, hi, ?_⟩
    rw [hreg, hcalls, hunknown]
    rfl
  | none =>
    refine ⟨{ serialPortName := serialPortName }, ?_, rfl⟩
    show (created serialPortName s).handlers[s.handlers.length]? = _
    rw [getElem?_created, if_pos rfl]

theorem onFrame_attach (hs : Staffed s) {sap : UInt8} {client : HdlcdServerHandler}
    (hsap : HdlcdServerHandler.onFrame sap = some client) (hidle : s.idle = true) (hnew : s.knows c = false)
    (serialPortName : String) (opens : OpenResult) :
    onFrame c serialPortName client opens s =
      ((acquireStopper c (s.getSerialPortHandler serialPortName).1).andThen
        ((onHandler (s.getSerialPortHandler serialPortName).1 (attach c sap opens) []).andThen
          (releaseStopper c (s.getSerialPortHandler serialPortName).1)))
        (s.getSerialPortHandler serialPortName).2 := by
  obtain ⟨h, hi, hready⟩ := getSerialPortHandler_ready hs hidle hnew serialPortName
  have hadmitted : attach c sap opens h.port = addClient c client opens h.port := by
    unfold attach
    rw [hsap]
    exact if_pos hready
  have hsame : onHandler (s.getSerialPortHandler serialPortName).1 (attach c sap opens) []
      (acquireStopper c (s.getSerialPortHandler serialPortName).1 (s.getSerialPortHandler serialPortName).2).1 =
      onHandler (s.getSerialPortHandler serialPortName).1 (addClient c client opens) []
        (acquireStopper c (s.getSerialPortHandler serialPortName).1 (s.getSerialPortHandler serialPortName).2).1 := by
    have hi' : (acquireStopper c (s.getSerialPortHandler serialPortName).1
        (s.getSerialPortHandler serialPortName).2).1.handlers[(s.getSerialPortHandler serialPortName).1]? =
        some h := hi
    unfold onHandler
    rw [hi']
    dsimp only
    rw [hadmitted]
  unfold SerialPortHandlerCollection.onFrame
  simp only [andThen_apply, hsame]

theorem onSessionHeader_accepted (hs : Staffed s) {sap : UInt8}
    (hcond : ((HdlcdServerHandler.onFrame sap).isSome && s.idle && !s.knows c) = true) (serialPortName : String)
    (opens : OpenResult) :
    onSessionHeader c serialPortName sap opens s =
      ((acquireStopper c (s.getSerialPortHandler serialPortName).1).andThen
        ((onHandler (s.getSerialPortHandler serialPortName).1 (attach c sap opens) []).andThen
          (releaseStopper c (s.getSerialPortHandler serialPortName).1)))
        (s.getSerialPortHandler serialPortName).2 := by
  simp only [Bool.and_eq_true, Bool.not_eq_true'] at hcond
  obtain ⟨client, hsap⟩ := Option.isSome_iff_exists.mp hcond.1.1
  unfold onSessionHeader
  rw [hsap, hcond.1.2, hcond.2]
  exact onFrame_attach hs hsap hcond.1.2 hcond.2 serialPortName opens

theorem onSessionHeader_ignored {sap : UInt8}
    (hcond : ¬ ((HdlcdServerHandler.onFrame sap).isSome && s.idle && !s.knows c) = true) (serialPortName : String)
    (opens : OpenResult) : onSessionHeader c serialPortName sap opens s = (s, []) := by
  unfold onSessionHeader
  split
  · rfl
  · rename_i h hsap
    refine if_neg fun haccepted => hcond ?_
    rw [hsap, Option.isSome_some, Bool.true_and]
    exact haccepted

theorem Staffed.onSessionHeader (hs : Staffed s) (c : ClientId) (serialPortName : String) (sap : UInt8)
    (opens : OpenResult) : Staffed (onSessionHeader c serialPortName sap opens s).1 := by
  by_cases hcond : ((HdlcdServerHandler.onFrame sap).isSome && s.idle && !s.knows c) = true
  · rw [onSessionHeader_accepted hs hcond]
    simp only [Bool.and_eq_true, Bool.not_eq_true'] at hcond
    obtain ⟨hh, hsap⟩ := Option.isSome_iff_exists.mp hcond.1.1
    unfold getSerialPortHandler
    cases hlock : s.lock serialPortName with
    | some i =>
      obtain ⟨h, hi, -, hreg⟩ := hs.registered_of_lock hlock
      have hattended : Attended (attach c sap opens h.port).1 :=
        step_attended (.attach c sap opens) h.port [] (hs.attended i h hi)
      have hafter := attach_after hs.toRegistry hi hreg hattended
      exact hs.after hi ((hs.reached i h hi).step (.attach c sap opens)) hattended
        (fun hover => absurd (hover.symm.trans hreg) Bool.false_ne_true) hafter
    | none =>
      have hnew := hs.create hlock
      have hi : (created serialPortName s).handlers[s.handlers.length]? =
          some { serialPortName := serialPortName } := by rw [getElem?_created, if_pos rfl]
      have hadded : Attended (withHandler c hh Port.initial) :=
        ⟨ProtocolState.Consistent.initial, fun _ => ⟨c, withHandler_isSome c hh _⟩⟩
      have hattended : Attended (attach c sap opens Port.initial).1 :=
        attdissolved_regular.attach_added (o := []) hsap rfl hadded opens
      have hafter := attach_after hnew hi rfl hattended
      have hover : Port.initial.registered = false → (attach c sap opens Port.initial).1.registered = false :=
        fun hover => absurd hover (by decide)
      refine ⟨hnew.after hi ((hnew.reached _ _ hi).step (.attach c sap opens)) hover hafter, fun j h hj => ?_⟩
      have hj' := hafter.handlers ▸ hj
      rw [getElem?_put hi] at hj'
      split_ifs at hj' with hjl
      · rw [← Option.some.inj hj']
        exact hattended
      · rw [getElem?_created, if_neg (Ne.symm hjl)] at hj'
        exact hs.attended j h hj'
  · rw [onSessionHeader_ignored hcond]
    exact hs

theorem Staffed.onClosed (hs : Staffed s) (i : Nat) (c : ClientId) (opens : OpenResult) (r : List ClientId) :
    Staffed (onClosed i c opens r s).1 := by
  unfold SerialPortHandlerCollection.onClosed
  split
  · exact hs
  · rename_i client hclient
    by_cases hidle : s.idle = true
    · rw [if_pos hidle]
      obtain ⟨h, hi, hc⟩ := Option.bind_eq_some_iff.mp hclient
      have hreached := hs.reached i h hi
      obtain ⟨o, hlocked⟩ := hreached.locked
      have hreg : h.port.registered = true := hlocked.registered hc
      have hcalls : h.port.calls.isEmpty = true := List.all_eq_true.mp hidle h (List.mem_of_getElem? hi)
      have hp : Reached (disconnect c opens h.port).1 := hreached.step (.disconnect c opens)
      have hp' : Attended (disconnect c opens h.port).1 := attended_disconnect c opens h.port [] (hs.attended i h hi)
      have hend : (disconnect c opens h.port).1 = (branch (fun s => s.live.isEmpty) Port.stop skip
          ((if client.lockGuard.lockedBySelf then resumeSerialPort opens else skip) (eraseHandler c h.port)).1).1 := by
        unfold disconnect
        rw [hc]
        dsimp only
        rw [if_pos hcalls]
        rfl
      have hafter := released_after (c := c) (r := r)
        (a := if client.lockGuard.lockedBySelf then resumeSerialPort opens else skip) hs.toRegistry hi hreg
        (q := eraseHandler c h.port) hreg hp hp' hend
      have herased : (onHandler i (update (eraseHandler c)) [] (acquired c i s)).1 =
          put i h (eraseHandler c h.port) (acquired c i s) :=
        onHandler_kept (a := update (eraseHandler c)) (s := acquired c i s) hi (.inr hreg)
      have hi' : (put i h (eraseHandler c h.port) (acquired c i s)).handlers[i]? =
          some { h with port := eraseHandler c h.port } := by
        rw [getElem?_put (s := acquired c i s) hi, if_pos rfl]
      have hresumed : ((if client.lockGuard.lockedBySelf then onHandler i (resumeSerialPort opens) r else skip)
          (put i h (eraseHandler c h.port) (acquired c i s))).1 =
          (onHandler i (if client.lockGuard.lockedBySelf then resumeSerialPort opens else skip) r
            (put i h (eraseHandler c h.port) (acquired c i s))).1 := by
        split_ifs
        · rfl
        · rw [onHandler_kept hi' (.inr hreg)]
          exact (put_self hi').symm
      refine hs.after hi hp hp' (fun hover => absurd (hover.symm.trans hreg) Bool.false_ne_true) ?_
      show After i h _ s (releaseStopper c i ((if client.lockGuard.lockedBySelf then
        onHandler i (resumeSerialPort opens) r else skip)
          (onHandler i (update (eraseHandler c)) [] (acquired c i s)).1).1).1
      rw [herased, hresumed]
      exact hafter
    · rw [if_neg hidle]
      exact hs

theorem Staffed.step (hs : Staffed s) (e : Event) : Staffed (step e s).1 := by
  cases e with
  | onFrame c serialPortName sap opens => exact hs.onSessionHeader c serialPortName sap opens
  | onClosed i c opens r => exact hs.onClosed i c opens r
  | handler i e r =>
    show Staffed (onEvent i e r s).1
    unfold onEvent
    split
    · exact hs
    · exact hs
    · by_cases hidle : s.othersIdle i = true
      · rw [if_pos hidle]
        exact hs.handler i _ r
      · rw [if_neg hidle]
        exact hs
  | destroyed c i =>
    show Staffed (branch _ (releaseStopper c i) skip s).1
    unfold branch
    split_ifs with hc
    · exact hs.destroyed (List.contains_iff_mem.mp hc)
    · exact hs

theorem Staffed.initial : Staffed initial where
  reached _ _ hi := absurd hi (by simp [SerialPortHandlerCollection.initial])
  remaining _ hx := absurd hx List.not_mem_nil
  mapped _ _ hi := absurd hi (by simp [SerialPortHandlerCollection.initial])
  entry _ _ hn := absurd hn (by simp [SerialPortHandlerCollection.initial])
  attended _ _ hi := absurd hi (by simp [SerialPortHandlerCollection.initial])

theorem run_staffed (es : List Event) : Staffed (run SerialPortHandlerCollection.step es initial).1 :=
  run_invariant SerialPortHandlerCollection.step (C := fun _ _ => True) (fun _ e _ hs => hs.step e) .initial
    (along_of_forall _ (fun _ _ _ => trivial) _)

/-- At most one serial port handler of a name is registered. The map leads to it, new clients
of the name are attached to it, and no other one removes its entry. -/
structure OneActive (s : SerialPortHandlerCollection) : Prop where
  unique : ∀ {i j : Nat} {h h' : SerialPortHandler}, s.handlers[i]? = some h → s.handlers[j]? = some h' →
    h.port.registered = true → h'.port.registered = true → h.serialPortName = h'.serialPortName → i = j
  mapped : ∀ {i : Nat} {h : SerialPortHandler}, s.handlers[i]? = some h → h.port.registered = true →
    s.serialPortHandlerMap.lookup h.serialPortName = some i ∧ s.lock h.serialPortName = some i
  attaches : ∀ {i : Nat} {h : SerialPortHandler} {c : ClientId} {sap : UInt8} (opens : OpenResult),
    s.handlers[i]? = some h → h.port.registered = true → s.idle = true → s.knows c = false →
    (HdlcdServerHandler.onFrame sap).isSome →
    ∃ h' : SerialPortHandler, (step (.onFrame c h.serialPortName sap opens) s).1.handlers = s.handlers.set i h' ∧
      h'.serialPortName = h.serialPortName ∧ h'.port.registered = true ∧ (h'.port.handlers c).isSome
  kept : ∀ {i j : Nat} {n : String}, j ≠ i → s.serialPortHandlerMap.lookup n = some j →
    (s.deregisterSerialPortHandler i).serialPortHandlerMap.lookup n = some j

theorem onFrame_attaches (hs : Staffed s) {sap : UInt8} (opens : OpenResult) (hi : s.handlers[i]? = some h)
    (hreg : h.port.registered = true) (hidle : s.idle = true) (hnew : s.knows c = false)
    (hsap : (HdlcdServerHandler.onFrame sap).isSome) :
    ∃ h' : SerialPortHandler, (step (.onFrame c h.serialPortName sap opens) s).1.handlers = s.handlers.set i h' ∧
      h'.serialPortName = h.serialPortName ∧ h'.port.registered = true ∧ (h'.port.handlers c).isSome := by
  have hmem := List.mem_of_getElem? hi
  have hattached := attach_attached (hs.reached i h hi) (hs.attended i h hi) hreg
    (List.all_eq_true.mp hidle h hmem) (Bool.eq_false_of_not_eq_true fun hc =>
      Bool.false_ne_true (hnew.symm.trans (List.any_eq_true.mpr ⟨h, hmem, hc⟩))) hsap opens
  have hattended : Attended (attach c sap opens h.port).1 :=
    step_attended (.attach c sap opens) h.port [] (hs.attended i h hi)
  have hafter := attach_after (c := c) hs.toRegistry hi hreg hattended
  refine ⟨{ h with port := (attach c sap opens h.port).1 }, ?_, rfl, hattached⟩
  have hstep : (step (.onFrame c h.serialPortName sap opens) s).1 = ((acquireStopper c i).andThen
      ((onHandler i (attach c sap opens) []).andThen (releaseStopper c i)) s).1 := by
    have haccepted : ((HdlcdServerHandler.onFrame sap).isSome && s.idle && !s.knows c) = true := by
      rw [hsap, hidle, hnew]
      rfl
    show (onSessionHeader c h.serialPortName sap opens s).1 = _
    rw [onSessionHeader_accepted hs haccepted]
    unfold getSerialPortHandler
    rw [hs.lock_of_registered hi hreg]
  rw [hstep]
  exact hafter.handlers

/-- In every run, each name has at most one registered serial port handler, and it is the one
that the collection leads to. -/
theorem run_oneActive (es : List Event) : OneActive (run SerialPortHandlerCollection.step es initial).1 := by
  have hs := run_staffed es
  refine ⟨fun {i j h h'} hi hj hreg hreg' hname => ?_, fun {i h} hi hreg => ?_, onFrame_attaches hs, fun hne hj => ?_⟩
  · have hmapped := hs.mapped i h hi hreg
    rw [hname, hs.mapped j h' hj hreg'] at hmapped
    exact (Option.some.inj hmapped).symm
  · exact ⟨hs.mapped i h hi hreg, hs.lock_of_registered hi hreg⟩
  · exact deregister_other hne hj

def successor : List Event :=
  [.onFrame 0 "/dev/ttyS0" 0x00 .opened, .handler 0 (.receive 0 .portKill .opened) [0],
    .onFrame 1 "/dev/ttyS0" 0x00 .opened, .destroyed 0 0]

example : (run SerialPortHandlerCollection.step successor initial).1.handlers.map (fun h => h.port.registered) =
      [false, true] ∧
    (run SerialPortHandlerCollection.step successor initial).1.lock "/dev/ttyS0" = some 1 := by decide +kernel

end
end SerialPortHandlerCollection
end Hdlcd
