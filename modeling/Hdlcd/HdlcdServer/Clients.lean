import Hdlcd.HdlcdServer.HdlcdServerHandlerCollection
import Hdlcd.Port.Departures
import Hdlcd.Port.SideBySide

/-! The clients of the daemon: a client that is listed is registered, and waits for its session
header or is attached to one serial port handler. -/

namespace Hdlcd

namespace SerialPortHandlerCollection
open Reactive Action Port

/-- The client is attached to the serial port handler `i`. -/
def Hosts (i : Nat) (c : ClientId) (s : SerialPortHandlerCollection) : Prop := ((s.portAt i).handlers c).isSome

def Unique (s : SerialPortHandlerCollection) : Prop := ∀ c i j, Hosts i c s → Hosts j c s → i = j

section
variable {s : SerialPortHandlerCollection} {i j : Nat} {c : ClientId} {e : Event}

theorem Hosts.handler (h : Hosts i c s) : ∃ h, s.handlers[i]? = some h ∧ (h.port.handlers c).isSome := by
  unfold Hosts portAt at h
  cases hi : s.handlers[i]? with
  | none =>
    rw [hi] at h
    exact absurd h Bool.false_ne_true
  | some p =>
    rw [hi] at h
    exact ⟨p, rfl, h⟩

theorem hosts_of_some {h : SerialPortHandler} (hi : s.handlers[i]? = some h) (hc : (h.port.handlers c).isSome) :
    Hosts i c s := by
  unfold Hosts
  rwa [portAt_some hi]

theorem knows_iff : s.knows c = true ↔ ∃ i, c ∈ (s.portAt i).connections := by
  unfold knows
  rw [List.any_eq_true]
  constructor
  · rintro ⟨h, hmem, hc⟩
    obtain ⟨i, hi⟩ := List.getElem?_of_mem hmem
    refine ⟨i, ?_⟩
    rw [portAt_some hi]
    exact List.contains_iff_mem.mp hc
  · rintro ⟨i, hc⟩
    cases hi : s.handlers[i]? with
    | none =>
      unfold portAt at hc
      rw [hi] at hc
      exact absurd hc List.not_mem_nil
    | some h =>
      rw [portAt_some hi] at hc
      exact ⟨h, List.mem_of_getElem? hi, List.contains_iff_mem.mpr hc⟩

theorem Staffed.portAt (hs : Staffed s) (i : Nat) : Port.Reached (s.portAt i) := by
  unfold SerialPortHandlerCollection.portAt
  cases hi : s.handlers[i]? with
  | none => exact ⟨[], rfl⟩
  | some h => exact hs.reached i h hi

theorem Staffed.enrolled (hs : Staffed s) (i : Nat) : Enrolled (s.portAt i) := by
  obtain ⟨o, hlocked⟩ := (hs.portAt i).locked
  exact hlocked.enrolled

theorem Hosts.knows (hs : Staffed s) (h : Hosts i c s) : s.knows c = true :=
  knows_iff.mpr ⟨i, (hs.enrolled i).known c ((hs.enrolled i).listed c h)⟩

theorem portEvent_attach {sap : UInt8} {opens : OpenResult} (he : s.portEvent e = some (i, .attach c sap opens)) :
    ∃ serialPortName, e = .onFrame c serialPortName sap opens ∧ i = (s.getSerialPortHandler serialPortName).1 ∧
      (HdlcdServerHandler.onFrame sap).isSome ∧ s.idle = true ∧ s.knows c = false := by
  cases e with
  | onFrame d serialPortName sap' opens' =>
    by_cases hcond : ((HdlcdServerHandler.onFrame sap').isSome && s.idle && !s.knows d) = true
    · have hattach : s.portEvent (.onFrame d serialPortName sap' opens') =
          some ((s.getSerialPortHandler serialPortName).1, .attach d sap' opens') := if_pos hcond
      rw [hattach] at he
      simp only [Option.some.injEq, Prod.mk.injEq, Port.Event.attach.injEq] at he
      obtain ⟨rfl, rfl, rfl, rfl⟩ := he
      simp only [Bool.and_eq_true, Bool.not_eq_true'] at hcond
      exact ⟨serialPortName, rfl, rfl, hcond.1.1, hcond.1.2, hcond.2⟩
    · have hnone : s.portEvent (.onFrame d serialPortName sap' opens') = none := if_neg hcond
      exact absurd (he.symm.trans hnone) (Option.some_ne_none _)
  | onClosed j d opens' remaining =>
    unfold portEvent at he
    split_ifs at he
    exact absurd (congrArg Prod.snd (Option.some.inj he)) (by simp)
  | handler j e' remaining =>
    rcases handler_event (s := s) j e' remaining with ⟨hnone, -⟩ | ⟨hsome, hne, -⟩
    · rw [hnone] at he
      exact absurd he.symm (Option.some_ne_none _)
    · rw [hsome] at he
      simp only [Option.some.injEq, Prod.mk.injEq] at he
      exact absurd he.2 (hne c sap opens)
  | destroyed d j => exact absurd he.symm (Option.some_ne_none _)

theorem onSessionHeader_onFrame {sap : UInt8} {client : HdlcdServerHandler}
    (hsap : HdlcdServerHandler.onFrame sap = some client) (hidle : s.idle = true) (hnew : s.knows c = false)
    (serialPortName : String) (opens : OpenResult) :
    step (.onFrame c serialPortName sap opens) s = onFrame c serialPortName client opens s := by
  show onSessionHeader c serialPortName sap opens s = _
  unfold onSessionHeader
  rw [hsap, hidle, hnew]
  rfl

theorem portEvent_disconnect {opens : OpenResult} (he : s.portEvent e = some (i, .disconnect c opens)) :
    ∃ remaining, e = .onClosed i c opens remaining := by
  cases e with
  | onFrame d serialPortName sap opens' =>
    have hevent : s.portEvent (.onFrame d serialPortName sap opens') =
        if (HdlcdServerHandler.onFrame sap).isSome && s.idle && !s.knows d then
          some ((s.getSerialPortHandler serialPortName).1, .attach d sap opens') else none := rfl
    rw [hevent] at he
    split_ifs at he
    exact absurd (congrArg Prod.snd (Option.some.inj he)) (by simp)
  | onClosed j d opens' remaining =>
    unfold portEvent at he
    split_ifs at he
    simp only [Option.some.injEq, Prod.mk.injEq, Port.Event.disconnect.injEq] at he
    obtain ⟨rfl, rfl, rfl⟩ := he
    exact ⟨remaining, rfl⟩
  | handler j e' remaining =>
    rcases handler_event (s := s) j e' remaining with ⟨hnone, -⟩ | ⟨hsome, hne, -⟩
    · rw [hnone] at he
      exact absurd he.symm (Option.some_ne_none _)
    · rw [hsome] at he
      simp only [Option.some.injEq, Prod.mk.injEq] at he
      rw [he.2] at hsome
      exact absurd hsome.symm (Option.some_ne_none _)
  | destroyed d j => exact absurd he.symm (Option.some_ne_none _)

theorem step_here (hs : Staffed s) {e' : Port.Event} (he : s.portEvent e = some (j, e')) :
    (step e s).1.portAt j = (Port.step e' (s.portAt j)).1 ∧
      outputsAt j (step e s).2 = unstopped (Port.step e' (s.portAt j)).2 := by
  have halone := step_alone hs e j
  rwa [eventsAt_some he, if_pos rfl, Alone, run_singleton] at halone

theorem step_elsewhere (hs : Staffed s) (he : ∀ e', s.portEvent e ≠ some (j, e')) :
    (step e s).1.portAt j = s.portAt j ∧ outputsAt j (step e s).2 = [] := by
  have halone := step_alone hs e j
  cases hevent : s.portEvent e with
  | none => rwa [eventsAt_none hevent] at halone
  | some x =>
    obtain ⟨i, e'⟩ := x
    have hij : ¬ i = j := by
      rintro rfl
      exact he e' hevent
    rwa [eventsAt_some hevent, if_neg hij] at halone

theorem step_at (hs : Staffed s) (e : Event) (j : Nat) :
    (step e s).1.portAt j = s.portAt j ∧ outputsAt j (step e s).2 = [] ∨
      ∃ e', s.portEvent e = some (j, e') ∧ (step e s).1.portAt j = (Port.step e' (s.portAt j)).1 ∧
        outputsAt j (step e s).2 = unstopped (Port.step e' (s.portAt j)).2 := by
  by_cases he : ∃ e', s.portEvent e = some (j, e')
  · obtain ⟨e', he⟩ := he
    exact .inr ⟨e', he, step_here hs he⟩
  · exact .inl (step_elsewhere hs fun e' he' => he ⟨e', he'⟩)

theorem mem_outputsAt {o : List (Nat × Port.Output)} :
    .stopClient c ∈ outputsAt j o ↔ (j, .stopClient c) ∈ o := by
  unfold outputsAt unstopped
  simp

theorem stopped_gone (hs : Staffed s) (h : (j, .stopClient c) ∈ (step e s).2) :
    (Hosts j c s ∨ ∃ sap opens, s.portEvent e = some (j, .attach c sap opens)) ∧ ¬ Hosts j c (step e s).1 := by
  rw [← mem_outputsAt] at h
  rcases step_at hs e j with ⟨-, ho⟩ | ⟨e', he, hport, ho⟩
  · rw [ho] at h
    exact absurd h List.not_mem_nil
  · rw [ho] at h
    obtain ⟨hthere, hgone⟩ := step_stopped (hs.enrolled j) (List.mem_filter.mp h).1
    refine ⟨hthere.imp_right fun ⟨sap, opens, hattach⟩ => ⟨sap, opens, hattach ▸ he⟩, ?_⟩
    unfold Hosts
    rwa [hport]

theorem Hosts.stays (hs : Staffed s) (h : Hosts j c s) (he : ∀ opens, s.portEvent e ≠ some (j, .disconnect c opens)) :
    Hosts j c (step e s).1 ∨ (j, .stopClient c) ∈ (step e s).2 := by
  rw [← mem_outputsAt]
  unfold Hosts
  rcases step_at hs e j with ⟨hport, -⟩ | ⟨e', he', hport, ho⟩
  · rw [hport]
    exact .inl h
  · rw [hport, ho]
    refine (step_stays (hs.enrolled j) h fun opens hleaves => he opens (hleaves ▸ he')).imp_right fun hmem => ?_
    exact List.mem_filter.mpr ⟨hmem, rfl⟩

theorem Hosts.before (hs : Staffed s) (h : Hosts j c (step e s).1) :
    Hosts j c s ∨ ∃ sap opens, s.portEvent e = some (j, .attach c sap opens) := by
  unfold Hosts at h
  rcases step_at hs e j with ⟨hport, -⟩ | ⟨e', he', hport, -⟩
  · rw [hport] at h
    exact .inl h
  · rw [hport] at h
    exact (step_before (hs.enrolled j) h).imp_right fun ⟨sap, opens, hattach⟩ => ⟨sap, opens, hattach ▸ he'⟩

theorem knows_before (hs : Staffed s) (h : (step e s).1.knows c = true) :
    s.knows c = true ∨ ∃ i sap opens, s.portEvent e = some (i, .attach c sap opens) := by
  obtain ⟨j, hc⟩ := knows_iff.mp h
  rcases step_at hs e j with ⟨hport, -⟩ | ⟨e', he', hport, -⟩
  · rw [hport] at hc
    exact .inl (knows_iff.mpr ⟨j, hc⟩)
  · rw [hport] at hc
    rcases step_known (hs.enrolled j) hc with hc | ⟨sap, opens, hattach⟩
    · exact .inl (knows_iff.mpr ⟨j, hc⟩)
    · exact .inr ⟨j, sap, opens, hattach ▸ he'⟩

theorem portAt_getSerialPortHandler (serialPortName : String) (s : SerialPortHandlerCollection) (j : Nat) :
    (s.getSerialPortHandler serialPortName).2.portAt j = s.portAt j := by
  unfold getSerialPortHandler
  split
  · rfl
  · exact portAt_created serialPortName s j

theorem attached_or_stopped (hs : Staffed s) {sap : UInt8} {opens : OpenResult}
    (he : s.portEvent e = some (i, .attach c sap opens)) :
    Hosts i c (step e s).1 ∨ (i, .stopClient c) ∈ (step e s).2 := by
  obtain ⟨serialPortName, -, hi, hsap, hidle, hnew⟩ := portEvent_attach he
  obtain ⟨client, hsap⟩ := Option.isSome_iff_exists.mp hsap
  obtain ⟨h, hh, hready⟩ := getSerialPortHandler_ready hs hidle hnew serialPortName
  rw [← hi] at hh
  rw [← portAt_some hh, portAt_getSerialPortHandler] at hready
  have htracked := attach_tracked (c := c) hsap hready (hs.enrolled i) opens
  obtain ⟨hport, ho⟩ := step_here hs he
  rw [← mem_outputsAt, ho]
  unfold Hosts
  rw [hport]
  by_cases hstop : .stopClient c ∈ (Port.step (.attach c sap opens) (s.portAt i)).2
  · exact .inr (List.mem_filter.mpr ⟨hstop, rfl⟩)
  · exact .inl (htracked.attached.mpr ⟨by simp, hstop⟩)

theorem idle_iff : s.idle = true ↔ ∀ i, (s.portAt i).calls = [] := by
  unfold idle
  rw [List.all_eq_true]
  constructor
  · intro h i
    cases hi : s.handlers[i]? with
    | none =>
      unfold portAt
      rw [hi]
      rfl
    | some p =>
      rw [portAt_some hi]
      exact List.isEmpty_iff.mp (h p (List.mem_of_getElem? hi))
  · intro h p hp
    obtain ⟨i, hi⟩ := List.getElem?_of_mem hp
    rw [← portAt_some hi, h i]
    rfl

theorem disconnected_gone (hs : Staffed s) (h : Hosts i c s) {opens : OpenResult}
    (he : s.portEvent e = some (i, .disconnect c opens)) : ¬ Hosts i c (step e s).1 := by
  have hidle : s.idle = true := by
    obtain ⟨remaining, rfl⟩ := portEvent_disconnect he
    by_contra hbusy
    exact absurd (he.symm.trans (if_neg hbusy)) (Option.some_ne_none _)
  have hcalls : (s.portAt i).calls.isEmpty = true := List.isEmpty_iff.mpr (idle_iff.mp hidle i)
  have htracked := disconnect_tracked (hs.enrolled i) hcalls h opens
  unfold Hosts
  rw [(step_here hs he).1]
  exact fun hc => Bool.false_ne_true (htracked.attached.mp hc).1

theorem due_unique (hs : Staffed s) (hunique : Unique s)
    (hi : Hosts i c s ∨ ∃ sap opens, s.portEvent e = some (i, .attach c sap opens))
    (hj : Hosts j c s ∨ ∃ sap opens, s.portEvent e = some (j, .attach c sap opens)) : i = j := by
  rcases hi with hi | ⟨sap, opens, hi⟩
  · rcases hj with hj | ⟨sap, opens, hj⟩
    · exact hunique c i j hi hj
    · obtain ⟨-, -, -, -, -, hnew⟩ := portEvent_attach hj
      rw [hi.knows hs] at hnew
      exact absurd hnew Bool.noConfusion
  · rcases hj with hj | ⟨sap', opens', hj⟩
    · obtain ⟨-, -, -, -, -, hnew⟩ := portEvent_attach hi
      rw [hj.knows hs] at hnew
      exact absurd hnew Bool.noConfusion
    · rw [hi] at hj
      exact (Prod.mk.inj (Option.some.inj hj)).1

theorem Unique.step (hs : Staffed s) (hunique : Unique s) (e : Event) : Unique (step e s).1 :=
  fun _ _ _ hi hj => due_unique hs hunique (hi.before hs) (hj.before hs)

/-- Who is attached after an event: who was there and did not leave, or came, unless it was
stopped. -/
theorem attached_after_iff (hs : Staffed s) (hunique : Unique s) (e : Event) (c : ClientId) :
    (∃ i, Hosts i c (step e s).1) ↔
      ((∃ i, Hosts i c s ∧ ∀ opens, s.portEvent e ≠ some (i, .disconnect c opens)) ∨
        ∃ i sap opens, s.portEvent e = some (i, .attach c sap opens)) ∧
      ¬ ∃ i, (i, .stopClient c) ∈ (step e s).2 := by
  constructor
  · rintro ⟨i, hi⟩
    constructor
    · rcases hi.before hs with hbefore | ⟨sap, opens, hcame⟩
      · exact .inl ⟨i, hbefore, fun opens he => disconnected_gone hs hbefore he hi⟩
      · exact .inr ⟨i, sap, opens, hcame⟩
    · rintro ⟨j, hstop⟩
      obtain ⟨hdue, hgone⟩ := stopped_gone hs hstop
      exact hgone (due_unique hs hunique (hi.before hs) hdue ▸ hi)
  · rintro ⟨⟨i, hi, hstays⟩ | ⟨i, sap, opens, hcame⟩, hstop⟩
    · exact ⟨i, (hi.stays hs hstays).resolve_right fun h => hstop ⟨i, h⟩⟩
    · exact ⟨i, (attached_or_stopped hs hcame).resolve_right fun h => hstop ⟨i, h⟩⟩

end
end SerialPortHandlerCollection
end Hdlcd

namespace Hdlcd.HdlcdServerHandlerCollection
open Reactive Action Port SerialPortHandlerCollection

/-- The clients that are listed are those that are registered, and so are those that wait. -/
structure Listed (s : HdlcdServerHandlerCollection) : Prop where
  nodup : s.hdlcdServerHandlerList.Nodup
  listed : ∀ c, c ∈ s.hdlcdServerHandlerList ↔ s.registered c = true
  waiting : ∀ c ∈ s.frameEndpoints, s.registered c = true

/-- The clients in `gone` were stopped, and nothing else has changed. -/
structure Stopped (gone : ClientId → Prop) (s t : HdlcdServerHandlerCollection) : Prop where
  accepted : t.accepted = s.accepted
  tcpAcceptor : t.tcpAcceptor = s.tcpAcceptor
  sublist : t.hdlcdServerHandlerList.Sublist s.hdlcdServerHandlerList
  registered : ∀ c, t.registered c = true ↔ s.registered c = true ∧ ¬ gone c
  waiting : ∀ c, c ∈ t.frameEndpoints ↔ c ∈ s.frameEndpoints ∧ ¬ gone c

/-- What holds of the serial port handlers and the clients whatever is called. -/
structure Covered (s : HdlcdServerHandlerCollection) : Prop extends Listed s where
  staffed : Staffed s.serialPortHandlerCollection
  unique : Unique s.serialPortHandlerCollection
  unknown : ∀ c ∈ s.frameEndpoints, s.serialPortHandlerCollection.knows c = false
  numbered : ∀ c, s.registered c = true ∨ s.serialPortHandlerCollection.knows c = true → c < s.accepted

/-- A client is registered as long as it waits or is attached. -/
structure Enlisted (s : HdlcdServerHandlerCollection) : Prop extends Covered s where
  registered : ∀ c, s.registered c = true ↔ c ∈ s.frameEndpoints ∨ ∃ i, Hosts i c s.serialPortHandlerCollection

section
variable {s t : HdlcdServerHandlerCollection} {p : SerialPortHandlerCollection} {c : ClientId} {i : Nat}
  {gone gone' : ClientId → Prop} {e : SerialPortHandlerCollection.Event}

theorem attachedTo_isSome_iff : (attachedTo p c).isSome = true ↔ ∃ i, Hosts i c p := by
  unfold attachedTo
  rw [List.findIdx?_isSome, List.any_eq_true]
  constructor
  · rintro ⟨h, hmem, hc⟩
    obtain ⟨i, hi⟩ := List.getElem?_of_mem hmem
    exact ⟨i, hosts_of_some hi hc⟩
  · rintro ⟨i, hosts⟩
    obtain ⟨h, hi, hc⟩ := hosts.handler
    exact ⟨h, List.mem_of_getElem? hi, hc⟩

theorem attachedTo_some (h : attachedTo p c = some i) : Hosts i c p := by
  unfold attachedTo at h
  obtain ⟨hlt, hc, -⟩ := List.findIdx?_eq_some_iff_getElem.mp h
  exact hosts_of_some (List.getElem?_eq_getElem hlt) hc

theorem Stopped.nobody (s : HdlcdServerHandlerCollection) : Stopped (fun _ => False) s s :=
  ⟨rfl, rfl, List.Sublist.refl _, fun _ => (and_iff_left not_false).symm, fun _ => (and_iff_left not_false).symm⟩

theorem Stopped.trans {u : HdlcdServerHandlerCollection} (h : Stopped gone s t) (h' : Stopped gone' t u) :
    Stopped (fun c => gone c ∨ gone' c) s u where
  accepted := h'.accepted.trans h.accepted
  tcpAcceptor := h'.tcpAcceptor.trans h.tcpAcceptor
  sublist := h'.sublist.trans h.sublist
  registered c := by rw [h'.registered, h.registered, not_or, and_assoc]
  waiting c := by rw [h'.waiting, h.waiting, not_or, and_assoc]

theorem Stopped.of_iff (h : Stopped gone s t) (hgone : ∀ c, gone' c ↔ gone c) : Stopped gone' s t where
  accepted := h.accepted
  tcpAcceptor := h.tcpAcceptor
  sublist := h.sublist
  registered c := by rw [h.registered, hgone]
  waiting c := by rw [h.waiting, hgone]

theorem Listed.stop (hs : Listed s) (c : ClientId) : Listed (stop c s) ∧ Stopped (· = c) s (stop c s) := by
  unfold HdlcdServerHandlerCollection.stop
  split_ifs with hc
  · have hregistered (d : ClientId) :
        (setRegistered c false s).registered d = true ↔ s.registered d = true ∧ ¬ d = c := by
      unfold setRegistered
      by_cases hdc : d = c <;> simp [hdc]
    have hmem {l : List ClientId} (d : ClientId) : d ∈ l.filter (· != c) ↔ d ∈ l ∧ ¬ d = c := by simp
    refine ⟨⟨hs.nodup.filter _, fun d => ?_, fun d hd => ?_⟩, rfl, rfl, List.filter_sublist, hregistered,
      fun d => hmem d⟩
    · exact (hmem d).trans ((and_congr_left' (hs.listed d)).trans (hregistered d).symm)
    · exact (hregistered d).mpr (((hmem d).mp hd).imp_left (hs.waiting d))
  · refine ⟨hs, rfl, rfl, List.Sublist.refl _, fun d => (and_iff_left_of_imp ?_).symm,
      fun d => (and_iff_left_of_imp ?_).symm⟩
    · rintro hd rfl
      exact hc hd
    · rintro hd rfl
      exact hc (hs.waiting d hd)

theorem Listed.stopClients (hs : Listed s) (o : List (Nat × Port.Output)) :
    Listed (stopClients o s) ∧ Stopped (fun c => ∃ i, (i, .stopClient c) ∈ o) s (stopClients o s) := by
  induction o generalizing s with
  | nil => exact ⟨hs, (Stopped.nobody s).of_iff (by simp)⟩
  | cons y o ih =>
    obtain ⟨i, y⟩ := y
    have hother (hy : ∀ c, y ≠ .stopClient c) (c : ClientId) :
        (∃ j, (j, .stopClient c) ∈ (i, y) :: o) ↔ ∃ j, (j, .stopClient c) ∈ o := by
      have hne := (hy c).symm
      simp [hne]
    cases y with
    | stopClient c =>
      obtain ⟨hfirst, hstopped⟩ := hs.stop c
      obtain ⟨hrest, hstopped'⟩ := ih hfirst
      refine ⟨hrest, (hstopped.trans hstopped').of_iff fun d => ?_⟩
      simp [exists_or, eq_comm]
    | _ =>
      obtain ⟨hrest, hstopped⟩ := ih hs
      exact ⟨hrest, hstopped.of_iff (hother (by simp))⟩

theorem stop_ports (c : ClientId) (s : HdlcdServerHandlerCollection) :
    (stop c s).serialPortHandlerCollection = s.serialPortHandlerCollection := by
  unfold stop
  split_ifs <;> rfl

theorem stopClients_ports (o : List (Nat × Port.Output)) (s : HdlcdServerHandlerCollection) :
    (stopClients o s).serialPortHandlerCollection = s.serialPortHandlerCollection := by
  induction o generalizing s with
  | nil => rfl
  | cons y o ih =>
    refine (ih _).trans ?_
    dsimp only
    split
    · exact stop_ports _ s
    · rfl

theorem onSerialPorts_ports (a : SerialPortHandlerCollection.Act) (s : HdlcdServerHandlerCollection) :
    (onSerialPorts a s).1.serialPortHandlerCollection = (a s.serialPortHandlerCollection).1 := stopClients_ports _ _

theorem onSerialPorts_congr {a b : SerialPortHandlerCollection.Act}
    (hab : a s.serialPortHandlerCollection = b s.serialPortHandlerCollection) :
    onSerialPorts a s = onSerialPorts b s := by
  unfold onSerialPorts
  rw [hab]

theorem Listed.onSerialPorts (hs : Listed s) (a : SerialPortHandlerCollection.Act) :
    Listed (onSerialPorts a s).1 ∧
      Stopped (fun c => ∃ i, (i, .stopClient c) ∈ (a s.serialPortHandlerCollection).2) s (onSerialPorts a s).1 := by
  have hcalled : Listed { s with serialPortHandlerCollection := (a s.serialPortHandlerCollection).1 } :=
    ⟨hs.nodup, hs.listed, hs.waiting⟩
  obtain ⟨hlisted, hstopped⟩ := hcalled.stopClients (a s.serialPortHandlerCollection).2
  exact ⟨hlisted, hstopped.accepted, hstopped.tcpAcceptor, hstopped.sublist, hstopped.registered, hstopped.waiting⟩

theorem Covered.onSerialPorts (hs : Covered s)
    (hregistered : ∀ c, s.registered c = true ↔ c ∈ s.frameEndpoints ∨
      (∃ i, Hosts i c s.serialPortHandlerCollection ∧
        ∀ opens, s.serialPortHandlerCollection.portEvent e ≠ some (i, .disconnect c opens)) ∨
      ∃ i sap opens, s.serialPortHandlerCollection.portEvent e = some (i, .attach c sap opens))
    (hcomes : ∀ i c sap opens, s.serialPortHandlerCollection.portEvent e = some (i, .attach c sap opens) →
      c ∉ s.frameEndpoints) :
    Enlisted (HdlcdServerHandlerCollection.onSerialPorts (SerialPortHandlerCollection.step e) s).1 := by
  obtain ⟨hlisted, hstopped⟩ := hs.toListed.onSerialPorts (SerialPortHandlerCollection.step e)
  have hports := onSerialPorts_ports (SerialPortHandlerCollection.step e) s
  refine ⟨⟨hlisted, ?_, ?_, fun c hc => ?_, fun c hc => ?_⟩, fun c => ?_⟩
  · exact hports ▸ hs.staffed.step e
  · exact hports ▸ hs.unique.step hs.staffed e
  · have hc' := ((hstopped.waiting c).mp hc).1
    refine Bool.eq_false_of_not_eq_true fun hknown => ?_
    rcases knows_before hs.staffed (hports ▸ hknown) with hknown | ⟨i, sap, opens, hattach⟩
    · rw [hs.unknown c hc'] at hknown
      exact Bool.false_ne_true hknown
    · exact hcomes i c sap opens hattach hc'
  · refine lt_of_lt_of_eq (hs.numbered c ?_) hstopped.accepted.symm
    rcases hc with hc | hknown
    · exact .inl ((hstopped.registered c).mp hc).1
    · rcases knows_before hs.staffed (hports ▸ hknown) with hknown | hattach
      · exact .inr hknown
      · exact .inl ((hregistered c).mpr (.inr (.inr hattach)))
  · rw [hports, attached_after_iff hs.staffed hs.unique, hstopped.registered, hstopped.waiting, hregistered,
      or_and_right]

theorem Enlisted.doAccept (hs : Enlisted s) : Enlisted (doAccept s).1 := by
  unfold HdlcdServerHandlerCollection.doAccept branch
  split_ifs
  · have hnew : ¬ s.registered s.accepted = true := fun hc => lt_irrefl _ (hs.numbered _ (.inl hc))
    have hunknown : s.serialPortHandlerCollection.knows s.accepted = false :=
      Bool.eq_false_of_not_eq_true fun hc => lt_irrefl _ (hs.numbered _ (.inr hc))
    have hstarted (c : ClientId) :
        (start s.accepted s).registered c = true ↔ s.registered c = true ∨ c = s.accepted := by
      show (if c = s.accepted then true else s.registered c) = true ↔ _
      by_cases hc : c = s.accepted <;> simp [hc]
    have hmem {l : List ClientId} (c : ClientId) : c ∈ l ++ [s.accepted] ↔ c ∈ l ∨ c = s.accepted := by simp
    exact {
      nodup := by
        refine List.nodup_append'.mpr ⟨hs.nodup, List.nodup_singleton _, List.disjoint_singleton.mpr ?_⟩
        exact fun hlisted => hnew ((hs.listed _).mp hlisted)
      listed := fun c => (hmem c).trans ((or_congr_left (hs.listed c)).trans (hstarted c).symm)
      waiting := fun c hc => (hstarted c).mpr (((hmem c).mp hc).imp_left (hs.waiting c))
      staffed := hs.staffed
      unique := hs.unique
      unknown := fun c hc => by
        rcases (hmem c).mp hc with hc | rfl
        · exact hs.unknown c hc
        · exact hunknown
      numbered := fun c hc => by
        rcases hc with hc | hc
        · rcases (hstarted c).mp hc with hc | rfl
          · exact Nat.lt_succ_of_lt (hs.numbered c (.inl hc))
          · exact Nat.lt_succ_self _
        · exact Nat.lt_succ_of_lt (hs.numbered c (.inr hc))
      registered := fun c => (hstarted c).trans ((or_congr_left (hs.registered c)).trans
        (or_right_comm.trans (or_congr_left (hmem c).symm))) }
  · exact hs

theorem Covered.stop (hs : Covered s) (c : ClientId) : Covered (stop c s) := by
  obtain ⟨hlisted, hstopped⟩ := hs.toListed.stop c
  have hports := stop_ports c s
  refine ⟨hlisted, hports ▸ hs.staffed, hports ▸ hs.unique, fun d hd => ?_, fun d hd => ?_⟩
  · exact hports ▸ hs.unknown d ((hstopped.waiting d).mp hd).1
  · refine lt_of_lt_of_eq (hs.numbered d ?_) hstopped.accepted.symm
    exact hd.imp (fun hd => ((hstopped.registered d).mp hd).1) fun hd => hports ▸ hd

theorem Enlisted.stop (hs : Enlisted s) (hc : ¬ ∃ i, Hosts i c s.serialPortHandlerCollection) :
    Enlisted (stop c s) := by
  obtain ⟨-, hstopped⟩ := hs.toListed.stop c
  refine ⟨hs.toCovered.stop c, fun d => ?_⟩
  rw [stop_ports, hstopped.registered, hstopped.waiting, hs.registered, or_and_right]
  refine or_congr_right (and_iff_left_of_imp ?_)
  rintro hd rfl
  exact hc hd

theorem Covered.dropFrameEndpoint (hs : Covered s) (c : ClientId) : Covered (dropFrameEndpoint c s) :=
  ⟨⟨hs.nodup, hs.listed, fun d hd => hs.waiting d (List.mem_filter.mp hd).1⟩, hs.staffed, hs.unique,
    fun d hd => hs.unknown d (List.mem_filter.mp hd).1, hs.numbered⟩

theorem Enlisted.onFrame (hs : Enlisted s) (hidle : s.serialPortHandlerCollection.idle = true)
    (hc : c ∈ s.frameEndpoints) (serialPortName : String) (sap : UInt8) (opens : OpenResult) :
    Enlisted (onFrame c serialPortName sap opens s).1 := by
  have hnew := hs.unknown c hc
  unfold HdlcdServerHandlerCollection.onFrame
  split
  · refine hs.stop ?_
    rintro ⟨i, hi⟩
    exact Bool.false_ne_true (hnew.symm.trans (hi.knows hs.staffed))
  · rename_i client hsap
    have haccepted : ((HdlcdServerHandler.onFrame sap).isSome && s.serialPortHandlerCollection.idle &&
        !s.serialPortHandlerCollection.knows c) = true := by
      rw [hsap, hidle, hnew]
      rfl
    have hevent : s.serialPortHandlerCollection.portEvent (.onFrame c serialPortName sap opens) =
        some ((s.serialPortHandlerCollection.getSerialPortHandler serialPortName).1, .attach c sap opens) :=
      if_pos haccepted
    rw [onSerialPorts_congr (s := dropFrameEndpoint c s)
      (onSessionHeader_onFrame hsap hidle hnew serialPortName opens).symm]
    refine (hs.toCovered.dropFrameEndpoint c).onSerialPorts (fun d => ?_) fun i d sap' opens' hattach => ?_
    · show s.registered d = true ↔ d ∈ s.frameEndpoints.filter (· != c) ∨
        (∃ i, Hosts i d s.serialPortHandlerCollection ∧ ∀ opens', s.serialPortHandlerCollection.portEvent
          (.onFrame c serialPortName sap opens) ≠ some (i, .disconnect d opens')) ∨
        ∃ i sap' opens', s.serialPortHandlerCollection.portEvent (.onFrame c serialPortName sap opens) =
          some (i, .attach d sap' opens')
      rw [hs.registered d, hevent]
      by_cases hdc : d = c
      · subst hdc
        simp [hc]
      · simp [hdc, Ne.symm hdc]
    · obtain ⟨_, hframe, -⟩ := portEvent_attach hattach
      injection hframe with hcd
      subst hcd
      exact fun hwaits => by simpa using (List.mem_filter.mp hwaits).2

theorem Enlisted.onClosed (hs : Enlisted s) (hidle : s.serialPortHandlerCollection.idle = true) (c : ClientId)
    (opens : OpenResult) (remaining : List ClientId) : Enlisted (onClosed c opens remaining s).1 := by
  unfold HdlcdServerHandlerCollection.onClosed
  split
  · rename_i i hi
    obtain ⟨-, hstopped⟩ := hs.toListed.stop c
    have hevent :
        s.serialPortHandlerCollection.portEvent (.onClosed i c opens remaining) = some (i, .disconnect c opens) :=
      if_pos hidle
    refine (hs.toCovered.stop c).onSerialPorts (e := .onClosed i c opens remaining) (fun d => ?_)
      fun j d sap opens' hattach => ?_
    · rw [stop_ports, hevent, hstopped.registered, hstopped.waiting, hs.registered, or_and_right]
      refine or_congr_right ?_
      constructor
      · rintro ⟨⟨j, hj⟩, hdc⟩
        refine .inl ⟨j, hj, fun opens' hleaves => hdc ?_⟩
        simp only [Option.some.injEq, Prod.mk.injEq, Port.Event.disconnect.injEq] at hleaves
        exact hleaves.2.1.symm
      · rintro (⟨j, hj, hstays⟩ | ⟨j, sap, opens', hattach⟩)
        · refine ⟨⟨j, hj⟩, ?_⟩
          rintro rfl
          exact hstays opens (by rw [hs.unique d i j (attachedTo_some hi) hj])
        · simp at hattach
    · obtain ⟨_, hframe, -⟩ := portEvent_attach hattach
      exact absurd hframe (by simp)
  · rename_i hnone
    exact hs.stop fun hattached => Option.some_ne_none _ ((Option.isSome_iff_exists.mp
      (attachedTo_isSome_iff.mpr hattached)).choose_spec.symm.trans hnone)

theorem Enlisted.onSerialPorts (hs : Enlisted s)
    (hcomes : ∀ c serialPortName sap opens, e ≠ .onFrame c serialPortName sap opens)
    (hleaves : ∀ i c opens remaining, e ≠ .onClosed i c opens remaining) :
    Enlisted (onSerialPorts (SerialPortHandlerCollection.step e) s).1 := by
  have hnobody (i : Nat) (c : ClientId) (sap : UInt8) (opens : OpenResult) :
      s.serialPortHandlerCollection.portEvent e ≠ some (i, .attach c sap opens) := fun hattach => by
    obtain ⟨serialPortName, hframe, -⟩ := portEvent_attach hattach
    exact hcomes c serialPortName sap opens hframe
  refine hs.toCovered.onSerialPorts (fun c => ?_) fun i c sap opens hattach => absurd hattach (hnobody i c sap opens)
  rw [hs.registered]
  refine or_congr_right ⟨fun ⟨i, hi⟩ => .inl ⟨i, hi, fun opens hdisconnect => ?_⟩, ?_⟩
  · obtain ⟨remaining, hclosed⟩ := portEvent_disconnect hdisconnect
    exact hleaves i c opens remaining hclosed
  · rintro (⟨i, hi, -⟩ | ⟨i, sap, opens, hattach⟩)
    · exact ⟨i, hi⟩
    · exact absurd hattach (hnobody i c sap opens)

theorem Enlisted.step (hs : Enlisted s) (e : Event) : Enlisted (step e s).1 := by
  cases e with
  | accept => exact hs.doAccept
  | onFrame c serialPortName sap opens =>
    show Enlisted (whenIdle (branch _ (HdlcdServerHandlerCollection.onFrame c serialPortName sap opens) skip) s).1
    unfold whenIdle branch
    split_ifs with hidle hc
    · exact hs.onFrame hidle (List.contains_iff_mem.mp hc) serialPortName sap opens
    · exact hs
    · exact hs
  | onClosed c opens remaining =>
    show Enlisted (whenIdle (HdlcdServerHandlerCollection.onClosed c opens remaining) s).1
    unfold whenIdle branch
    split_ifs with hidle
    · exact hs.onClosed hidle c opens remaining
    · exact hs
  | handler i e remaining => exact hs.onSerialPorts (by simp) (by simp)
  | destroyed c i => exact hs.onSerialPorts (by simp) (by simp)

theorem Enlisted.initial : Enlisted initial where
  nodup := List.nodup_nil
  listed c := iff_of_false List.not_mem_nil Bool.false_ne_true
  waiting c hc := absurd hc List.not_mem_nil
  staffed := .initial
  unique _ _ _ hi _ := by
    obtain ⟨h, hnone, -⟩ := hi.handler
    exact absurd hnone.symm (Option.some_ne_none h)
  unknown c hc := absurd hc List.not_mem_nil
  numbered c hc := absurd (hc.resolve_left Bool.false_ne_true) Bool.false_ne_true
  registered c := by
    refine iff_of_false Bool.false_ne_true ?_
    rintro (hc | ⟨i, hi⟩)
    · exact absurd hc List.not_mem_nil
    · obtain ⟨h, hnone, -⟩ := hi.handler
      exact absurd hnone.symm (Option.some_ne_none h)

theorem Enlisted.run (hs : Enlisted s) (es : List Event) :
    Enlisted (Reactive.run HdlcdServerHandlerCollection.step es s).1 :=
  run_invariant HdlcdServerHandlerCollection.step (C := fun _ _ => True) (fun _ e _ hs => hs.step e) hs
    (along_of_forall _ (fun _ _ _ => trivial) _)

/-- Whatever happens, the list holds the clients that are registered, each of them once: those
that wait for their session header and those that are attached to a serial port handler. Nobody
is both, and nobody is attached to two serial port handlers. -/
theorem clients_listed (es : List Event) :
    (Reactive.run step es initial).1.hdlcdServerHandlerList.Nodup ∧
    (∀ c, c ∈ (Reactive.run step es initial).1.hdlcdServerHandlerList ↔
      (Reactive.run step es initial).1.registered c = true) ∧
    (∀ c, (Reactive.run step es initial).1.registered c = true ↔
      c ∈ (Reactive.run step es initial).1.frameEndpoints ∨
      ∃ i, Hosts i c (Reactive.run step es initial).1.serialPortHandlerCollection) ∧
    (∀ c ∈ (Reactive.run step es initial).1.frameEndpoints,
      ∀ i, ¬ Hosts i c (Reactive.run step es initial).1.serialPortHandlerCollection) ∧
    ∀ c i j, Hosts i c (Reactive.run step es initial).1.serialPortHandlerCollection →
      Hosts j c (Reactive.run step es initial).1.serialPortHandlerCollection → i = j := by
  have hs := Enlisted.initial.run es
  refine ⟨hs.nodup, hs.listed, hs.registered, fun c hc i hi => ?_, hs.unique⟩
  exact Bool.false_ne_true ((hs.unknown c hc).symm.trans (hi.knows hs.staffed))

end
end Hdlcd.HdlcdServerHandlerCollection
