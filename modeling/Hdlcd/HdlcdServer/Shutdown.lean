import Hdlcd.HdlcdServer.Clients

/-! The end of the daemon: every client is stopped and takes itself off the list, and with its
last client every serial port handler ends. Its port is closed for good, unless it was opened
and could not be configured. -/

namespace Hdlcd

namespace SerialPortHandlerCollection
open Reactive Action Port

/-- What comes of opening the device in the event, if that is tried. -/
def Event.opening : Event → OpenResult
  | .onFrame _ _ _ opens | .onClosed _ _ opens _ => opens
  | .handler _ e _ => e.opening
  | .destroyed .. => .opened

/-- The port is secured at every serial port handler, where `P` says that a device was opened
and could not be configured. -/
def Secured (P : Prop) (s : SerialPortHandlerCollection) : Prop := ∀ i, ∃ o, Port.Secured P (s.portAt i) o

section
variable {s : SerialPortHandlerCollection} {i j : Nat} {c : ClientId} {P : Prop} {e : Event}

theorem portEvent_opening {e' : Port.Event} (he : s.portEvent e = some (i, e')) : e'.opening = e.opening := by
  cases e with
  | onFrame d serialPortName sap opens =>
    have hevent : s.portEvent (.onFrame d serialPortName sap opens) =
        if (HdlcdServerHandler.onFrame sap).isSome && s.idle && !s.knows d then
          some ((s.getSerialPortHandler serialPortName).1, .attach d sap opens) else none := rfl
    rw [hevent] at he
    split_ifs at he
    rw [← (Prod.mk.inj (Option.some.inj he)).2]
    rfl
  | onClosed k d opens remaining =>
    unfold portEvent at he
    split_ifs at he
    rw [← (Prod.mk.inj (Option.some.inj he)).2]
    rfl
  | handler k e'' remaining =>
    rcases handler_event (s := s) k e'' remaining with ⟨hnone, -⟩ | ⟨hsome, -⟩
    · exact absurd (he.symm.trans hnone) (Option.some_ne_none _)
    · rw [hsome] at he
      rw [← (Prod.mk.inj (Option.some.inj he)).2]
      rfl
  | destroyed => exact absurd he.symm (Option.some_ne_none _)

theorem Secured.step (hstaffed : Staffed s) (hs : Secured P s) (he : e.opening = .notConfigured → P) :
    Secured P (step e s).1 := by
  intro j
  obtain ⟨o, hsecured⟩ := hs j
  rcases step_at hstaffed e j with ⟨hport, -⟩ | ⟨e', he', hport, -⟩
  · exact ⟨o, hport ▸ hsecured⟩
  · have hopens : e'.opening = .notConfigured → P := fun h => he (portEvent_opening he' ▸ h)
    refine ⟨o ++ (Port.step e' (s.portAt j)).2, ?_⟩
    rw [hport]
    exact step_secured hopens (s.portAt j) o hsecured

theorem Secured.initial : Secured P initial := fun _ =>
  ⟨[], run_secured (fun _ (he : _ ∈ ([] : List Port.Event)) => absurd he List.not_mem_nil)⟩

theorem Staffed.deserted (hs : Staffed s) (hnobody : ∀ c, ¬ Hosts i c s) :
    (s.portAt i).registered = false ∨ s.portAt i = Port.initial := by
  cases hi : s.handlers[i]? with
  | none =>
    refine .inr ?_
    unfold SerialPortHandlerCollection.portAt
    rw [hi]
    rfl
  | some h =>
    refine .inl (Bool.eq_false_of_not_eq_true fun hreg => ?_)
    rw [portAt_some hi] at hreg
    obtain ⟨c, hc⟩ := (hs.attended i h hi).client hreg
    exact hnobody c (hosts_of_some hi hc)

theorem Staffed.closed (hs : Staffed s) {o : List Output} (hsecured : Port.Secured P (s.portAt i) o)
    (hnobody : ∀ c, ¬ Hosts i c s) :
    (s.portAt i).protocolState.started = false ∧ ((s.portAt i).serialPort.isOpen = true → P) := by
  rcases hs.deserted hnobody with hreg | hinitial
  · exact ⟨hsecured.2.halted hreg, hsecured.2.ended hreg⟩
  · rw [hinitial]
    exact ⟨rfl, fun hopen => absurd hopen Bool.false_ne_true⟩

/-- While there are clients, the port is open and its protocol state runs exactly if none of
them holds a lock. -/
theorem Hosts.opened {o : List Output} (hlocked : Locked (s.portAt i) o) (hc : Hosts i c s) :
    ((s.portAt i).protocolState.started = true ↔ ∀ c, (s.portAt i).holds c = false) ∧
      ((s.portAt i).serialPort.isOpen = true ↔ ∀ c, (s.portAt i).holds c = false) := by
  obtain ⟨client, hclient⟩ := Option.isSome_iff_exists.mp hc
  obtain ⟨hcounted, hopened⟩ := hlocked.balanced (hlocked.registered hclient)
  have hunlocked : (s.portAt i).serialPortLock.nbrOfLocks = 0 ↔ ∀ c, (s.portAt i).holds c = false := by
    rw [hcounted, nbrOfHolders, List.countP_eq_zero]
    constructor
    · intro hnobody d
      by_contra hholds
      rw [Bool.not_eq_false] at hholds
      exact hnobody d (hlocked.enrolled.listed d (holds_isSome hholds)) hholds
    · intro hnobody d _
      rw [hnobody d]
      exact Bool.false_ne_true
  rw [← hunlocked]
  exact hopened (hlocked.connected hclient)

/-- In every run of the daemon, the protocol state of each serial port runs exactly while it has
a client and no client holds a lock, and the port is open then. At all other times it is closed,
unless it was opened once and could not be configured; then it has no client any more. -/
theorem open_iff_used (es : List Event) (i : Nat) :
    (((run SerialPortHandlerCollection.step es initial).1.portAt i).protocolState.started = true ↔
      (∃ c, Hosts i c (run SerialPortHandlerCollection.step es initial).1) ∧
        ∀ c, ((run SerialPortHandlerCollection.step es initial).1.portAt i).holds c = false) ∧
    (((run SerialPortHandlerCollection.step es initial).1.portAt i).protocolState.started = true →
      ((run SerialPortHandlerCollection.step es initial).1.portAt i).serialPort.isOpen = true) ∧
    (((run SerialPortHandlerCollection.step es initial).1.portAt i).serialPort.isOpen = true →
      ((run SerialPortHandlerCollection.step es initial).1.portAt i).protocolState.started = true ∨
      (∀ c, ¬ Hosts i c (run SerialPortHandlerCollection.step es initial).1) ∧
        ∃ e ∈ portEvents i initial es, e.opening = .notConfigured) := by
  have hs := run_staffed es
  have hsecured : Port.Secured (∃ e ∈ portEvents i initial es, e.opening = .notConfigured)
      ((run SerialPortHandlerCollection.step es initial).1.portAt i)
      (run Port.step (portEvents i initial es) Port.initial).2 := by
    rw [(run_sideBySide es i).1]
    exact run_secured fun e he hopens => ⟨e, he, hopens⟩
  by_cases hosts : ∃ c, Hosts i c (run SerialPortHandlerCollection.step es initial).1
  · obtain ⟨c, hc⟩ := hosts
    obtain ⟨hstarted, hopen⟩ := hc.opened hsecured.1
    rw [hstarted, hopen]
    exact ⟨⟨fun h => ⟨⟨c, hc⟩, h⟩, And.right⟩, id, .inl⟩
  · rw [not_exists] at hosts
    obtain ⟨hstarted, hopen⟩ := hs.closed hsecured hosts
    rw [hstarted]
    refine ⟨iff_of_false Bool.false_ne_true ?_, fun h => absurd h Bool.false_ne_true, fun h => .inr ⟨hosts, hopen h⟩⟩
    exact fun hused => hosts _ hused.1.choose_spec

theorem closed_idle (hs : Staffed s) (hidle : s.idle = true) (i : Nat) (c : ClientId) (opens : OpenResult)
    (r : List ClientId) : (onClosed i c opens r s).1.idle = true := by
  have hevent : s.portEvent (.onClosed i c opens r) = some (i, .disconnect c opens) := if_pos hidle
  refine idle_iff.mpr fun j => ?_
  show ((step (.onClosed i c opens r) s).1.portAt j).calls = []
  rcases step_at hs (.onClosed i c opens r) j with ⟨hport, -⟩ | ⟨e', he', hport, -⟩
  · rw [hport]
    exact idle_iff.mp hidle j
  · rw [hport]
    rw [hevent] at he'
    rw [← (Prod.mk.inj (Option.some.inj he')).2]
    exact disconnect_paused (hs.enrolled j).consistent (idle_iff.mp hidle j) c opens

end
end SerialPortHandlerCollection
end Hdlcd

namespace Hdlcd.HdlcdServerHandlerCollection
open Reactive Action Port SerialPortHandlerCollection

/-- What comes of opening the device in the event, if that is tried. -/
def Event.opening : Event → OpenResult
  | .onFrame _ _ _ opens | .onClosed _ opens _ => opens
  | .handler _ e _ => e.opening
  | .accept | .destroyed .. => .opened

/-- Nobody can connect and no client is left; every serial port handler has ended, and its port
is closed, where `P` says that a device was opened and could not be configured. -/
structure Down (P : Prop) (s : HdlcdServerHandlerCollection) : Prop where
  tcpAcceptor : s.tcpAcceptor = false
  hdlcdServerHandlerList : s.hdlcdServerHandlerList = []
  frameEndpoints : s.frameEndpoints = []
  serialPorts : ∀ h ∈ s.serialPortHandlerCollection.handlers, h.port.registered = false ∧
    h.port.protocolState.started = false ∧ (∀ c, h.port.handlers c = none) ∧
    (h.port.serialPort.isOpen = true → P)

/-- What a run of the daemon keeps. -/
structure Sound (P : Prop) (s : HdlcdServerHandlerCollection) : Prop extends Enlisted s where
  secured : SerialPortHandlerCollection.Secured P s.serialPortHandlerCollection

section
variable {s : HdlcdServerHandlerCollection} {c : ClientId} {P : Prop}

theorem Sound.onClosed (hs : Sound P s) (hidle : s.serialPortHandlerCollection.idle = true) (c : ClientId)
    {opens : OpenResult} (hopens : opens = .notConfigured → P) (remaining : List ClientId) :
    Sound P (onClosed c opens remaining s).1 ∧
      (onClosed c opens remaining s).1.serialPortHandlerCollection.idle = true := by
  have hports : (HdlcdServerHandlerCollection.onClosed c opens remaining s).1.serialPortHandlerCollection =
        s.serialPortHandlerCollection ∨
      ∃ i, (HdlcdServerHandlerCollection.onClosed c opens remaining s).1.serialPortHandlerCollection =
        (SerialPortHandlerCollection.step (.onClosed i c opens remaining) s.serialPortHandlerCollection).1 := by
    unfold HdlcdServerHandlerCollection.onClosed
    split
    · rename_i i _
      refine .inr ⟨i, ?_⟩
      rw [onSerialPorts_ports, stop_ports]
      rfl
    · exact .inl (stop_ports c s)
  refine ⟨⟨hs.toEnlisted.onClosed hidle c opens remaining, ?_⟩, ?_⟩
  · rcases hports with hports | ⟨i, hports⟩
    · rw [hports]
      exact hs.secured
    · rw [hports]
      exact hs.secured.step hs.staffed hopens
  · rcases hports with hports | ⟨i, hports⟩
    · rw [hports]
      exact hidle
    · rw [hports]
      exact closed_idle hs.staffed hidle i c opens remaining

theorem Sound.step (hs : Sound P s) {e : Event} (he : e.opening = .notConfigured → P) : Sound P (step e s).1 := by
  refine ⟨hs.toEnlisted.step e, ?_⟩
  cases e with
  | accept =>
    show SerialPortHandlerCollection.Secured P (doAccept s).1.serialPortHandlerCollection
    unfold doAccept branch
    split_ifs <;> exact hs.secured
  | onFrame c serialPortName sap opens =>
    show SerialPortHandlerCollection.Secured P
      (whenIdle (branch _ (onFrame c serialPortName sap opens) skip) s).1.serialPortHandlerCollection
    unfold whenIdle branch
    split_ifs with hidle hc
    · unfold onFrame
      split
      · exact stop_ports c s ▸ hs.secured
      · have hnew := hs.unknown c (List.contains_iff_mem.mp hc)
        rw [onSerialPorts_ports]
        exact onSessionHeader_onFrame ‹_› hidle hnew serialPortName opens ▸ hs.secured.step hs.staffed he
    · exact hs.secured
    · exact hs.secured
  | onClosed c opens remaining =>
    show SerialPortHandlerCollection.Secured P
      (whenIdle (HdlcdServerHandlerCollection.onClosed c opens remaining) s).1.serialPortHandlerCollection
    unfold whenIdle branch
    split_ifs with hidle
    · exact (hs.onClosed hidle c he remaining).1.secured
    · exact hs.secured
  | handler i e remaining => exact onSerialPorts_ports _ s ▸ hs.secured.step hs.staffed he
  | destroyed c i => exact onSerialPorts_ports _ s ▸ hs.secured.step hs.staffed he

theorem onClosed_stopped (hs : Listed s) (c : ClientId) (opens : OpenResult) (remaining : List ClientId) :
    ∃ gone, gone c ∧ Stopped gone s (onClosed c opens remaining s).1 := by
  obtain ⟨hlisted, hstopped⟩ := hs.stop c
  unfold onClosed
  split
  · exact ⟨_, .inl rfl, hstopped.trans (hlisted.onSerialPorts _).2⟩
  · exact ⟨(· = c), rfl, hstopped⟩

theorem stopAll_empty {opens : ClientId → OpenResult} (hopens : ∀ c, opens c = .notConfigured → P)
    (remaining : ClientId → List ClientId) (rounds : Nat) (hs : Sound P s)
    (hidle : s.serialPortHandlerCollection.idle = true) (hrounds : s.hdlcdServerHandlerList.length ≤ rounds) :
    Sound P (stopAll opens remaining rounds s).1 ∧ (stopAll opens remaining rounds s).1.hdlcdServerHandlerList = [] ∧
      (stopAll opens remaining rounds s).1.tcpAcceptor = s.tcpAcceptor := by
  induction rounds generalizing s with
  | zero => exact ⟨hs, List.length_eq_zero_iff.mp (Nat.le_zero.mp hrounds), rfl⟩
  | succ rounds ih =>
    unfold stopAll
    cases hlist : s.hdlcdServerHandlerList with
    | nil => exact ⟨hs, hlist, rfl⟩
    | cons c rest =>
      obtain ⟨hs', hidle'⟩ := hs.onClosed hidle c (hopens c) (remaining c)
      obtain ⟨gone, hgone, hstopped⟩ := onClosed_stopped hs.toListed c (opens c) (remaining c)
      have hleft : c ∉ (onClosed c (opens c) (remaining c) s).1.hdlcdServerHandlerList := fun hmem =>
        ((hstopped.registered c).mp ((hs'.listed c).mp hmem)).2 hgone
      have hfewer : (onClosed c (opens c) (remaining c) s).1.hdlcdServerHandlerList.length <
          s.hdlcdServerHandlerList.length := by
        refine lt_of_le_of_ne hstopped.sublist.length_le fun hlength => hleft ?_
        rw [hstopped.sublist.eq_of_length hlength, hlist]
        exact List.mem_cons_self
      obtain ⟨hsound, hempty, hacceptor⟩ := ih hs' hidle' (Nat.le_of_lt_succ (hfewer.trans_le hrounds))
      exact ⟨hsound, hempty, hacceptor.trans hstopped.tcpAcceptor⟩

theorem shutdown_empty {opens : ClientId → OpenResult} (hopens : ∀ c, opens c = .notConfigured → P)
    (remaining : ClientId → List ClientId) (hs : Sound P s) (hidle : s.serialPortHandlerCollection.idle = true) :
    Sound P (shutdown opens remaining s).1 ∧ (shutdown opens remaining s).1.hdlcdServerHandlerList = [] ∧
      (shutdown opens remaining s).1.tcpAcceptor = false := by
  have hclosed : Sound P { s with tcpAcceptor := false } :=
    ⟨⟨⟨⟨hs.nodup, hs.listed, hs.waiting⟩, hs.staffed, hs.unique, hs.unknown, hs.numbered⟩, hs.registered⟩, hs.secured⟩
  exact stopAll_empty hopens remaining s.hdlcdServerHandlerList.length hclosed hidle (Nat.le_refl _)

theorem Sound.down (hs : Sound P s) (hempty : s.hdlcdServerHandlerList = []) (hacceptor : s.tcpAcceptor = false) :
    Down P s := by
  have hnobody (c : ClientId) : ¬ s.registered c = true := fun hc => by
    have hmem := (hs.listed c).mpr hc
    rw [hempty] at hmem
    exact List.not_mem_nil hmem
  refine ⟨hacceptor, hempty,
    List.eq_nil_iff_forall_not_mem.mpr fun c hc => hnobody c (hs.waiting c hc), fun h hmem => ?_⟩
  obtain ⟨i, hi⟩ := List.getElem?_of_mem hmem
  have hgone (c : ClientId) : h.port.handlers c = none := by
    by_contra hc
    refine hnobody c ((hs.registered c).mpr (.inr ⟨i, hosts_of_some hi ?_⟩))
    exact Option.isSome_iff_ne_none.mpr hc
  have hreg : h.port.registered = false := by
    refine Bool.eq_false_of_not_eq_true fun hreg => ?_
    obtain ⟨c, hc⟩ := (hs.staffed.attended i h hi).client hreg
    rw [hgone c] at hc
    exact absurd hc Bool.false_ne_true
  obtain ⟨o, hsecured⟩ := hs.secured i
  rw [portAt_some hi] at hsecured
  exact ⟨hreg, hsecured.2.halted hreg, hgone, hsecured.2.ended hreg⟩

theorem step_shrinks (hs : Listed s) (hacceptor : s.tcpAcceptor = false) (e : Event) :
    (step e s).1.hdlcdServerHandlerList.Sublist s.hdlcdServerHandlerList ∧ (step e s).1.tcpAcceptor = false := by
  have hports {s : HdlcdServerHandlerCollection} (hs : Listed s) (hacceptor : s.tcpAcceptor = false)
      (a : SerialPortHandlerCollection.Act) :
      (onSerialPorts a s).1.hdlcdServerHandlerList.Sublist s.hdlcdServerHandlerList ∧
        (onSerialPorts a s).1.tcpAcceptor = false := by
    obtain ⟨-, hstopped⟩ := hs.onSerialPorts a
    exact ⟨hstopped.sublist, hstopped.tcpAcceptor.trans hacceptor⟩
  have hnothing : s.hdlcdServerHandlerList.Sublist s.hdlcdServerHandlerList ∧ s.tcpAcceptor = false :=
    ⟨List.Sublist.refl _, hacceptor⟩
  cases e with
  | accept =>
    have hrefused : step .accept s = (s, []) :=
      if_neg fun hopen => Bool.false_ne_true (hacceptor.symm.trans hopen)
    rw [hrefused]
    exact hnothing
  | onFrame c serialPortName sap opens =>
    show (whenIdle (branch _ (onFrame c serialPortName sap opens) skip) s).1.hdlcdServerHandlerList.Sublist _ ∧
      (whenIdle (branch _ (onFrame c serialPortName sap opens) skip) s).1.tcpAcceptor = false
    unfold whenIdle branch
    split_ifs
    · unfold onFrame
      split
      · obtain ⟨-, hstopped⟩ := hs.stop c
        exact ⟨hstopped.sublist, hstopped.tcpAcceptor.trans hacceptor⟩
      · exact hports (s := dropFrameEndpoint c s)
          ⟨hs.nodup, hs.listed, fun d hd => hs.waiting d (List.mem_filter.mp hd).1⟩ hacceptor _
    · exact hnothing
    · exact hnothing
  | onClosed c opens remaining =>
    show (whenIdle (onClosed c opens remaining) s).1.hdlcdServerHandlerList.Sublist _ ∧
      (whenIdle (onClosed c opens remaining) s).1.tcpAcceptor = false
    unfold whenIdle branch
    split_ifs
    · obtain ⟨gone, -, hstopped⟩ := onClosed_stopped hs c opens remaining
      exact ⟨hstopped.sublist, hstopped.tcpAcceptor.trans hacceptor⟩
    · exact hnothing
  | handler i e remaining => exact hports hs hacceptor _
  | destroyed c i => exact hports hs hacceptor _

theorem run_down {later : List Event} (hlater : ∀ e ∈ later, e.opening = .notConfigured → P) (hs : Sound P s)
    (hempty : s.hdlcdServerHandlerList = []) (hacceptor : s.tcpAcceptor = false) : Down P (run step later s).1 := by
  induction later generalizing s with
  | nil => exact hs.down hempty hacceptor
  | cons e later ih =>
    obtain ⟨hshrinks, hacceptor'⟩ := step_shrinks hs.toListed hacceptor e
    exact ih (fun e' he' => hlater e' (List.mem_cons_of_mem _ he')) (hs.step (hlater e List.mem_cons_self))
      (List.sublist_nil.mp (hempty ▸ hshrinks)) hacceptor'

theorem Sound.run {es : List Event} (hes : ∀ e ∈ es, e.opening = .notConfigured → P) :
    Sound P (Reactive.run HdlcdServerHandlerCollection.step es initial).1 := by
  have hall : ∀ s, Sound P s → Sound P (Reactive.run HdlcdServerHandlerCollection.step es s).1 := by
    induction es with
    | nil => exact fun _ hs => hs
    | cons e es ih =>
      exact fun s hs => ih (fun e' he' => hes e' (List.mem_cons_of_mem _ he')) _ (hs.step (hes e List.mem_cons_self))
  exact hall initial ⟨.initial, .initial⟩

/-- From wherever the daemon is, unless it is in a call, `Shutdown` ends it, and it stays so
whatever happens later. A port stays open only if one was opened that could not be configured. -/
theorem shutdown_down (es later : List Event) (opens : ClientId → OpenResult) (remaining : ClientId → List ClientId)
    (hidle : (run step es initial).1.serialPortHandlerCollection.idle = true) :
    Down ((∃ e ∈ es ++ later, e.opening = .notConfigured) ∨ ∃ c, opens c = .notConfigured)
      (run step later (shutdown opens remaining (run step es initial).1).1).1 := by
  have hs : Sound ((∃ e ∈ es ++ later, e.opening = .notConfigured) ∨ ∃ c, opens c = .notConfigured)
      (run step es initial).1 :=
    .run fun e he hopens => .inl ⟨e, List.mem_append_left _ he, hopens⟩
  obtain ⟨hs', hempty, hacceptor⟩ := shutdown_empty (fun c hopens => .inr ⟨c, hopens⟩) remaining hs hidle
  exact run_down (fun e he hopens => .inl ⟨e, List.mem_append_right _ he, hopens⟩) hs' hempty hacceptor

/-- Two of three clients share a port, and one of them holds a lock; the third one never sent its
session header. -/
def threeClients : List Event :=
  [.accept, .accept, .accept, .onFrame 0 "/dev/ttyS0" 0x00 .opened, .onFrame 1 "/dev/ttyS0" 0x00 .opened,
    .handler 0 (.receive 0 (.portStatus true) .opened) []]

/-- The port cannot be opened again, and nothing stays open. -/
theorem shutdown_down_threeClients :
    Down False (shutdown (fun _ => .failed) (fun _ => [1]) (run step threeClients initial).1).1 := by
  have hdown := shutdown_down threeClients [] (fun _ => .failed) (fun _ => [1]) (by decide +kernel)
  have hconfigured : ¬ ((∃ e ∈ threeClients ++ [], e.opening = .notConfigured) ∨
      ∃ c : ClientId, (fun _ => OpenResult.failed) c = .notConfigured) := by
    rintro (⟨e, he, hopens⟩ | ⟨c, hopens⟩)
    · revert e
      decide
    · exact OpenResult.noConfusion hopens
  exact ⟨hdown.tcpAcceptor, hdown.hdlcdServerHandlerList, hdown.frameEndpoints, fun h hh =>
    (hdown.serialPorts h hh).imp_right (.imp_right (.imp_right fun hopen hleft => hconfigured (hopen hleft)))⟩

end
end Hdlcd.HdlcdServerHandlerCollection
