import Hdlcd.Port.Frames

/-! What the handler of an operation does that was started before the port was suspended and
opened again: a read or write of this opening is always under way, so it can only disturb. -/

namespace Hdlcd

namespace Port
open Reactive Action ProtocolState

/-- At most one write of this opening is under way, and none while the protocol state may send. -/
structure Lined (s : Port) : Prop where
  connected : s.connections ≠ []
  consistent : Consistent s.protocolState
  halted : Halted s.protocolState
  truthful : s.serialPort.Truthful
  single : s.protocolState.started = true → s.serialPort.currentWrites.length ≤ 1 ∧
    (s.protocolState.awaitsNextHDLCFrame = true → s.serialPort.currentWrites = [])
  bottom : ∀ x ∈ s.calls.dropLast, x.Inner

/-- A port without locks reads, or a handler is about to read again. -/
structure Serviced (s : Port) : Prop extends Lined s where
  reading : s.registered = true → s.serialPortLock.nbrOfLocks = 0 →
    s.serialPort.Reading ∨ .readHandler s.serialPort.openings ∈ s.calls

def StaysServiced : Assertion Port Output := fun s _ => Serviced s

section
variable {s t : Port} {o : List Output} {c : ClientId}

theorem Lined.congr (h : Lined s) (hsame : lineMembers t = lineMembers s) : Lined t := by
  simp only [lineMembers, Prod.mk.injEq] at hsame
  obtain ⟨_, hport, hps, _, _, _, hconnections, hcalls⟩ := hsame
  constructor
  · rw [← List.isEmpty_eq_false_iff, hconnections, List.isEmpty_eq_false_iff]
    exact h.connected
  · rw [hps]
    exact h.consistent
  · rw [hps]
    exact h.halted
  · rw [hport]
    exact h.truthful
  · rw [hps, hport]
    exact h.single
  · rw [hcalls]
    exact h.bottom

theorem Serviced.congr (h : Serviced s) (hsame : lineMembers t = lineMembers s) : Serviced t := by
  refine ⟨h.toLined.congr hsame, ?_⟩
  simp only [lineMembers, Prod.mk.injEq] at hsame
  obtain ⟨hregistered, hport, _, _, _, hlock, _, hcalls⟩ := hsame
  rw [hregistered, hport, hlock, hcalls]
  exact h.reading

theorem bottom_push {x : Call} {calls : List Call} (hx : x.Inner) (h : ∀ y ∈ calls.dropLast, y.Inner) :
    ∀ y ∈ (x :: calls).dropLast, y.Inner := by
  cases calls with
  | nil => exact fun y hy => absurd hy List.not_mem_nil
  | cons z calls =>
    intro y hy
    rcases List.mem_cons.mp hy with rfl | hy
    · exact hx
    · exact h y hy

theorem bottom_pop {x : Call} {calls : List Call} (h : ∀ y ∈ (x :: calls).dropLast, y.Inner) :
    ∀ y ∈ calls.dropLast, y.Inner := by
  cases calls with
  | nil => exact fun y hy => absurd hy List.not_mem_nil
  | cons z calls => exact fun y hy => h y (List.mem_cons_of_mem _ hy)

theorem queryCalls_inner (xs : List Effect) : ∀ x ∈ queryCalls xs, x.Inner := by
  induction xs with
  | nil => exact fun x hx => absurd hx List.not_mem_nil
  | cons y ys ih =>
    intro x hx
    rcases List.mem_append.mp hx with hx | hx
    · exact ih x hx
    · cases y with
      | queryForPayload =>
        rw [List.mem_singleton.mp hx]
        trivial
      | _ => exact absurd hx List.not_mem_nil

theorem bottom_append {new calls : List Call} (hnew : ∀ x ∈ new, x.Inner) (h : ∀ y ∈ calls.dropLast, y.Inner) :
    ∀ y ∈ (new ++ calls).dropLast, y.Inner := by
  induction new with
  | nil => exact h
  | cons x new ih =>
    exact bottom_push (hnew x (List.mem_cons_self ..)) (ih fun y hy => hnew y (List.mem_cons_of_mem _ hy))

theorem callProtocolState_lined {e : Hdlcd.Event} (h : Lined s)
    (hsingle : (prepare e s.protocolState).state.started = true → s.serialPort.currentWrites.length ≤ 1 ∧
      ((prepare e s.protocolState).state.awaitsNextHDLCFrame = true → s.serialPort.currentWrites = [])) :
    Lined (callProtocolState (handle e) s).1 := by
  have hdone := callProtocolState_done (handle e) s
  have hcalls : ∀ y ∈ (callProtocolState (handle e) s).1.calls.dropLast, y.Inner := by
    rw [hdone.calls]
    exact bottom_append (queryCalls_inner _) h.bottom
  have hconsistent := h.consistent.handle e
  have hhalted := h.halted.handle h.consistent e
  have hstarted : (handle e s.protocolState).1.started = (prepare e s.protocolState).state.started :=
    (handle_started h.consistent e).trans (prepare_started e s.protocolState).symm
  cases callProtocolState_frames h.consistent e with
  | none hsame hawaits _ =>
    simp only [frameMembers, Prod.mk.injEq] at hsame
    obtain ⟨_, _, hport, hps, hconnections⟩ := hsame
    refine ⟨?_, by rw [hps]; exact hconsistent, by rw [hps]; exact hhalted, by rw [hport]; exact h.truthful, ?_, hcalls⟩
    · rw [← List.isEmpty_eq_false_iff, hconnections, List.isEmpty_eq_false_iff]
      exact h.connected
    · rw [hps, hport, hstarted]
      exact fun hrunning => (hsingle hrunning).imp_right fun hnone hfree => hnone (hawaits hfree)
  | one buffer hwritten hawaits _ _ hbusy _ =>
    simp only [frameMembers, Prod.mk.injEq] at hwritten
    obtain ⟨_, _, hport, hps, hconnections⟩ := hwritten
    refine ⟨?_, by rw [hps]; exact hconsistent, by rw [hps]; exact hhalted,
      by rw [hport]; exact h.truthful.asyncWriteSome _, ?_, hcalls⟩
    · rw [← List.isEmpty_eq_false_iff, hconnections, List.isEmpty_eq_false_iff]
      exact h.connected
    · rw [hps, hport, hstarted]
      intro hrunning
      have hnone := (hsingle hrunning).2 hawaits
      refine ⟨?_, fun hfree => absurd (hbusy.symm.trans hfree) Bool.noConfusion⟩
      rw [SerialPort.currentWrites_asyncWriteSome, hnone]
      exact le_rfl

theorem callProtocolState_serviced {e : Hdlcd.Event} (h : Serviced s)
    (hsingle : (prepare e s.protocolState).state.started = true → s.serialPort.currentWrites.length ≤ 1 ∧
      ((prepare e s.protocolState).state.awaitsNextHDLCFrame = true → s.serialPort.currentWrites = [])) :
    Serviced (callProtocolState (handle e) s).1 := by
  refine ⟨callProtocolState_lined h.toLined hsingle, ?_⟩
  have hdone := callProtocolState_done (handle e) s
  have hsame := hdone.served.same
  simp only [servedMembers, Prod.mk.injEq] at hsame
  obtain ⟨hregistered, _, _, hlock, _, _, hopenings, hreads, _⟩ := hsame
  rw [hregistered, hlock, hopenings, hdone.calls]
  intro hreg hnbr
  unfold SerialPort.Reading
  rw [hreads, hopenings]
  exact (h.reading hreg hnbr).imp_right (List.mem_append_right _)

theorem peaceful_single {e : Hdlcd.Event} (he : e.Peaceful) (h : Lined s) :
    (prepare e s.protocolState).state.started = true → s.serialPort.currentWrites.length ≤ 1 ∧
      ((prepare e s.protocolState).state.awaitsNextHDLCFrame = true → s.serialPort.currentWrites = []) := by
  have hsame := prepare_peaceful he s.protocolState
  simp only [passMembers, Prod.mk.injEq] at hsame
  obtain ⟨hstarted, hawaits, _⟩ := hsame
  rw [hstarted, hawaits]
  exact h.single

theorem Lined.parser (h : Lined s) (p : FrameParser) :
    Lined { s with protocolState := { s.protocolState with frameParser := p } } :=
  ⟨h.connected, h.consistent.congr rfl, h.halted, h.truthful, h.single, h.bottom⟩

theorem Serviced.push (h : Serviced s) {x : Call} (hx : x.Inner) : Serviced { s with calls := x :: s.calls } :=
  ⟨⟨h.connected, h.consistent, h.halted, h.truthful, h.single, bottom_push hx h.bottom⟩,
    fun hreg hnbr => (h.reading hreg hnbr).imp_right (List.mem_cons_of_mem _)⟩

theorem Lined.pop (h : Lined s) {x : Call} {calls : List Call} (hcalls : s.calls = x :: calls) :
    Lined { s with calls := calls } := by
  have hbottom := h.bottom
  rw [hcalls] at hbottom
  exact ⟨h.connected, h.consistent, h.halted, h.truthful, h.single, bottom_pop hbottom⟩

theorem Serviced.pop (h : Serviced s) {x : Call} {calls : List Call} (hcalls : s.calls = x :: calls)
    (hx : x.Inner) : Serviced { s with calls := calls } := by
  refine ⟨h.toLined.pop hcalls, fun hreg hnbr => (h.reading hreg hnbr).imp_right fun hmem => ?_⟩
  rw [hcalls] at hmem
  refine (List.mem_cons.mp hmem).resolve_left ?_
  rintro rfl
  exact hx

theorem wired_serviced : Wired StaysServiced where
  connected h := h.connected
  members h hsame := Serviced.congr h hsame
  foreign h _ := h
  parser p h := ⟨Lined.parser h.toLined p, h.reading⟩
  push _ hx h := Serviced.push h hx
  pop hcalls hx h := Serviced.pop h hcalls hx
  event he _ _ h := callProtocolState_serviced h (peaceful_single he h.toLined)

theorem Lined.serialPort (h : Lined s) {p : SerialPort} (htruthful : p.Truthful)
    (hcurrent : p.currentWrites.length ≤ s.serialPort.currentWrites.length) : Lined { s with serialPort := p } := by
  refine ⟨h.connected, h.consistent, h.halted, htruthful, fun hstarted => ?_, h.bottom⟩
  obtain ⟨hone, hnone⟩ := h.single hstarted
  refine ⟨hcurrent.trans hone, fun hfree => ?_⟩
  rw [hnone hfree] at hcurrent
  exact List.length_eq_zero_iff.mp (Nat.le_zero.mp hcurrent)

theorem Lined.unregistered (h : Lined s) : Serviced { s with registered := false } :=
  ⟨⟨h.connected, h.consistent, h.halted, h.truthful, h.single, h.bottom⟩, fun hreg => Bool.noConfusion hreg⟩

theorem Lined.close (h : Lined s) : Lined { s with serialPort := s.serialPort.close } := by
  have hsame : s.serialPort.close.currentWrites.length = s.serialPort.currentWrites.length :=
    SerialPort.currentWrites_completes (SerialPort.completes_map fun w _ => SerialPort.credible_error w)
  exact h.serialPort h.truthful.close hsame.le

theorem close_serviced : Maintains StaysServiced closeSerialPort := fun _ _ h =>
  wp_closeSerialPort ⟨Lined.close h.toLined, fun hreg hnbr => (h.reading hreg hnbr).imp_left fun hread => hread.close⟩

theorem halt_serviced {e : LocalEvent} (he : e = .stop ∨ e = .shutdown) :
    Maintains StaysServiced (callProtocolState (handleLocal e)) := by
  intro s o h
  have hstopped := (prepare_halts he s.protocolState).1
  exact callProtocolState_serviced (e := .internal e) h fun hrunning =>
    absurd (hstopped.symm.trans hrunning) Bool.noConfusion

theorem dissolve_serviced : Maintains StaysServiced dissolve :=
  (halt_serviced (.inr rfl)).andThen wired_serviced.stopClients

theorem output_serviced (xs : List Output) : Maintains StaysServiced (emit xs) := .emit fun _ _ h => h

theorem stop_lined (h : Lined s) : stop.wp StaysServiced s o := by
  refine wp_andThen.mpr (wp_emit.mpr (wp_branch (fun _ => ?_) fun hunreg => wp_skip.mpr ⟨h, fun hreg => ?_⟩))
  · exact wp_andThen.mpr (wp_update.mpr ((close_serviced.andThen dissolve_serviced) _ _ h.unregistered))
  · exact absurd (hunreg.symm.trans hreg) Bool.noConfusion

theorem stop_serviced : Maintains StaysServiced stop := fun _ _ h => stop_lined h.toLined

theorem suspendSerialPort_serviced : Maintains StaysServiced suspendSerialPort := by
  have hclosed := (output_serviced [.suspended]).andThen ((halt_serviced (.inl rfl)).andThen close_serviced)
  refine Maintains.branch (fun s o h => ?_) .skip
  have hlocked : StaysServiced { s with serialPortLock := s.serialPortLock.suspendSerialPort.1 } o :=
    ⟨⟨h.connected, h.consistent, h.halted, h.truthful, h.single, h.bottom⟩,
      fun _ hnbr => absurd hnbr (Nat.succ_ne_zero _)⟩
  refine wp_of_eq (b := (if s.serialPortLock.suspendSerialPort.2 = true then
      (emit [.suspended]).andThen ((Port.callProtocolState ProtocolState.stop).andThen closeSerialPort)
      else skip).andThen propagateSerialPortState) rfl ?_
  exact ((hclosed.ite .skip).andThen wired_serviced.propagateSerialPortState) _ _ hlocked

theorem doRead_serviced (h : Lined s) : doRead.wp StaysServiced s o := by
  refine wp_andThen.mpr (wp_emit.mpr (wp_update.mpr ⟨?_, fun _ _ => .inl ?_⟩))
  · exact h.serialPort ⟨h.truthful.opened, h.truthful.written⟩ (Nat.le_refl _)
  · exact ⟨_, List.mem_append_right _ (List.mem_singleton.mpr rfl), rfl⟩

theorem openSerialPort_serviced (opens : OpenResult) (h : Lined s) : (openSerialPort opens).wp StaysServiced s o := by
  have hnone := SerialPort.currentWrites_openPort h.truthful
  have hempty : s.serialPort.openPort.currentWrites.length ≤ 1 := by
    rw [hnone]
    exact Nat.zero_le _
  have hopened : Lined { s with serialPort := s.serialPort.openPort } :=
    ⟨h.connected, h.consistent, h.halted, h.truthful.openPort,
      fun _ => ⟨hempty, fun _ => hnone⟩, h.bottom⟩
  have hfailed {t : Port} (ht : Lined t) : (unregister.andThen dissolve).wp StaysServiced t o :=
    wp_andThen.mpr (wp_update.mpr (dissolve_serviced _ _ ht.unregistered))
  cases opens with
  | failed => exact hfailed h
  | notConfigured => exact wp_andThen.mpr (wp_update.mpr (hfailed hopened))
  | opened =>
    have hstarted := callProtocolState_lined (e := .internal .start) hopened fun _ => ⟨hempty, fun _ => hnone⟩
    refine wp_andThen.mpr (wp_update.mpr (wp_andThen.mpr (wp_andThen.mpr ?_)))
    exact wp_mono (doRead_serviced hstarted) wired_serviced.propagateSerialPortState

theorem resumeSerialPort_serviced (opens : OpenResult) : Maintains StaysServiced (resumeSerialPort opens) := by
  intro s o h
  refine wp_branch (fun _ => ?_) fun _ => wp_skip.mpr h
  have hunlocked : Lined { s with serialPortLock := s.serialPortLock.resumeSerialPort.1 } :=
    ⟨h.connected, h.consistent, h.halted, h.truthful, h.single, h.bottom⟩
  refine wp_of_eq (b := if s.serialPortLock.resumeSerialPort.2 = true then
      (emit [.resumed]).andThen (openSerialPort opens) else propagateSerialPortState) rfl ?_
  split_ifs with hlast
  · exact wp_andThen.mpr (wp_emit.mpr (openSerialPort_serviced opens hunlocked))
  · refine wired_serviced.propagateSerialPortState _ _ ⟨hunlocked, fun _ hnbr => absurd ?_ hlast⟩
    exact beq_iff_eq.mpr hnbr

theorem Lined.locked (h : Lined s) (hlocked : s.serialPortLock.getSerialPortState = true) : Serviced s := by
  refine ⟨h, fun _ hnbr => ?_⟩
  rw [SerialPortLock.getSerialPortState, hnbr] at hlocked
  exact Bool.noConfusion hlocked

theorem error_serviced (h : Lined s) :
    (branch (·.serialPortLock.getSerialPortState) skip stop).wp StaysServiced s o :=
  wp_branch (fun hlocked => wp_skip.mpr (h.locked hlocked)) fun _ => stop_lined h

theorem readHandler_serviced {i : Nat} (hidle : s.calls = []) (h : Serviced s) :
    (readHandler i).wp StaysServiced s o := by
  unfold wp readHandler
  split
  · rename_i r hr
    split
    · rename_i result _
      have herased : Lined { s with serialPort := { s.serialPort with reads := s.serialPort.reads.eraseIdx i } } :=
        h.toLined.serialPort ⟨h.truthful.opened, h.truthful.written⟩ (Nat.le_refl _)
      cases result with
      | error => exact error_serviced herased
      | success bytes =>
        have hpushed : Serviced { s with
            serialPort := { s.serialPort with reads := s.serialPort.reads.eraseIdx i }
            calls := .readHandler r.opening :: s.calls } := by
          refine ⟨⟨h.connected, h.consistent, h.halted, ⟨h.truthful.opened, h.truthful.written⟩, h.single, ?_⟩,
            fun hreg hnbr => ?_⟩
          · rw [hidle]
            exact fun y hy => absurd hy List.not_mem_nil
          · by_cases hcurrent : r.opening = s.serialPort.openings
            · exact .inr (hcurrent ▸ List.mem_cons_self ..)
            · have hread := (h.reading hreg hnbr).resolve_right (by rw [hidle]; exact List.not_mem_nil)
              exact .inl (hread.eraseIdx hr hcurrent)
        show (onRead r (.success bytes)).wp StaysServiced _ _
        refine wp_andThen.mpr (wp_update.mpr ?_)
        exact ((wired_serviced.pushCall (x := .addReceivedRawBytes 0 bytes) trivial).branch .skip) _ _ hpushed
    · exact h
  · exact h

theorem Serviced.erased (h : Serviced s) {i : Nat} {w : WriteOperation} (hw : s.serialPort.writes[i]? = some w) :
    Serviced { s with serialPort := { s.serialPort with writes := s.serialPort.writes.eraseIdx i } } := by
  have hless := SerialPort.currentWrites_eraseIdx hw
  refine ⟨h.toLined.serialPort (h.truthful.sublist (List.eraseIdx_sublist ..)) ?_, h.reading⟩
  exact hless ▸ Nat.le_add_right ..

theorem Serviced.offset (h : Serviced s) (n : Nat) : Serviced { s with sendBufferOffset := n } :=
  ⟨⟨h.connected, h.consistent, h.halted, h.truthful, h.single, h.bottom⟩, h.reading⟩

theorem doWrite_serviced (h : Serviced s) (hfree : s.protocolState.started = true →
    s.serialPort.currentWrites = [] ∧ s.protocolState.awaitsNextHDLCFrame = false) :
    doWrite.wp StaysServiced s o := by
  refine ⟨⟨h.connected, h.consistent, h.halted, h.truthful.asyncWriteSome _, fun hstarted => ?_,
    h.bottom⟩, h.reading⟩
  obtain ⟨hnone, hbusy⟩ := hfree hstarted
  refine ⟨?_, fun hawaits => absurd (hbusy.symm.trans hawaits) Bool.noConfusion⟩
  have hone := SerialPort.currentWrites_asyncWriteSome s.serialPort (s.sendBuffer.drop s.sendBufferOffset)
  rw [hnone] at hone
  exact hone.le

theorem onWrite_serviced {n : Nat} (h : Serviced s)
    (hfree : s.serialPortLock.getSerialPortState = false → s.protocolState.started = true →
      s.serialPort.currentWrites = [] ∧ s.protocolState.awaitsNextHDLCFrame = false) :
    (onWrite (.success n)).wp StaysServiced s o := by
  refine wp_andThen.mpr (wp_update.mpr (wp_branch (fun _ => ?_) fun _ => ?_))
  · refine wp_andThen.mpr (wp_update.mpr (wp_branch (fun _ => wp_skip.mpr (h.offset 0)) fun hunlocked => ?_))
    refine wp_andThen.mpr (wp_emit.mpr ?_)
    refine callProtocolState_serviced (e := .internal .triggerNextHDLCFrame) (h.offset 0) fun hrunning => ?_
    have hstarted : s.protocolState.started = true := by
      by_contra hstopped
      rw [prepare_started] at hrunning
      exact hstopped hrunning
    have hnone := (hfree hunlocked hstarted).1
    refine ⟨?_, fun _ => hnone⟩
    show s.serialPort.currentWrites.length ≤ 1
    rw [hnone]
    exact Nat.zero_le _
  · refine wp_branch (fun _ => wp_skip.mpr (h.offset _)) fun hunlocked => ?_
    exact doWrite_serviced (h.offset _) (hfree hunlocked)

theorem writeHandler_serviced {i : Nat} (h : Serviced s)
    (hlocked : ∀ w n, s.serialPort.writes[i]? = some w → w.result = some (.success n) →
      w.opening ≠ s.serialPort.openings → s.serialPortLock.getSerialPortState = true) :
    (writeHandler i).wp StaysServiced s o := by
  unfold wp writeHandler
  split
  · rename_i w hw
    split
    · rename_i result hresult
      have herased := h.erased hw
      cases result with
      | error => exact error_serviced herased.toLined
      | success n =>
        refine onWrite_serviced (o := o) herased fun hunlocked hstarted => ?_
        have hcurrent : w.opening = s.serialPort.openings := by
          by_contra hold
          exact absurd (hunlocked.symm.trans (hlocked w n hw hresult hold)) Bool.noConfusion
        obtain ⟨hone, hnone⟩ := h.single hstarted
        have hless := SerialPort.currentWrites_eraseIdx hw
        rw [if_pos hcurrent] at hless
        refine ⟨List.length_eq_zero_iff.mp ?_, ?_⟩
        · dsimp only
          omega
        · by_contra hfree
          have hempty := hnone (Bool.eq_true_of_not_eq_false hfree)
          rw [hempty, List.length_nil] at hless
          exact absurd hless (Nat.succ_ne_zero _).symm
    · exact h
  · exact h

theorem writeCompletes_serviced {i : Nat} {result : WriteResult} (h : Serviced s)
    (hvalid : s.validWrite i result = true) :
    Serviced { s with serialPort := s.serialPort.writeCompletes i result } := by
  have hcredible (w : WriteOperation) (hw : s.serialPort.writes[i]? = some w) : SerialPort.Credible result w :=
    credible_of_validWrite hvalid hw
  have hsame : (s.serialPort.writeCompletes i result).currentWrites.length = s.serialPort.currentWrites.length :=
    SerialPort.currentWrites_completes (SerialPort.completes_modify hcredible)
  exact ⟨h.toLined.serialPort (h.truthful.writeCompletes hcredible) hsame.le, h.reading⟩

theorem readCompletes_serviced (i : Nat) (completion : ReadCompletion) :
    Maintains StaysServiced (readCompletes i completion) := by
  have hfilled : Maintains StaysServiced (update (fillReadBuffer completion.bytes)) :=
    .update fun _ _ h => Serviced.congr h rfl
  refine (hfilled.branch .skip).andThen (.update fun _ _ h => ⟨?_, fun hreg hnbr => ?_⟩)
  · exact Lined.serialPort h.toLined ⟨h.truthful.opened, h.truthful.written⟩ (Nat.le_refl _)
  · exact (h.reading hreg hnbr).imp_left fun hread => hread.readCompletes i completion.result

theorem releaseLock_serviced (c : ClientId) (h : HdlcdServerHandler) (opens : OpenResult) :
    Maintains StaysServiced (releaseLock c h opens) := by
  unfold releaseLock
  exact ((wired_serviced.modifyHandler c (setLockedBySelf false)).andThen (resumeSerialPort_serviced opens)).ite .skip

theorem timer_serviced (e : TimerEvent) :
    Maintains StaysServiced (callProtocolState (ProtocolState.handleLocal e.localEvent)) := by
  intro s o h
  refine callProtocolState_serviced (e := .internal e.localEvent) h ?_
  cases e with
  | probeTimerHandler =>
    have hsame := prepare_probe s.protocolState
    simp only [Prod.mk.injEq] at hsame
    obtain ⟨hstarted, hawaits, _⟩ := hsame
    rw [TimerEvent.localEvent, hstarted, hawaits]
    exact h.single
  | _ => exact peaceful_single trivial h.toLined

def runsOutdated (s : Port) : Event → Bool
  | .readHandler i =>
    s.calls.isEmpty && (s.serialPort.reads[i]?).any fun r => r.result.isSome && r.opening != s.serialPort.openings
  | .writeHandler i =>
    s.calls.isEmpty && (s.serialPort.writes[i]?).any fun w => w.result.isSome && w.opening != s.serialPort.openings
  | .proceed =>
    s.calls.any fun
      | .readHandler opening => opening != s.serialPort.openings
      | _ => false
  | _ => false

def endsRead (s : Port) : Bool :=
  s.calls.head?.any fun
    | .readHandler _ => true
    | _ => false

def harmless (s : Port) : Event → Bool
  | .readHandler i =>
    s.serialPortLock.getSerialPortState || (s.serialPort.reads[i]?).all fun r => r.result != some .error
  | .writeHandler i =>
    s.serialPortLock.getSerialPortState && (s.serialPort.writes[i]?).all fun w =>
      w.result.all fun
        | .success bytesSent => s.sendBufferOffset == 0 && bytesSent == s.sendBuffer.length
        | .error => true
  | .proceed =>
    s.serialPortLock.getSerialPortState || !s.endsRead || !s.registered && s.serialPort.currentReads.isEmpty
  | _ => true

def Harmless (s : Port) (e : Event) : Prop := s.runsOutdated e = true → s.harmless e = true

/-- An outdated handler stops the port, starts a second read or write, changes the offset, or asks for
the next frame. -/
structure Disturbs (s : Port) (e : Event) : Prop where
  outdated : s.runsOutdated e = true
  disturbed : .stop ∈ (step e s).2 ∨ .triggerNextHDLCFrame ∈ (step e s).2 ∨
    (step e s).1.sendBufferOffset ≠ s.sendBufferOffset ∨
    (.doRead ∈ (step e s).2 ∧ 2 ≤ (step e s).1.serialPort.currentReads.length) ∨
    (.doWrite ∈ (step e s).2 ∧ 2 ≤ (step e s).1.serialPort.currentWrites.length)

theorem step_serviced {e : Event} (hs : Serviced s) (he : Harmless s e) : (step e).wp StaysServiced s o := by
  cases e with
  | attach c sap opens => exact wired_serviced.attach c sap opens s o hs
  | disconnect c opens =>
    exact wired_serviced.disconnect stop_serviced hs fun h _ _ _ =>
      resumeSerialPort_serviced opens _ _ (hs.congr rfl)
  | receive c packet opens =>
    exact wired_serviced.receive stop_serviced suspendSerialPort_serviced hs fun h _ _ _ =>
      releaseLock_serviced c h opens _ _ hs
  | endReceiving c => exact wired_serviced.endReceiving c s o hs
  | proceed =>
    refine wired_serviced.proceed hs fun g calls hcalls => ?_
    have hpopped := hs.toLined.pop hcalls
    exact wp_branch (fun hlocked => wp_skip.mpr (hpopped.locked hlocked)) fun _ => doRead_serviced hpopped
  | timer e => exact wp_branch (fun _ => timer_serviced e s o hs) fun _ => wp_skip.mpr hs
  | readCompletes i completion => exact ((readCompletes_serviced i completion).ite .skip) s o hs
  | readHandler i =>
    exact wp_branch (fun hidle => readHandler_serviced (List.isEmpty_iff.mp hidle) hs) fun _ => wp_skip.mpr hs
  | writeCompletes i result =>
    exact wp_branch (fun hvalid => wp_update.mpr (writeCompletes_serviced hs hvalid)) fun _ => wp_skip.mpr hs
  | writeHandler i =>
    refine wp_branch (fun hidle => writeHandler_serviced hs fun w n hw hresult hold => ?_) fun _ => wp_skip.mpr hs
    have hidle : s.calls.isEmpty = true := hidle
    have hlost := he (by rw [runsOutdated, hidle, hw, Option.any_some, hresult, bne_iff_ne.mpr hold]; rfl)
    exact (Bool.and_eq_true_iff.mp hlost).1

/-- The assertion of a handler that goes on with an inner call: writes are left to the protocol state. -/
structure Undisturbed (offset : Nat) (s : Port) (o : List Output) : Prop extends Serviced s where
  offset : s.sendBufferOffset = offset
  mild : ∀ y ∈ o, y ≠ .stop ∧ y ≠ .triggerNextHDLCFrame ∧ y ≠ .doRead
  writes : .doWrite ∈ o → s.protocolState.started = true

theorem Undisturbed.congr {n : Nat} (h : Undisturbed n s o) (hsame : lineMembers t = lineMembers s) :
    Undisturbed n t o := by
  refine ⟨h.toServiced.congr hsame, ?_, h.mild, ?_⟩
  all_goals
    simp only [lineMembers, Prod.mk.injEq] at hsame
    obtain ⟨_, _, hps, _, hoffset, _⟩ := hsame
  · exact hoffset.trans h.offset
  · rw [hps]
    exact h.writes

theorem mild_append {xs : List Output} (ho : ∀ y ∈ o, y ≠ .stop ∧ y ≠ .triggerNextHDLCFrame ∧ y ≠ .doRead)
    (hxs : ∀ y ∈ xs, y ≠ .stop ∧ y ≠ .triggerNextHDLCFrame ∧ y ≠ .doRead) :
    ∀ y ∈ o ++ xs, y ≠ .stop ∧ y ≠ .triggerNextHDLCFrame ∧ y ≠ .doRead :=
  fun y hy => (List.mem_append.mp hy).elim (ho y) (hxs y)

theorem Undisturbed.foreign {n : Nat} {xs : List Output} (h : Undisturbed n s o) (hxs : ∀ y ∈ xs, y.Foreign) :
    Undisturbed n s (o ++ xs) := by
  refine ⟨h.toServiced, h.offset, mild_append h.mild fun y hy => ?_, fun hwrite => ?_⟩
  · have hforeign := hxs y hy
    refine ⟨?_, ?_, ?_⟩
    all_goals
      rintro rfl
      exact hforeign
  · exact h.writes ((List.mem_append.mp hwrite).resolve_right fun hnew => hxs _ hnew)

theorem peaceful_undisturbed {e : Hdlcd.Event} {n : Nat} (he : e.Peaceful) :
    Maintains (Undisturbed n) (callProtocolState (handle e)) := by
  intro s o h
  have hdone := callProtocolState_done (handle e) s
  have hserved := hdone.served.same
  simp only [servedMembers, Prod.mk.injEq] at hserved
  obtain ⟨_, hps, hoffset, _⟩ := hserved
  have hsame := prepare_peaceful he s.protocolState
  simp only [passMembers, Prod.mk.injEq] at hsame
  obtain ⟨hstarted, hawaits, hhandler, hprobe⟩ := hsame
  have hstays : (callProtocolState (handle e) s).1.protocolState.started = s.protocolState.started := by
    rw [hps, handle_started h.consistent e, ← prepare_started, hstarted]
  refine ⟨callProtocolState_serviced h.toServiced (peaceful_single he h.toLined), hoffset.trans h.offset,
    mild_append h.mild fun y hy => ?_, fun hwrite => hstays.trans ?_⟩
  · have hindirect := hdone.outputs y hy
    refine ⟨?_, ?_, ?_⟩
    all_goals
      rintro rfl
      exact hindirect
  · rcases List.mem_append.mp hwrite with hold | hnew
    · exact h.writes hold
    · cases callProtocolState_frames h.consistent e with
      | none _ _ hquiet => exact (hquiet _ hnew).elim
      | one _ _ hfree hset hcause _ _ =>
        rw [hawaits] at hfree
        rw [hhandler] at hset
        rw [hprobe, hstarted] at hcause
        by_contra hstopped
        have hnone := h.halted (Bool.eq_false_of_not_eq_true hstopped) hfree hset
        rw [hnone] at hcause
        exact hcause.elim Bool.noConfusion hstopped

theorem wired_undisturbed (n : Nat) : Wired (Undisturbed n) where
  connected h := h.connected
  members h hsame := h.congr hsame
  foreign h hxs := h.foreign hxs
  parser p h := ⟨⟨Lined.parser h.toLined p, h.reading⟩, h.offset, h.mild, h.writes⟩
  push _ hx h := ⟨h.toServiced.push hx, h.offset, h.mild, h.writes⟩
  pop hcalls hx h := ⟨h.toServiced.pop hcalls hx, h.offset, h.mild, h.writes⟩
  event he := peaceful_undisturbed he

theorem Undisturbed.calm {e : Event} (h : Undisturbed s.sendBufferOffset (step e s).1 (step e s).2) :
    ¬ Disturbs s e := by
  rintro ⟨_, hstop | htrigger | hoffset | ⟨hread, _⟩ | ⟨hwrite, htwo⟩⟩
  · exact (h.mild _ hstop).1 rfl
  · exact (h.mild _ htrigger).2.1 rfl
  · exact hoffset h.offset
  · exact (h.mild _ hread).2.2 rfl
  · have hone := (h.single (h.writes hwrite)).1
    omega

theorem silent_calm {e : Event} (hsilent : (step e s).2 = [])
    (hoffset : (step e s).1.sendBufferOffset = s.sendBufferOffset) : ¬ Disturbs s e := by
  rintro ⟨_, hdisturbed⟩
  rw [hsilent, hoffset] at hdisturbed
  simp at hdisturbed

theorem outdated_read {i : Nat} (h : s.runsOutdated (.readHandler i) = true) :
    s.calls.isEmpty = true ∧ ∃ r result, s.serialPort.reads[i]? = some r ∧ r.result = some result := by
  obtain ⟨hidle, hany⟩ := Bool.and_eq_true_iff.mp h
  obtain ⟨r, hr, hlate⟩ := (Option.any_eq_true _ _).mp hany
  obtain ⟨result, hresult⟩ := Option.isSome_iff_exists.mp (Bool.and_eq_true_iff.mp hlate).1
  exact ⟨hidle, r, result, hr, hresult⟩

theorem outdated_write {i : Nat} (h : s.runsOutdated (.writeHandler i) = true) :
    s.calls.isEmpty = true ∧ ∃ w result, s.serialPort.writes[i]? = some w ∧ w.result = some result := by
  obtain ⟨hidle, hany⟩ := Bool.and_eq_true_iff.mp h
  obtain ⟨w, hw, hlate⟩ := (Option.any_eq_true _ _).mp hany
  obtain ⟨result, hresult⟩ := Option.isSome_iff_exists.mp (Bool.and_eq_true_iff.mp hlate).1
  exact ⟨hidle, w, result, hw, hresult⟩

theorem step_readHandler {i : Nat} {r : ReadOperation} {result : ReadResult} (hidle : s.calls.isEmpty = true)
    (hr : s.serialPort.reads[i]? = some r) (hresult : r.result = some result) :
    step (.readHandler i) s = onRead r result
      { s with serialPort := { s.serialPort with reads := s.serialPort.reads.eraseIdx i } } := by
  have hrun : step (.readHandler i) s = readHandler i s := if_pos hidle
  rw [hrun, readHandler, hr]
  dsimp only
  rw [hresult]

theorem step_writeHandler {i : Nat} {w : WriteOperation} {result : WriteResult} (hidle : s.calls.isEmpty = true)
    (hw : s.serialPort.writes[i]? = some w) (hresult : w.result = some result) :
    step (.writeHandler i) s = onWrite result
      { s with serialPort := { s.serialPort with writes := s.serialPort.writes.eraseIdx i } } := by
  have hrun : step (.writeHandler i) s = writeHandler i s := if_pos hidle
  rw [hrun, writeHandler, hw]
  dsimp only
  rw [hresult]

theorem stop_emits (s : Port) : .stop ∈ (stop s).2 := List.mem_append_left _ (List.mem_singleton.mpr rfl)

theorem onWrite_part {n : Nat} (h : s.sendBufferOffset + n ≠ s.sendBuffer.length) :
    (onWrite (.success n) s).1.sendBufferOffset = s.sendBufferOffset + n := by
  have hwritten : (onWrite (.success n)).wp (fun t _ => t.sendBufferOffset = s.sendBufferOffset + n) s [] := by
    refine wp_andThen.mpr (wp_update.mpr (wp_branch (fun hdone => ?_) fun _ => ?_))
    · exact absurd (beq_iff_eq.mp hdone) h
    · exact wp_branch (fun _ => wp_skip.mpr rfl) fun _ => rfl
  exact hwritten

theorem onWrite_last_locked {n : Nat} (h : s.sendBufferOffset + n = s.sendBuffer.length)
    (hlocked : s.serialPortLock.getSerialPortState = true) :
    onWrite (.success n) s = ({ s with sendBufferOffset := 0 }, []) := by
  have hdone : (s.sendBufferOffset + n == s.sendBuffer.length) = true := beq_iff_eq.mpr h
  simp only [onWrite, andThen, update, branch, hdone, if_true, hlocked, skip, List.append_nil]

theorem onWrite_last_unlocked {n : Nat} (h : s.sendBufferOffset + n = s.sendBuffer.length)
    (hunlocked : s.serialPortLock.getSerialPortState = false) :
    .triggerNextHDLCFrame ∈ (onWrite (.success n) s).2 := by
  have hasked : (onWrite (.success n)).wp (fun _ o => .triggerNextHDLCFrame ∈ o) s [] := by
    refine wp_andThen.mpr (wp_update.mpr (wp_branch (fun _ => ?_) fun hpart => ?_))
    · refine wp_andThen.mpr (wp_update.mpr (wp_branch (fun hlocked => ?_) fun _ => ?_))
      · exact absurd (hunlocked.symm.trans hlocked) Bool.noConfusion
      · exact wp_andThen.mpr (wp_emit.mpr (List.mem_append_left _ (List.mem_singleton.mpr rfl)))
    · exact absurd h (beq_eq_false_iff_ne.mp hpart)
  exact hasked

theorem disturbs_read_iff {i : Nat} (houtdated : s.runsOutdated (.readHandler i) = true) :
    Disturbs s (.readHandler i) ↔ s.harmless (.readHandler i) = false := by
  obtain ⟨hidle, r, result, hr, hresult⟩ := outdated_read houtdated
  have hstep := step_readHandler hidle hr hresult
  have hharmless : s.harmless (.readHandler i) = (s.serialPortLock.getSerialPortState || result != .error) := by
    rw [harmless, hr, Option.all_some, hresult]
    cases result <;> rfl
  rw [hharmless]
  cases result with
  | success bytes =>
    have hpushed (x : Call) : Maintains (fun t o => o = [] ∧ t.sendBufferOffset = s.sendBufferOffset)
        (pushCall x) := .update fun _ _ h => h
    have hsilent : (onRead r (.success bytes)).wp (fun t o => o = [] ∧ t.sendBufferOffset = s.sendBufferOffset)
        { s with serialPort := { s.serialPort with reads := s.serialPort.reads.eraseIdx i } } [] :=
      ((hpushed (.readHandler r.opening)).andThen ((hpushed (.addReceivedRawBytes 0 bytes)).branch .skip)) _ _
        ⟨rfl, rfl⟩
    rw [wp, ← hstep] at hsilent
    exact iff_of_false (silent_calm hsilent.1 hsilent.2) (by simp)
  | error =>
    cases hlocked : s.serialPortLock.getSerialPortState with
    | true =>
      have hskipped : step (.readHandler i) s = (_, []) := hstep.trans (if_pos hlocked)
      exact iff_of_false (silent_calm (by rw [hskipped]) (by rw [hskipped])) (by simp)
    | false =>
      refine iff_of_true ⟨houtdated, .inl ?_⟩ rfl
      rw [hstep, onRead, branch, if_neg (by simp [hlocked])]
      exact stop_emits _

theorem disturbs_write_iff {i : Nat} (hs : Serviced s) (houtdated : s.runsOutdated (.writeHandler i) = true) :
    Disturbs s (.writeHandler i) ↔ s.harmless (.writeHandler i) = false := by
  obtain ⟨hidle, w, result, hw, hresult⟩ := outdated_write houtdated
  have hstep := step_writeHandler hidle hw hresult
  cases result with
  | error =>
    have hharmless : s.harmless (.writeHandler i) = s.serialPortLock.getSerialPortState := by
      rw [harmless, hw, Option.all_some, hresult, Option.all_some, Bool.and_true]
    rw [hharmless]
    cases hlocked : s.serialPortLock.getSerialPortState with
    | true =>
      have hskipped : step (.writeHandler i) s = (_, []) := hstep.trans (if_pos hlocked)
      exact iff_of_false (silent_calm (by rw [hskipped]) (by rw [hskipped])) Bool.noConfusion
    | false =>
      refine iff_of_true ⟨houtdated, .inl ?_⟩ rfl
      rw [hstep, onWrite, branch, if_neg (by simp [hlocked])]
      exact stop_emits _
  | success n =>
    have hharmless : s.harmless (.writeHandler i) = (s.serialPortLock.getSerialPortState &&
        (s.sendBufferOffset == 0 && n == s.sendBuffer.length)) := by
      rw [harmless, hw, Option.all_some, hresult, Option.all_some]
    have hpositive := (hs.truthful.written w (List.mem_of_getElem? hw) n hresult).1
    rw [hharmless]
    by_cases hlast : s.sendBufferOffset + n = s.sendBuffer.length
    · cases hlocked : s.serialPortLock.getSerialPortState with
      | true =>
        have hreset := hstep.trans (onWrite_last_locked hlast hlocked)
        by_cases hzero : s.sendBufferOffset = 0
        · have hwhole : n = s.sendBuffer.length := by
            rw [hzero, Nat.zero_add] at hlast
            exact hlast
          refine iff_of_false (silent_calm (by rw [hreset]) ?_) (by simp [hzero, hwhole])
          rw [hreset, hzero]
        · refine iff_of_true ⟨houtdated, .inr (.inr (.inl ?_))⟩ (by simp [hzero])
          rw [hreset]
          exact fun h => hzero h.symm
      | false =>
        refine iff_of_true ⟨houtdated, .inr (.inl ?_)⟩ rfl
        rw [hstep]
        exact onWrite_last_unlocked hlast hlocked
    · have hmoved : (step (.writeHandler i) s).1.sendBufferOffset = s.sendBufferOffset + n := by
        rw [hstep]
        exact onWrite_part hlast
      refine iff_of_true ⟨houtdated, .inr (.inr (.inl ?_))⟩ ?_
      · omega
      · by_contra hlost
        simp only [Bool.not_eq_false, Bool.and_eq_true, beq_iff_eq] at hlost
        omega

theorem endsRead_cases (h : s.endsRead = true) : ∃ g calls, s.calls = .readHandler g :: calls := by
  unfold endsRead at h
  cases hcalls : s.calls with
  | nil => simp [hcalls] at h
  | cons x calls =>
    cases x with
    | readHandler g => exact ⟨g, calls, rfl⟩
    | _ => simp [hcalls] at h

theorem step_endsRead {g : Nat} {calls : List Call} (hcalls : s.calls = .readHandler g :: calls) :
    step .proceed s = branch (·.serialPortLock.getSerialPortState) skip doRead { s with calls := calls } := by
  have hrun : step .proceed s = proceed s := rfl
  rw [hrun, proceed, hcalls]
  rfl

theorem Serviced.reads (h : Serviced s) {g : Nat} {calls : List Call} (hcalls : s.calls = .readHandler g :: calls)
    (houtdated : s.runsOutdated .proceed = true) (hreg : s.registered = true)
    (hunlocked : s.serialPortLock.getSerialPortState = false) : s.serialPort.Reading := by
  have hnone : calls = [] := by
    cases calls with
    | nil => rfl
    | cons x calls =>
      have hbottom := h.bottom
      rw [hcalls] at hbottom
      exact (hbottom _ (List.mem_cons_self ..)).elim
  subst hnone
  rw [runsOutdated, hcalls, List.any_cons, List.any_nil, Bool.or_false] at houtdated
  have hold : g ≠ s.serialPort.openings := bne_iff_ne.mp houtdated
  have hnbr : s.serialPortLock.nbrOfLocks = 0 := by
    by_contra hlocks
    exact absurd (hunlocked.symm.trans (bne_iff_ne.mpr hlocks)) Bool.noConfusion
  refine (h.reading hreg hnbr).resolve_right fun hmem => hold ?_
  rw [hcalls, List.mem_singleton] at hmem
  exact (Call.readHandler.inj hmem).symm

theorem disturbs_proceed_iff (hs : Serviced s) (houtdated : s.runsOutdated .proceed = true) :
    Disturbs s .proceed ↔ s.harmless .proceed = false := by
  have hbefore : Undisturbed s.sendBufferOffset s [] :=
    ⟨hs, rfl, fun y hy => absurd hy List.not_mem_nil, fun hwrite => absurd hwrite List.not_mem_nil⟩
  by_cases hends : s.endsRead = true
  · obtain ⟨g, calls, hcalls⟩ := endsRead_cases hends
    have hstep := step_endsRead hcalls
    cases hlocked : s.serialPortLock.getSerialPortState with
    | true =>
      have hskipped : step .proceed s = ({ s with calls := calls }, []) := hstep.trans (if_pos hlocked)
      refine iff_of_false (silent_calm (by rw [hskipped]) (by rw [hskipped])) ?_
      simp [harmless, hlocked]
    | false =>
      have hread : step .proceed s = doRead { s with calls := calls } := hstep.trans (if_neg (by simp [hlocked]))
      have hreads : (step .proceed s).1.serialPort.currentReads.length = s.serialPort.currentReads.length + 1 := by
        rw [hread]
        exact SerialPort.currentReads_asyncReadSome s.serialPort
      have hoffset : (step .proceed s).1.sendBufferOffset = s.sendBufferOffset := by
        rw [hread]
        rfl
      have houtputs : (step .proceed s).2 = [.doRead] := by
        rw [hread]
        rfl
      have hharmless : s.harmless .proceed = (!s.registered && s.serialPort.currentReads.isEmpty) := by
        rw [harmless, hlocked, hends, Bool.not_true, Bool.or_false, Bool.false_or]
      have hnonempty : s.serialPort.currentReads.isEmpty = false ↔ 1 ≤ s.serialPort.currentReads.length := by
        rw [List.isEmpty_eq_false_iff, ← List.length_pos_iff, Nat.succ_le_iff]
      constructor
      · rintro ⟨_, hdisturbed⟩
        rw [houtputs, hreads, hoffset] at hdisturbed
        have htwo : 2 ≤ s.serialPort.currentReads.length + 1 := by simpa using hdisturbed
        rw [hharmless, hnonempty.mpr (Nat.le_of_succ_le_succ htwo), Bool.and_false]
      · intro hlost
        refine ⟨houtdated, .inr (.inr (.inr (.inl ⟨?_, ?_⟩)))⟩
        · rw [houtputs]
          exact List.mem_singleton.mpr rfl
        · rw [hreads]
          refine Nat.succ_le_succ ?_
          cases hreg : s.registered with
          | true => exact (hs.reads hcalls houtdated hreg hlocked).currentReads
          | false =>
            rw [hharmless, hreg] at hlost
            exact hnonempty.mp hlost
  · have hcalm : ¬ Disturbs s .proceed := by
      have hkept : proceed.wp (Undisturbed s.sendBufferOffset) s [] := by
        refine (wired_undisturbed _).proceed hbefore fun g calls hcalls => absurd ?_ hends
        rw [endsRead, hcalls]
        rfl
      have hafter : Undisturbed s.sendBufferOffset (step .proceed s).1 (step .proceed s).2 := hkept
      exact hafter.calm
    exact iff_of_false hcalm (by simp [harmless, hends])

theorem disturbs_iff {e : Event} (hs : Serviced s) : ¬ Disturbs s e ↔ Harmless s e := by
  unfold Harmless
  by_cases houtdated : s.runsOutdated e = true
  · rw [forall_prop_of_true houtdated, ← Bool.not_eq_false]
    refine not_congr ?_
    cases e with
    | readHandler i => exact disturbs_read_iff houtdated
    | writeHandler i => exact disturbs_write_iff hs houtdated
    | proceed => exact disturbs_proceed_iff hs houtdated
    | _ => exact Bool.noConfusion houtdated
  · exact iff_of_true (fun h => houtdated h.outdated) fun h => absurd h houtdated

theorem initial_current (e : Event) : initial.runsOutdated e = false := by cases e <;> rfl

theorem openSerialPort_attached (c : ClientId) (h : HdlcdServerHandler) (opens : OpenResult) :
    (openSerialPort opens).wp StaysServiced (withHandler c h initial) [] := by
  refine openSerialPort_serviced opens ⟨List.cons_ne_nil _ _, Consistent.initial, Halted.initial, ⟨?_, ?_⟩, ?_, ?_⟩
  · exact fun w hw => absurd hw List.not_mem_nil
  · exact fun w hw => absurd hw List.not_mem_nil
  · exact fun hstarted => Bool.noConfusion hstarted
  · exact fun x hx => absurd hx List.not_mem_nil

end

/-- A completion from before the port was opened again disturbs it, unless it finds the port suspended
or has nothing to do. -/
theorem outdated_handlers_disturb_iff (es : List Event) :
    Along step (fun s e => ¬ Disturbs s e) initial es ↔ Along step Harmless initial es := by
  refine along_iff (I := fun s => s = initial ∨ Serviced s) step (fun s e hs => ?_) (fun s e he hs => ?_) (.inl rfl)
  · rcases hs with rfl | hs
    · have hcurrent := initial_current e
      refine iff_of_true (fun h => ?_) fun h => ?_
      · exact Bool.noConfusion (hcurrent.symm.trans h.outdated)
      · exact Bool.noConfusion (hcurrent.symm.trans h)
    · exact disturbs_iff hs
  · have hbefore : (s, ([] : List Output)) = (initial, []) ∨ StaysServiced s [] :=
      hs.imp_left fun hinitial => by rw [hinitial]
    have hnext := wired_serviced.next openSerialPort_attached hbefore fun hs => step_serviced hs he
    exact hnext.imp_left fun hinitial => (Prod.mk.inj hinitial).1

/-- The read that the lock aborts returns after the lock is released. -/
def abortedRead : List Event :=
  [.attach 0 0x00 .opened, .receive 0 (.portStatus true) .opened, .receive 0 (.portStatus false) .opened,
    .readHandler 0]

theorem abortedRead_disturbs : ¬ Along step (fun s e => ¬ Disturbs s e) initial abortedRead := by
  rintro ⟨_, _, _, hcalm, _⟩
  exact hcalm ⟨by decide +kernel, .inl (by decide +kernel)⟩

end Port
end Hdlcd
