import Hdlcd.Port.Frames

/-! A frame is written from its first byte on, and the offset stays within it: what was
written is counted in the opening of the port in which it was written. -/

namespace Hdlcd

namespace Port
open Reactive Action ProtocolState

/-- The offset belongs to the frame, and no frame follows before all of it is written. -/
structure Framed (s : Port) : Prop where
  connected : s.connections ≠ []
  consistent : Consistent s.protocolState
  halted : Halted s.protocolState
  truthful : s.serialPort.Truthful
  within : s.sendBufferOffset ≤ s.sendBuffer.length
  rest : s.serialPort.underway = [] ∨ s.serialPort.underway = [s.sendBuffer.drop s.sendBufferOffset]
  done : s.protocolState.started = true → s.protocolState.awaitsNextHDLCFrame = true →
    s.sendBufferOffset = 0 ∧ s.serialPort.underway = []

def StaysFramed : Assertion Port Output := fun s o => Framed s ∧ ∀ y ∈ o, y.Sound

section
variable {s t : Port} {o : List Output} {c : ClientId}

theorem sound_append {xs : List Output} (ho : ∀ y ∈ o, y.Sound) (hxs : ∀ y ∈ xs, y.Sound) :
    ∀ y ∈ o ++ xs, y.Sound := fun y hy => (List.mem_append.mp hy).elim (ho y) (hxs y)

theorem Framed.congr (h : Framed s) (hsame : frameMembers t = frameMembers s) : Framed t := by
  simp only [frameMembers, Prod.mk.injEq] at hsame
  obtain ⟨hbuffer, hoffset, hport, hps, hconnections⟩ := hsame
  constructor
  · rw [← List.isEmpty_eq_false_iff, hconnections, List.isEmpty_eq_false_iff]
    exact h.connected
  · rw [hps]
    exact h.consistent
  · rw [hps]
    exact h.halted
  · rw [hport]
    exact h.truthful
  · rw [hoffset, hbuffer]
    exact h.within
  · rw [hport, hbuffer, hoffset]
    exact h.rest
  · rw [hps, hoffset, hport]
    exact h.done

theorem callProtocolState_framed {e : Hdlcd.Event} (h : StaysFramed s o)
    (hdone : (prepare e s.protocolState).state.started = true →
      (prepare e s.protocolState).state.awaitsNextHDLCFrame = true →
      s.sendBufferOffset = 0 ∧ s.serialPort.underway = [])
    (hprobe : (prepare e s.protocolState).state.started = false →
      (prepare e s.protocolState).state.awaitsNextHDLCFrame = true →
      (prepare e s.protocolState).state.serialPortHandler = true →
      (prepare e s.protocolState).state.sendProbe = true → s.sendBufferOffset = 0 ∧ s.serialPort.underway = []) :
    (callProtocolState (handle e)).wp StaysFramed s o := by
  obtain ⟨hs, ho⟩ := h
  have hconsistent := hs.consistent.handle e
  have hhalted := hs.halted.handle hs.consistent e
  have hstarted : (handle e s.protocolState).1.started = (prepare e s.protocolState).state.started :=
    (handle_started hs.consistent e).trans (prepare_started e s.protocolState).symm
  unfold wp
  cases callProtocolState_frames hs.consistent e with
  | none hsame hawaits hquiet =>
    refine ⟨Framed.congr ?_ hsame, sound_append ho fun y hy => (hquiet y hy).sound⟩
    exact ⟨hs.connected, hconsistent, hhalted, hs.truthful, hs.within, hs.rest,
      fun hrunning hfree => hdone (hstarted.symm.trans hrunning) (hawaits hfree)⟩
  | one buffer hwritten hawaits hhandler hcause hbusy hsound =>
    have hzero : s.sendBufferOffset = 0 ∧ s.serialPort.underway = [] := by
      by_cases hrunning : (prepare e s.protocolState).state.started = true
      · exact hdone hrunning hawaits
      · exact hprobe (Bool.eq_false_of_not_eq_true hrunning) hawaits hhandler (hcause.resolve_right hrunning)
    have hunderway := SerialPort.underway_asyncWriteSome s.serialPort (buffer.drop s.sendBufferOffset)
    rw [hzero.2, List.nil_append] at hunderway
    have hframed : Framed { s with
        protocolState := (handle e s.protocolState).1
        sendBuffer := buffer
        serialPort := s.serialPort.asyncWriteSome (buffer.drop s.sendBufferOffset) } := by
      refine ⟨hs.connected, hconsistent, hhalted, hs.truthful.asyncWriteSome _, ?_, hunderway,
        fun _ hfree => absurd (hbusy.symm.trans hfree) Bool.noConfusion⟩
      rw [hzero.1]
      exact Nat.zero_le _
    exact ⟨hframed.congr hwritten, sound_append ho (hsound hzero.1)⟩

theorem peaceful_framed {e : Hdlcd.Event} (he : e.Peaceful) : Maintains StaysFramed (callProtocolState (handle e)) := by
  intro s o h
  have hsame := prepare_peaceful he s.protocolState
  simp only [passMembers, Prod.mk.injEq] at hsame
  obtain ⟨hstarted, hawaits, hhandler, hprobe⟩ := hsame
  refine callProtocolState_framed h ?_ ?_
  · rw [hstarted, hawaits]
    exact h.1.done
  · rw [hstarted, hawaits, hhandler, hprobe]
    intro hstopped hfree hset hdue
    exact absurd ((h.1.halted hstopped hfree hset).symm.trans hdue) Bool.noConfusion

theorem Output.Foreign.sound {y : Output} (h : y.Foreign) : y.Sound := by
  cases y with
  | fault f => cases f <;> trivial
  | _ => trivial

theorem wired_framed : Wired StaysFramed where
  connected h := h.1.connected
  members h hsame := by
    refine ⟨h.1.congr ?_, h.2⟩
    simp only [lineMembers, Prod.mk.injEq] at hsame
    obtain ⟨_, hport, hps, hbuffer, hoffset, _, hconnections, _⟩ := hsame
    unfold frameMembers
    rw [hport, hps, hbuffer, hoffset, hconnections]
  foreign h hxs := ⟨h.1, sound_append h.2 fun y hy => (hxs y hy).sound⟩
  parser p h := ⟨⟨h.1.connected, h.1.consistent.congr rfl, h.1.halted, h.1.truthful, h.1.within, h.1.rest,
    h.1.done⟩, h.2⟩
  push _ _ h := ⟨h.1.congr rfl, h.2⟩
  pop _ _ h := ⟨h.1.congr rfl, h.2⟩
  event he := peaceful_framed he

theorem output_framed {x : Output} (hx : x.Sound) : Maintains StaysFramed (emit [x]) :=
  .emit fun _ _ h => ⟨h.1, sound_append h.2 fun y hy => by rw [List.mem_singleton.mp hy]; exact hx⟩

theorem halt_framed {e : LocalEvent} (he : e = .stop ∨ e = .shutdown) :
    Maintains StaysFramed (callProtocolState (handleLocal e)) := by
  intro s o h
  obtain ⟨hstopped, hhalted⟩ := prepare_halts he s.protocolState
  refine callProtocolState_framed (e := .internal e) h ?_ ?_
  · intro hrunning
    exact absurd (hstopped.symm.trans hrunning) Bool.noConfusion
  · intro _ hfree hset hdue
    exact absurd ((hhalted h.1.halted hstopped hfree hset).symm.trans hdue) Bool.noConfusion

theorem Framed.serialPort (h : Framed s) {p : SerialPort} (hp : p.Truthful)
    (hunderway : p.underway.Sublist s.serialPort.underway) : Framed { s with serialPort := p } := by
  refine ⟨h.connected, h.consistent, h.halted, hp, h.within, ?_, fun hstarted hfree => ?_⟩
  · rcases h.rest with hnone | hone
    · rw [hnone] at hunderway
      exact .inl (List.sublist_nil.mp hunderway)
    · rw [hone] at hunderway
      exact List.sublist_singleton.mp hunderway
  · obtain ⟨hzero, hnone⟩ := h.done hstarted hfree
    rw [hnone] at hunderway
    exact ⟨hzero, List.sublist_nil.mp hunderway⟩

theorem close_framed : Maintains StaysFramed closeSerialPort := by
  have hthrown : Maintains StaysFramed (emit [Output.fault .cancelClosed]) := output_framed trivial
  exact (Maintains.skip.branch hthrown).andThen
    (.update fun s _ h => ⟨h.1.serialPort h.1.truthful.close s.serialPort.underway_close, h.2⟩)

theorem unregister_framed : Maintains StaysFramed unregister := .update fun _ _ h => ⟨h.1.congr rfl, h.2⟩

theorem dissolve_framed : Maintains StaysFramed dissolve := (halt_framed (.inr rfl)).andThen wired_framed.stopClients

theorem stop_framed : Maintains StaysFramed stop := by
  have hstop : Maintains StaysFramed (emit [Output.stop]) := output_framed trivial
  exact hstop.andThen ((unregister_framed.andThen (close_framed.andThen dissolve_framed)).branch .skip)

theorem suspendSerialPort_framed : Maintains StaysFramed suspendSerialPort := by
  have hemitted : Maintains StaysFramed (emit [Output.suspended]) := output_framed trivial
  have hclosed := hemitted.andThen ((halt_framed (.inl rfl)).andThen close_framed)
  refine Maintains.branch (fun s o h => ?_) .skip
  have hlocked : Maintains StaysFramed (Action.update fun t =>
      { t with serialPortLock := s.serialPortLock.suspendSerialPort.1 }) :=
    .update fun _ _ h => ⟨h.1.congr rfl, h.2⟩
  exact (hlocked.andThen ((hclosed.ite (p := s.serialPortLock.suspendSerialPort.2 = true) .skip).andThen
    wired_framed.propagateSerialPortState)) s o h

theorem reads_framed (reads : Port → List ReadOperation) : Maintains StaysFramed (update fun s =>
    { s with serialPort := { s.serialPort with reads := reads s } }) :=
  .update fun _ _ h =>
    ⟨h.1.serialPort ⟨h.1.truthful.opened, h.1.truthful.written⟩ (List.Sublist.refl _), h.2⟩

theorem doRead_framed : Maintains StaysFramed doRead := by
  have hemitted : Maintains StaysFramed (emit [Output.doRead]) := output_framed trivial
  exact hemitted.andThen (reads_framed _)

theorem openSerialPort_framed {opens : OpenResult} (h : StaysFramed s o)
    (hzero : opens = .opened → s.sendBufferOffset = 0) :
    (openSerialPort opens).wp StaysFramed s o := by
  have hnone := SerialPort.underway_openPort h.1.truthful
  have hopened : StaysFramed { s with serialPort := s.serialPort.openPort } o := by
    refine ⟨⟨h.1.connected, h.1.consistent, h.1.halted, h.1.truthful.openPort, h.1.within, .inl hnone,
      fun hstarted hfree => ⟨(h.1.done hstarted hfree).1, hnone⟩⟩, h.2⟩
  cases opens with
  | failed => exact (unregister_framed.andThen dissolve_framed) s o h
  | notConfigured => exact wp_andThen.mpr (wp_update.mpr ((unregister_framed.andThen dissolve_framed) _ o hopened))
  | opened =>
    refine wp_andThen.mpr (wp_update.mpr (wp_andThen.mpr ?_))
    have hstarted : (callProtocolState (handle (.internal .start))).wp StaysFramed
        { s with serialPort := s.serialPort.openPort } o :=
      callProtocolState_framed hopened (fun _ _ => ⟨hzero rfl, hnone⟩) fun hstopped => Bool.noConfusion hstopped
    exact wp_mono hstarted (doRead_framed.andThen wired_framed.propagateSerialPortState)

theorem resumeSerialPort_framed {opens : OpenResult} (h : StaysFramed s o)
    (hzero : s.registered = true → s.serialPortLock.resumeSerialPort.2 = true → opens = .opened →
      s.sendBufferOffset = 0) : (resumeSerialPort opens).wp StaysFramed s o := by
  refine wp_branch (fun hreg => ?_) fun _ => wp_skip.mpr h
  have hunlocked : StaysFramed { s with serialPortLock := s.serialPortLock.resumeSerialPort.1 } o :=
    ⟨h.1.congr rfl, h.2⟩
  refine wp_of_eq (b := if s.serialPortLock.resumeSerialPort.2 = true then
      (emit [.resumed]).andThen (openSerialPort opens) else propagateSerialPortState) rfl ?_
  split_ifs with hlast
  · have hresumed := wp_emit.mp (output_framed (x := .resumed) trivial _ _ hunlocked)
    exact wp_andThen.mpr (wp_emit.mpr (openSerialPort_framed hresumed (hzero hreg hlast)))
  · exact wired_framed.propagateSerialPortState _ _ hunlocked

theorem readHandler_framed (i : Nat) : Maintains StaysFramed (readHandler i) := by
  intro s o h
  unfold wp readHandler
  split
  · rename_i r _
    split
    · rename_i result _
      have hread := reads_framed (fun s => s.serialPort.reads.eraseIdx i) s o h
      rw [wp_update] at hread
      cases result with
      | success bytes =>
        have hpushed (x : Call) : Maintains StaysFramed (pushCall x) := .update fun _ _ h => ⟨h.1.congr rfl, h.2⟩
        exact ((hpushed (.readHandler r.opening)).andThen
          ((hpushed (.addReceivedRawBytes 0 bytes)).branch .skip)) _ _ hread
      | error => exact (Maintains.skip.branch stop_framed) _ _ hread
    · exact (List.append_nil o).symm ▸ h
  · exact (List.append_nil o).symm ▸ h

/-- The state in which the handler of a write of this opening runs: nothing is under way. -/
structure Returned (s : Port) (n : Nat) : Prop extends Framed s where
  none : s.serialPort.underway = []
  fits : s.sendBufferOffset + n ≤ s.sendBuffer.length
  busy : s.protocolState.started = true → s.protocolState.awaitsNextHDLCFrame = false

theorem Framed.returned (h : Framed s) {i : Nat} {w : WriteOperation} {n : Nat} (hw : s.serialPort.writes[i]? = some w)
    (hresult : w.result = some (.success n)) (hcurrent : w.opening = s.serialPort.openings) :
    Returned { s with serialPort := { s.serialPort with writes := s.serialPort.writes.eraseIdx i } } n := by
  have hunderway : s.serialPort.isUnderway w = true := by
    unfold SerialPort.isUnderway
    rw [hcurrent, hresult]
    simp
  obtain ⟨hsub, hless⟩ := SerialPort.underway_eraseIdx hw
  obtain ⟨hlength, hmem⟩ := hless hunderway
  have herased := h.serialPort (h.truthful.sublist (List.eraseIdx_sublist s.serialPort.writes i)) hsub
  rcases h.rest with hnone | hone
  · rw [hnone] at hmem
    exact absurd hmem List.not_mem_nil
  · rw [hone] at hlength hmem
    have hwritten := (h.truthful.written w (List.mem_of_getElem? hw) n hresult).2
    rw [List.mem_singleton.mp hmem, List.length_drop] at hwritten
    have hwithin := h.within
    refine ⟨herased, List.length_eq_zero_iff.mp (Nat.succ.inj hlength).symm, ?_, fun hstarted => ?_⟩
    · show s.sendBufferOffset + n ≤ s.sendBuffer.length
      omega
    · by_contra hfree
      have hdone := (h.done hstarted (Bool.eq_true_of_not_eq_false hfree)).2
      rw [hone] at hdone
      exact List.cons_ne_nil _ _ hdone

theorem doWrite_framed {n : Nat} (h : Returned s n) (ho : ∀ y ∈ o, y.Sound) :
    doWrite.wp StaysFramed { s with sendBufferOffset := s.sendBufferOffset + n } o := by
  have hshort : ¬ s.sendBuffer.length < s.sendBufferOffset + n := Nat.not_lt.mpr h.fits
  have hwritten := SerialPort.underway_asyncWriteSome s.serialPort (s.sendBuffer.drop (s.sendBufferOffset + n))
  rw [h.none, List.nil_append] at hwritten
  unfold wp doWrite
  simp only [andThen, emit, update, hshort, if_false, List.append_nil]
  refine ⟨⟨h.connected, h.consistent, h.halted, h.truthful.asyncWriteSome _, h.fits, hwritten, ?_⟩, ?_⟩
  · intro hstarted hfree
    exact absurd ((h.busy hstarted).symm.trans hfree) Bool.noConfusion
  · exact sound_append ho (by simp [Output.Sound])

theorem onWrite_framed {n : Nat} (h : Returned s n) (ho : ∀ y ∈ o, y.Sound) :
    (onWrite (.success n)).wp StaysFramed s o := by
  refine wp_andThen.mpr (wp_update.mpr (wp_branch (fun _ => ?_) fun _ => ?_))
  · have hdone : StaysFramed { s with sendBufferOffset := 0 } o :=
      ⟨⟨h.connected, h.consistent, h.halted, h.truthful, Nat.zero_le _, .inl h.none,
        fun _ _ => ⟨rfl, h.none⟩⟩, ho⟩
    refine wp_andThen.mpr (wp_update.mpr (wp_branch (fun _ => wp_skip.mpr hdone) fun _ => ?_))
    have htriggered := wp_emit.mp (output_framed (x := .triggerNextHDLCFrame) trivial _ _ hdone)
    refine wp_andThen.mpr (wp_emit.mpr ?_)
    exact callProtocolState_framed (e := .internal .triggerNextHDLCFrame) htriggered (fun _ _ => ⟨rfl, h.none⟩)
      fun _ _ _ _ => ⟨rfl, h.none⟩
  · refine wp_branch (fun _ => wp_skip.mpr ⟨?_, ho⟩) fun _ => doWrite_framed h ho
    refine ⟨h.connected, h.consistent, h.halted, h.truthful, h.fits, .inl h.none, fun hstarted hfree => ?_⟩
    exact absurd ((h.busy hstarted).symm.trans hfree) Bool.noConfusion

theorem writeHandler_framed {i : Nat} (h : StaysFramed s o)
    (hcurrent : ∀ w n, s.serialPort.writes[i]? = some w → w.result = some (.success n) →
      w.opening = s.serialPort.openings) : (writeHandler i).wp StaysFramed s o := by
  unfold wp writeHandler
  split
  · rename_i w hw
    split
    · rename_i result hresult
      cases result with
      | success n => exact onWrite_framed (h.1.returned hw hresult (hcurrent w n hw hresult)) h.2
      | error =>
        have herased := h.1.serialPort (h.1.truthful.sublist (List.eraseIdx_sublist s.serialPort.writes i))
          (SerialPort.underway_eraseIdx hw).1
        exact (Maintains.skip.branch stop_framed) _ _ ⟨herased, h.2⟩
    · exact (List.append_nil o).symm ▸ h
  · exact (List.append_nil o).symm ▸ h

theorem writeCompletes_framed {i : Nat} {result : WriteResult} (h : StaysFramed s o)
    (hvalid : s.validWrite i result = true) :
    StaysFramed { s with serialPort := s.serialPort.writeCompletes i result } o := by
  have hcredible (w : WriteOperation) (hw : s.serialPort.writes[i]? = some w) : SerialPort.Credible result w :=
    credible_of_validWrite hvalid hw
  exact ⟨h.1.serialPort (h.1.truthful.writeCompletes hcredible) (SerialPort.underway_writeCompletes hcredible), h.2⟩

end

def reopens (s : Port) : Event → Bool
  | .receive c (.portStatus false) .opened =>
    (s.handlers c).any fun h => s.receives c h && s.registered && h.lockGuard.lockedBySelf &&
      s.serialPortLock.resumeSerialPort.2
  | .disconnect c .opened =>
    (s.handlers c).any fun h => s.calls.isEmpty && s.registered && h.lockGuard.lockedBySelf &&
      s.serialPortLock.resumeSerialPort.2
  | _ => false

def outdatedWrite (s : Port) : Event → Bool
  | .writeHandler i =>
    s.calls.isEmpty && (s.serialPort.writes[i]?).any fun w =>
      w.opening != s.serialPort.openings && w.result.any (· != .error)
  | _ => false

def strayProbe (s : Port) : Event → Bool
  | .timer .probeTimerHandler =>
    s.calls.isEmpty && !s.protocolState.started && s.protocolState.awaitsNextHDLCFrame &&
      s.protocolState.serialPortHandler && decide (() ∈ s.protocolState.aliveState.probeTimer.queued)
  | _ => false

/-- What was written is counted before the next frame begins. -/
structure Counted (s : Port) (e : Event) : Prop where
  current : s.outdatedWrite e = false
  reopened : s.reopens e = true → s.sendBufferOffset = 0
  probed : s.strayProbe e = true → s.sendBufferOffset = 0 ∧ s.serialPort.underway = []

instance (s : Port) (e : Event) : Decidable (Counted s e) :=
  decidable_of_iff (s.outdatedWrite e = false ∧ (s.reopens e = true → s.sendBufferOffset = 0) ∧
      (s.strayProbe e = true → s.sendBufferOffset = 0 ∧ s.serialPort.underway = []))
    ⟨fun h => ⟨h.1, h.2.1, h.2.2⟩, fun h => ⟨h.1, h.2, h.3⟩⟩

section
variable {s : Port} {o : List Output}

theorem probeTimerHandler_framed (hidle : s.calls.isEmpty = true) (h : StaysFramed s o)
    (hprobed : s.strayProbe (.timer .probeTimerHandler) = true →
      s.sendBufferOffset = 0 ∧ s.serialPort.underway = []) :
    (callProtocolState (handle (.internal .probeTimerHandler))).wp StaysFramed s o := by
  have hsame := prepare_probe s.protocolState
  simp only [Prod.mk.injEq] at hsame
  obtain ⟨hstarted, hawaits, hhandler⟩ := hsame
  refine callProtocolState_framed h ?_ ?_
  · rw [hstarted, hawaits]
    exact h.1.done
  · intro hstopped hfree hset hdue
    rw [hstarted] at hstopped
    rw [hawaits] at hfree
    rw [hhandler] at hset
    refine hprobed ?_
    have hqueued : () ∈ s.protocolState.aliveState.probeTimer.queued := by
      by_contra hnone
      have hskipped : (prepare (.internal .probeTimerHandler) s.protocolState).state = s.protocolState := by
        show (prepareLocal .probeTimerHandler s.protocolState).state = _
        rw [prepareLocal, if_neg hnone]
      rw [hskipped, h.1.halted hstopped hfree hset] at hdue
      exact Bool.noConfusion hdue
    unfold strayProbe
    dsimp only
    rw [hidle, hstopped, hfree, hset, decide_eq_true hqueued]
    rfl

theorem releaseLock_framed {c : ClientId} {h : HdlcdServerHandler} {opens : OpenResult} (hs : StaysFramed s o)
    (hc : s.handlers c = some h) (hreceives : s.receives c h = true)
    (hreopened : s.reopens (.receive c (.portStatus false) opens) = true → s.sendBufferOffset = 0) :
    (releaseLock c h opens).wp StaysFramed s o := by
  unfold releaseLock
  split_ifs with hself
  · refine wp_andThen.mpr (wp_update.mpr (resumeSerialPort_framed ⟨hs.1.congr rfl, hs.2⟩ ?_))
    intro hreg hlast hopens
    have hregistered : s.registered = true := hreg
    have hlocks : s.serialPortLock.resumeSerialPort.2 = true := hlast
    refine hreopened ?_
    rw [hopens, reopens, hc, Option.any_some, hreceives, hregistered, hself, hlocks]
    rfl
  · exact wp_skip.mpr hs

theorem step_framed {e : Event} (hs : StaysFramed s o) (he : Counted s e) : (step e).wp StaysFramed s o := by
  cases e with
  | attach c sap opens => exact wired_framed.attach c sap opens s o hs
  | disconnect c opens =>
    refine wired_framed.disconnect stop_framed hs fun h hc hidle hself => ?_
    refine resumeSerialPort_framed ⟨hs.1.congr rfl, hs.2⟩ fun hreg hlast hopens => he.reopened ?_
    have hregistered : s.registered = true := hreg
    have hlocks : s.serialPortLock.resumeSerialPort.2 = true := hlast
    rw [hopens, reopens, hc, Option.any_some, hidle, hregistered, hself, hlocks]
    rfl
  | receive c packet opens =>
    refine wired_framed.receive stop_framed suspendSerialPort_framed hs fun h hc hreceives hpacket => ?_
    subst hpacket
    exact releaseLock_framed hs hc hreceives he.reopened
  | endReceiving c => exact wired_framed.endReceiving c s o hs
  | proceed =>
    refine wired_framed.proceed hs fun g calls _ => ?_
    have hpopped : StaysFramed { s with calls := calls } o := ⟨hs.1.congr rfl, hs.2⟩
    exact (Maintains.skip.branch doRead_framed) _ _ hpopped
  | timer e =>
    refine wp_branch (fun hidle => ?_) fun _ => wp_skip.mpr hs
    cases e with
    | probeTimerHandler => exact probeTimerHandler_framed hidle hs he.probed
    | timerExpires => exact peaceful_framed (e := .internal .timerExpires) trivial s o hs
    | timerHandler handler => exact peaceful_framed (e := .internal (.timerHandler handler)) trivial s o hs
    | stateTimerExpires => exact peaceful_framed (e := .internal .stateTimerExpires) trivial s o hs
    | stateTimerHandler => exact peaceful_framed (e := .internal .stateTimerHandler) trivial s o hs
    | probeTimerExpires => exact peaceful_framed (e := .internal .probeTimerExpires) trivial s o hs
  | readCompletes i completion =>
    have hfilled : Maintains StaysFramed (update (fillReadBuffer completion.bytes)) :=
      .update fun _ _ h => ⟨h.1.congr rfl, h.2⟩
    have hcompleted : Maintains StaysFramed (readCompletes i completion) :=
      (hfilled.branch .skip).andThen (reads_framed fun s => s.serialPort.reads.modify i (.complete completion.result))
    exact (hcompleted.ite .skip) s o hs
  | readHandler i => exact ((readHandler_framed i).branch .skip) s o hs
  | writeCompletes i result =>
    exact wp_branch (fun hvalid => wp_update.mpr (writeCompletes_framed hs hvalid)) fun _ => wp_skip.mpr hs
  | writeHandler i =>
    refine wp_branch (fun hidle => writeHandler_framed hs fun w n hw hresult => ?_) fun _ => wp_skip.mpr hs
    have hcurrent := he.current
    have hidle : s.calls.isEmpty = true := hidle
    rw [outdatedWrite, hidle, hw, Option.any_some, hresult] at hcurrent
    by_contra hold
    have hlate : (w.opening != s.serialPort.openings) = true := bne_iff_ne.mpr hold
    rw [hlate] at hcurrent
    exact Bool.noConfusion hcurrent

theorem openSerialPort_first (c : ClientId) (h : HdlcdServerHandler) (opens : OpenResult) :
    (openSerialPort opens).wp StaysFramed (withHandler c h initial) [] := by
  refine openSerialPort_framed ⟨?_, fun y hy => absurd hy List.not_mem_nil⟩ fun _ => rfl
  refine ⟨List.cons_ne_nil _ _, Consistent.initial, Halted.initial, ⟨?_, ?_⟩, Nat.zero_le _, .inl rfl,
    fun _ _ => ⟨rfl, rfl⟩⟩
  · exact fun w hw => absurd hw List.not_mem_nil
  · exact fun w hw => absurd hw List.not_mem_nil

end

/-- A frame begins at offset 0, and the offset stays within the frame, in every run in which what was
written is counted before the next frame begins. -/
theorem frames_begin_at_zero (es : List Event) (hcounted : Along step Counted initial es) :
    (run step es initial).1.sendBufferOffset ≤ (run step es initial).1.sendBuffer.length ∧
      .fault .sendBufferOffset ∉ (run step es initial).2 ∧ .fault .lengthUnderflow ∉ (run step es initial).2 := by
  rcases wired_framed.run openSerialPort_first (fun _ _ _ he hs => step_framed hs he) hcounted with hnone | hrun
  · rw [hnone]
    exact ⟨Nat.zero_le _, List.not_mem_nil, List.not_mem_nil⟩
  · exact ⟨hrun.1.within, fun hblamed => hrun.2 _ hblamed, fun hblamed => hrun.2 _ hblamed⟩

def writtenInParts : List Event :=
  [.attach 0 0x00 .opened, .writeCompletes 0 (.success 3), .writeHandler 0, .writeCompletes 0 (.success 3),
    .writeHandler 0, .receive 0 (.portStatus true) .opened, .receive 0 (.portStatus false) .opened]

theorem frames_begin_at_zero_writtenInParts :
    (run step writtenInParts initial).1.sendBufferOffset ≤ (run step writtenInParts initial).1.sendBuffer.length ∧
      .fault .sendBufferOffset ∉ (run step writtenInParts initial).2 ∧
      .fault .lengthUnderflow ∉ (run step writtenInParts initial).2 :=
  frames_begin_at_zero writtenInParts (by decide +kernel)

/-- A lock while half of the first frame is written. -/
def cutFrame : List Event :=
  [.attach 0 0x00 .opened, .writeCompletes 0 (.success 3), .receive 0 (.portStatus true) .opened, .writeHandler 0,
    .receive 0 (.portStatus false) .opened]

theorem frames_not_begin_at_zero : .fault .sendBufferOffset ∈ (run step cutFrame initial).2 := by decide +kernel

end Port
end Hdlcd
