import Hdlcd.Port.Locks
import Hdlcd.Port.WriteOffset
import Hdlcd.Protocol.History
import Hdlcd.Protocol.UserData

/-! The bytes on the wire of a port that was opened once: whole frames back to back, the last
one cut where its writes stand. -/

namespace Hdlcd

def WriteOperation.bytesSent (w : WriteOperation) : Nat :=
  match w.result with
  | some (.success n) => n
  | _ => 0

theorem WriteOperation.bytesSent_new (opening : Nat) (buffer : List UInt8) (isOpen : Bool) :
    bytesSent ⟨opening, buffer, if isOpen then none else some .error⟩ = 0 := by
  cases isOpen <;> rfl

def WriteOperation.taken (result : WriteResult) (w : WriteOperation) : List UInt8 :=
  match w.result, result with
  | none, .success n => w.buffer.take n
  | _, _ => []

theorem WriteOperation.taken_complete (result : WriteResult) (w : WriteOperation) :
    w.taken result ++ w.buffer.drop (w.complete result).bytesSent = w.buffer.drop w.bytesSent := by
  unfold taken complete bytesSent
  cases hresult : w.result with
  | none =>
    cases result with
    | success n => exact List.take_append_drop n w.buffer
    | error => rfl
  | some => rw [List.nil_append, hresult]

theorem WriteOperation.bytesSent_complete {result : WriteResult} {w : WriteOperation}
    (hcredible : SerialPort.Credible result w) :
    (w.complete result).bytesSent ≤ max w.bytesSent w.buffer.length := by
  unfold complete
  cases hresult : w.result with
  | none =>
    cases result with
    | success n => exact le_max_of_le_right (hcredible n rfl).2
    | error => exact Nat.zero_le _
  | some => exact le_max_left _ _

namespace ProtocolState
open FrameGenerator

theorem mild_append_handsOver (e : Event) (s : ProtocolState) :
    ∃ sent, (handle e s).2 = (prepare e s).effects ++ sent ∧ HandsOver sent := by
  rw [handle_eq, Preparation.finish]
  split_ifs
  · exact ⟨_, rfl, opportunityForTransmission_handsOver _⟩
  · exact ⟨[], (List.append_nil _).symm, .nil⟩

theorem serialized_of_transmitted {e : Event} {s : ProtocolState} {f : HdlcFrame} {buffer : List UInt8}
    (h : .transmitHDLCFrame f buffer ∈ (handle e s).2) : serializeFrame f = some buffer := by
  obtain ⟨sent, hsent, hcopies⟩ := mild_append_handsOver e s
  rw [hsent] at h
  rcases List.mem_append.mp h with hmild | h
  · exact (prepare_mild e s _ hmild).elim
  · cases hcopies with
    | none ho => exact (ho _ h).elim
    | @frame f' buffer' hf =>
      rcases List.mem_append.mp h with hcopy | h
      · unfold payloadCopy at hcopy
        split at hcopy <;> simp at hcopy
      · simp only [List.mem_cons, List.not_mem_nil, or_false, reduceCtorEq, false_or,
          Effect.transmitHDLCFrame.injEq] at h
        rw [h.1, h.2]
        exact hf

theorem prepare_timer_awaits (x : Port.TimerEvent) (s : ProtocolState) :
    (prepare (.internal x.localEvent) s).state.awaitsNextHDLCFrame = s.awaitsNextHDLCFrame := by
  have hpeaceful {e : LocalEvent} (he : (Event.internal e).Peaceful) :
      (prepare (.internal e) s).state.awaitsNextHDLCFrame = s.awaitsNextHDLCFrame :=
    congrArg (·.2.1) (prepare_peaceful he s)
  cases x with
  | probeTimerHandler => exact congrArg (·.2.1) (prepare_probe s)
  | timerHandler handler => exact hpeaceful (e := .timerHandler handler) trivial
  | timerExpires => exact hpeaceful (e := .timerExpires) trivial
  | stateTimerExpires => exact hpeaceful (e := .stateTimerExpires) trivial
  | stateTimerHandler => exact hpeaceful (e := .stateTimerHandler) trivial
  | probeTimerExpires => exact hpeaceful (e := .probeTimerExpires) trivial

end ProtocolState

namespace Port
open Reactive Action ProtocolState FrameGenerator

/-- The frames that were chosen by `OpportunityForTransmission`. -/
def framesSent (o : List Output) : List HdlcFrame :=
  o.filterMap fun
    | .transmitHDLCFrame f => some f
    | _ => none

/-- The frames back to back, as they belong on the wire. -/
def wire (fs : List HdlcFrame) : List UInt8 := fs.flatMap fun f => escapeFrame (serialized f)

def accepts (s : Port) : Event → List UInt8
  | .writeCompletes i result =>
    if s.validWrite i result then (s.serialPort.writes[i]?).elim [] (WriteOperation.taken result) else []
  | _ => []

def acceptedBytes : Port → List Event → List UInt8
  | _, [] => []
  | s, e :: es => s.accepts e ++ acceptedBytes (step e s).1 es

def Output.Frameless : Output → Prop
  | .transmitHDLCFrame _ => False
  | _ => True

section
variable {s t : Port} {o : List Output} {acc : List UInt8} {mark : Option (List UInt8)}

theorem acceptedBytes_concat (s : Port) (es : List Event) (e : Event) :
    acceptedBytes s (es ++ [e]) = acceptedBytes s es ++ (run step es s).1.accepts e := by
  induction es generalizing s with
  | nil => exact List.append_nil _
  | cons e' es ih =>
    rw [List.cons_append, acceptedBytes, ih, acceptedBytes, List.append_assoc]
    rfl

theorem framesSent_append (o o' : List Output) : framesSent (o ++ o') = framesSent o ++ framesSent o' :=
  List.filterMap_append

theorem framesSent_frameless {o : List Output} (ho : ∀ y ∈ o, y.Frameless) : framesSent o = [] := by
  refine List.filterMap_eq_nil_iff.mpr fun y hy => ?_
  have hframeless := ho y hy
  cases y with
  | transmitHDLCFrame => exact hframeless.elim
  | _ => rfl

theorem wire_append (fs fs' : List HdlcFrame) : wire (fs ++ fs') = wire fs ++ wire fs' := List.flatMap_append

theorem Output.Apart.frameless {y : Output} (h : y.Apart) : y.Frameless := by
  cases y with
  | transmitHDLCFrame => exact h
  | _ => trivial

theorem effects_frameless {xs : List Effect} (hxs : ∀ x ∈ xs, NoFrame x) (s : Port) :
    ∀ y ∈ (run effect xs s).2, y.Frameless := fun y hy => ((effects_noFrame hxs s).2 y hy).frameless

theorem transmitHDLCFrame_frames (f : HdlcFrame) (buffer : List UInt8) (s : Port) :
    framesSent (transmitHDLCFrame f buffer s).2 = [f] := by
  have hkept {xs : List Output} (hxs : ∀ y ∈ xs, y.Frameless) :
      Maintains (fun (_ : Port) o => framesSent o = [f]) (emit xs) := by
    refine .emit fun _ o ho => ?_
    rw [framesSent_append, framesSent_frameless hxs, List.append_nil]
    exact ho
  have hwritten : Maintains (fun (_ : Port) o => framesSent o = [f]) doWrite := by
    intro t o ho
    show framesSent (o ++ ((if t.sendBuffer.length < t.sendBufferOffset then
      [.doWrite, .fault .lengthUnderflow] else [.doWrite]) ++ [])) = [f]
    rw [List.append_nil, framesSent_append, ho]
    split_ifs <;> rfl
  have hbuffer : Maintains (fun (_ : Port) (o : List Output) => framesSent o = [f])
      (update fun s => { s with sendBuffer := buffer }) := .update fun _ _ ho => ho
  have hassert (x : Fault) : Maintains (fun (_ : Port) o => framesSent o = [f]) (emit [.fault x]) :=
    hkept (by simp [Output.Frameless])
  have hoffset : Maintains (fun (_ : Port) o => framesSent o = [f])
      (branch (·.sendBufferOffset == 0) skip (emit [.fault .sendBufferOffset])) :=
    Maintains.skip.branch (hassert .sendBufferOffset)
  have hlocked : Maintains (fun (_ : Port) o => framesSent o = [f])
      (branch (·.serialPortLock.getSerialPortState) (emit [.fault .suspended]) skip) :=
    (hassert .suspended).branch .skip
  exact (hoffset.andThen (hlocked.andThen (hbuffer.andThen hwritten))) s [.transmitHDLCFrame f] rfl

/-- What an event of the protocol state puts on the line. -/
inductive Conveys (p : Preparation) (ps : ProtocolState) (s t : Port) (o : List Output) : Prop
  | nothing (hsame : frameMembers t = frameMembers { s with protocolState := ps }) (hnone : framesSent o = [])
    (hawaits : ps.awaitsNextHDLCFrame = true → p.state.awaitsNextHDLCFrame = true)
  | frame (f : HdlcFrame) (hbuffer : (serializeFrame f).isSome)
    (hwritten : frameMembers t = (escapeFrame (serialized f), s.sendBufferOffset,
      s.serialPort.asyncWriteSome ((escapeFrame (serialized f)).drop s.sendBufferOffset), ps,
      s.connections.isEmpty))
    (hone : framesSent o = [f]) (hawaits : p.state.awaitsNextHDLCFrame = true)
    (hbusy : ps.awaitsNextHDLCFrame = false)

theorem callProtocolState_conveys (hs : Consistent s.protocolState) (e : Hdlcd.Event) :
    Conveys (prepare e s.protocolState) (handle e s.protocolState).1 s (callProtocolState (handle e) s).1
      (callProtocolState (handle e) s).2 := by
  have hcall : callProtocolState (handle e) s = run effect (handle e s.protocolState).2
      { s with protocolState := (handle e s.protocolState).1 } := rfl
  rw [hcall]
  cases handle_occupies hs e with
  | silent hnone hawaits =>
    exact .nothing (effects_noFrame hnone _).1 (framesSent_frameless (effects_frameless hnone _)) hawaits
  | @frame f copies buffer heffects hcopies hawaits hhandler hcause hbusy =>
    have hmem : .transmitHDLCFrame f buffer ∈ (handle e s.protocolState).2 := by
      rw [heffects]
      exact List.mem_append_right _ (List.mem_singleton.mpr rfl)
    have hbuffer := serialized_of_transmitted hmem
    have hsame := (effects_noFrame hcopies { s with protocolState := (handle e s.protocolState).1 }).1
    rw [heffects, run_append, run_singleton]
    simp only [frameMembers, Prod.mk.injEq] at hsame
    obtain ⟨_, hoffset, hport, hps, hconnections⟩ := hsame
    have hsent := (transmitHDLCFrame_written f (escapeFrame buffer)
      (run effect copies { s with protocolState := (handle e s.protocolState).1 }).1).1
    rw [hoffset, hport, hps, hconnections] at hsent
    have hserialized : serialized f = buffer := by
      unfold serialized
      rw [hbuffer]
      rfl
    refine .frame f (by rw [hbuffer]; rfl) (by rw [hserialized]; exact hsent) ?_ hawaits hbusy
    show framesSent ((run effect copies _).2 ++ (transmitHDLCFrame f (escapeFrame buffer) _).2) = [f]
    rw [framesSent_append, framesSent_frameless (effects_frameless hcopies _), transmitHDLCFrame_frames]
    rfl

/-- The port was neither suspended nor stopped. -/
def Unbroken (o : List Output) : Prop := .suspended ∉ o ∧ .stop ∉ o

/-- The accepted bytes and what is left of the frame are all frames. -/
inductive Line (acc : List UInt8) (s : Port) (o : List Output) : Prop
  | idle (hnone : s.serialPort.writes = []) (hzero : s.sendBufferOffset = 0) (hall : acc = wire (framesSent o))
  | busy (w : WriteOperation) (hone : s.serialPort.writes = [w])
    (hawaits : s.protocolState.awaitsNextHDLCFrame = false)
    (hrest : w.buffer = s.sendBuffer.drop s.sendBufferOffset)
    (hfits : s.sendBufferOffset + w.bytesSent ≤ s.sendBuffer.length)
    (hall : acc ++ w.buffer.drop w.bytesSent = wire (framesSent o))

/-- `mark` is the send buffer before the event, if a write was outstanding then. -/
structure Carried (acc : List UInt8) (mark : Option (List UInt8)) (s : Port) (o : List Output) : Prop where
  consistent : Consistent s.protocolState
  unlocked : s.serialPortLock.nbrOfLocks = 0
  serializable : ∀ f ∈ framesSent o, (serializeFrame f).isSome
  kept : ∀ b, mark = some b → s.sendBuffer = b ∧ s.serialPort.writes ≠ []
  line : Line acc s o

def Carrying (acc : List UInt8) (mark : Option (List UInt8)) : Assertion Port Output := fun s o =>
  s.connections ≠ [] ∧ (Unbroken o → Carried acc mark s o)

theorem Unbroken.of_append {o' : List Output} (h : Unbroken (o ++ o')) : Unbroken o :=
  ⟨fun hmem => h.1 (List.mem_append_left _ hmem), fun hmem => h.2 (List.mem_append_left _ hmem)⟩

theorem Carried.congr (h : Carried acc mark s o)
    (hsame : (frameMembers t, t.serialPortLock) = (frameMembers s, s.serialPortLock)) : Carried acc mark t o := by
  simp only [frameMembers, Prod.mk.injEq] at hsame
  obtain ⟨⟨hbuffer, hoffset, hport, hps, _⟩, hlock⟩ := hsame
  refine ⟨hps ▸ h.consistent, hlock ▸ h.unlocked, h.serializable, by rw [hbuffer, hport]; exact h.kept, ?_⟩
  cases h.line with
  | idle hnone hzero hall => exact .idle (hport ▸ hnone) (hoffset.trans hzero) hall
  | busy w hone hawaits hrest hfits hall =>
    refine .busy w (hport ▸ hone) (hps ▸ hawaits) ?_ ?_ hall
    · rw [hbuffer, hoffset]
      exact hrest
    · rw [hbuffer, hoffset]
      exact hfits

theorem Carried.frameless {xs : List Output} (h : Carried acc mark s o) (hxs : ∀ y ∈ xs, y.Frameless) :
    Carried acc mark s (o ++ xs) := by
  have hsame : framesSent (o ++ xs) = framesSent o := by
    rw [framesSent_append, framesSent_frameless hxs, List.append_nil]
  refine ⟨h.consistent, h.unlocked, by rw [hsame]; exact h.serializable, h.kept, ?_⟩
  cases h.line with
  | idle hnone hzero hall => exact .idle hnone hzero (by rw [hsame]; exact hall)
  | busy w hone hawaits hrest hfits hall => exact .busy w hone hawaits hrest hfits (by rw [hsame]; exact hall)

theorem Carried.free (h : Carried acc mark s o) (hawaits : s.protocolState.awaitsNextHDLCFrame = true) :
    s.serialPort.writes = [] := by
  cases h.line with
  | idle hnone => exact hnone
  | busy w hone hbusy => exact absurd (hbusy.symm.trans hawaits) Bool.noConfusion

theorem Carried.event {e : Hdlcd.Event} (h : Carried acc mark s o)
    (hfree : (prepare e s.protocolState).state.awaitsNextHDLCFrame = true → s.serialPort.writes = []) :
    Carried acc mark (callProtocolState (handle e) s).1 (o ++ (callProtocolState (handle e) s).2) := by
  have hconsistent := h.consistent.handle e
  have hlock : (callProtocolState (handle e) s).1.serialPortLock = s.serialPortLock :=
    congrArg (·.2.2.2.1) (callProtocolState_done (handle e) s).served.same
  cases callProtocolState_conveys h.consistent e with
  | nothing hsame hnone hawaits =>
    have hframes : framesSent (o ++ (callProtocolState (handle e) s).2) = framesSent o := by
      rw [framesSent_append, hnone, List.append_nil]
    have hkept : Carried acc mark { s with protocolState := (handle e s.protocolState).1 }
        (o ++ (callProtocolState (handle e) s).2) := by
      refine ⟨hconsistent, h.unlocked, by rw [hframes]; exact h.serializable, h.kept, ?_⟩
      cases h.line with
      | idle hnone hzero hall => exact .idle hnone hzero (by rw [hframes]; exact hall)
      | busy w hone hbusy hrest hfits hall =>
        refine .busy w hone ?_ hrest hfits (by rw [hframes]; exact hall)
        by_contra hopen
        have hempty := hfree (hawaits (Bool.eq_true_of_not_eq_false hopen))
        rw [hone] at hempty
        exact List.cons_ne_nil _ _ hempty
    exact hkept.congr (Prod.ext hsame hlock)
  | frame f hbuffer hwritten hone hawaits hbusy =>
    cases h.line with
    | busy w hw =>
      rw [hfree hawaits] at hw
      exact absurd hw.symm (List.cons_ne_nil _ _)
    | idle hnone hzero hall =>
      have hframes : framesSent (o ++ (callProtocolState (handle e) s).2) = framesSent o ++ [f] := by
        rw [framesSent_append, hone]
      have hsent : Carried acc mark { s with
          protocolState := (handle e s.protocolState).1
          sendBuffer := escapeFrame (serialized f)
          serialPort := s.serialPort.asyncWriteSome ((escapeFrame (serialized f)).drop s.sendBufferOffset) }
          (o ++ (callProtocolState (handle e) s).2) := by
        refine ⟨hconsistent, h.unlocked, fun g hg => ?_, fun b hb => absurd hnone (h.kept b hb).2, ?_⟩
        · rw [hframes] at hg
          rcases List.mem_append.mp hg with hg | hg
          · exact h.serializable g hg
          · rw [List.mem_singleton.mp hg]
            exact hbuffer
        · have hpending := WriteOperation.bytesSent_new s.serialPort.openings
            ((escapeFrame (serialized f)).drop s.sendBufferOffset) s.serialPort.isOpen
          refine .busy _ (by rw [SerialPort.asyncWriteSome, hnone]; rfl) hbusy rfl ?_ ?_
          · rw [hpending, hzero]
            exact Nat.zero_le _
          · rw [hpending, hzero, hframes, wire_append, ← hall]
            simp only [List.drop_zero, wire, List.flatMap_cons, List.flatMap_nil, List.append_nil]
      exact hsent.congr (Prod.ext hwritten hlock)

theorem Output.Foreign.frameless {y : Output} (h : y.Foreign) : y.Frameless := by
  cases y with
  | transmitHDLCFrame => exact h.elim
  | _ => trivial

theorem wired_carrying (acc : List UInt8) (mark : Option (List UInt8)) : Wired (Carrying acc mark) where
  connected h := h.1
  members {s t _} h hsame := by
    simp only [lineMembers, Prod.mk.injEq] at hsame
    obtain ⟨_, hport, hps, hbuffer, hoffset, hlock, hconnections, _⟩ := hsame
    refine ⟨?_, fun ho => (h.2 ho).congr ?_⟩
    · rw [← List.isEmpty_eq_false_iff, hconnections, List.isEmpty_eq_false_iff]
      exact h.1
    · unfold frameMembers
      rw [hport, hps, hbuffer, hoffset, hlock, hconnections]
  foreign h hxs := ⟨h.1, fun ho => (h.2 ho.of_append).frameless fun y hy => (hxs y hy).frameless⟩
  parser p h := by
    refine ⟨h.1, fun ho => ?_⟩
    have hs := h.2 ho
    refine ⟨hs.consistent.congr rfl, hs.unlocked, hs.serializable, hs.kept, ?_⟩
    cases hs.line with
    | idle hnone hzero hall => exact .idle hnone hzero hall
    | busy w hone hawaits hrest hfits hall => exact .busy w hone hawaits hrest hfits hall
  push _ _ h := ⟨h.1, fun ho => (h.2 ho).congr rfl⟩
  pop _ _ h := ⟨h.1, fun ho => (h.2 ho).congr rfl⟩
  event {e} he := by
    intro s o h
    refine ⟨?_, fun ho => (h.2 ho.of_append).event fun hawaits => ?_⟩
    · rw [show (callProtocolState (handle e) s).1.connections = s.connections from
        congrArg (·.2.2.2.2.1) (callProtocolState_done (handle e) s).served.same]
      exact h.1
    · have hsame := prepare_peaceful he s.protocolState
      simp only [passMembers, Prod.mk.injEq] at hsame
      exact (h.2 ho.of_append).free (hsame.2.1.symm.trans hawaits)

def Broken : Assertion Port Output := fun s o => s.connections ≠ [] ∧ ¬ Unbroken o

theorem Broken.carrying (h : Broken s o) : Carrying acc mark s o := ⟨h.1, fun ho => absurd ho h.2⟩

theorem broken_update {f : Port → Port} (hf : ∀ s, (f s).connections = s.connections) :
    Maintains Broken (update f) := .update fun s _ h => ⟨by rw [hf]; exact h.1, h.2⟩

theorem broken_served {a : Act} (ha : ∀ s, (a s).1.connections = s.connections) : Maintains Broken a := by
  intro s o h
  exact ⟨by rw [ha]; exact h.1, fun ho => h.2 ho.of_append⟩

theorem broken_callProtocolState (a : ProtocolState.Act) : Maintains Broken (callProtocolState a) :=
  broken_served fun s => congrArg (·.2.2.2.2.1) (callProtocolState_done a s).served.same

theorem broken_propagate : Maintains Broken propagateSerialPortState :=
  broken_served fun s => congrArg (·.2.2.2.2.1) (propagateSerialPortState_served s).same

theorem stopClients_connections (s : Port) : (stopClients s).1.connections = s.connections := by
  show s.rebuildSubscriptions.connections = _
  unfold rebuildSubscriptions
  split_ifs <;> rfl

theorem broken_close : Maintains Broken closeSerialPort := fun _ _ h =>
  wp_closeSerialPort ⟨h.1, fun ho => h.2 ho.of_append⟩

theorem stop_broken (hs : s.connections ≠ []) : stop.wp Broken s o := by
  have hbroken : Broken s (o ++ [.stop]) :=
    ⟨hs, fun ho => ho.2 (List.mem_append_right _ (List.mem_singleton.mpr rfl))⟩
  have hunregistered : Maintains Broken unregister := broken_update fun _ => rfl
  have hdissolved : Maintains Broken dissolve :=
    (broken_callProtocolState _).andThen (broken_served stopClients_connections)
  refine wp_andThen.mpr (wp_emit.mpr ?_)
  exact ((hunregistered.andThen (broken_close.andThen hdissolved)).branch .skip) _ _ hbroken

theorem stop_carrying : Maintains (Carrying acc mark) stop := fun _ _ h => (stop_broken h.1).carrying

theorem suspendSerialPort_carrying : Maintains (Carrying acc mark) suspendSerialPort := by
  intro s o h
  refine wp_branch (fun _ => ?_) fun _ => wp_skip.mpr h
  have hsuspended : (if s.serialPortLock.suspendSerialPort.2 = true then
      (emit [.suspended]).andThen ((callProtocolState ProtocolState.stop).andThen closeSerialPort)
      else skip).wp Broken
      { s with serialPortLock := s.serialPortLock.suspendSerialPort.1 } o := by
    split_ifs with hfirst
    · have hbroken : Broken { s with serialPortLock := s.serialPortLock.suspendSerialPort.1 } (o ++ [.suspended]) :=
        ⟨h.1, fun ho => ho.1 (List.mem_append_right _ (List.mem_singleton.mpr rfl))⟩
      exact wp_andThen.mpr (wp_emit.mpr (((broken_callProtocolState _).andThen broken_close) _ _ hbroken))
    · refine wp_skip.mpr ⟨h.1, fun ho => hfirst ?_⟩
      show (s.serialPortLock.nbrOfLocks + 1 == 1) = true
      rw [(h.2 ho).unlocked]
      rfl
  have hpropagated (t : Port) (o : List Output) (ht : Broken t o) :
      propagateSerialPortState.wp (Carrying acc mark) t o := (broken_propagate t o ht).carrying
  exact wp_of_eq rfl (wp_andThen.mpr (wp_mono hsuspended hpropagated))

theorem reads_carrying (reads : Port → List ReadOperation) : Maintains (Carrying acc mark) (update fun s =>
    { s with serialPort := { s.serialPort with reads := reads s } }) := by
  refine .update fun s o h => ⟨h.1, fun ho => ?_⟩
  have hs := h.2 ho
  refine ⟨hs.consistent, hs.unlocked, hs.serializable, hs.kept, ?_⟩
  cases hs.line with
  | idle hnone hzero hall => exact .idle hnone hzero hall
  | busy w hone hawaits hrest hfits hall => exact .busy w hone hawaits hrest hfits hall

theorem doRead_carrying : Maintains (Carrying acc mark) doRead := by
  have hemitted : Maintains (Carrying acc mark) (emit [Output.doRead]) :=
    .emit fun _ _ h => ⟨h.1, fun ho => (h.2 ho.of_append).frameless (by simp [Output.Frameless])⟩
  exact hemitted.andThen (reads_carrying _)

theorem readHandler_carrying (i : Nat) : Maintains (Carrying acc mark) (readHandler i) := by
  intro s o h
  unfold wp readHandler
  split
  · rename_i r _
    split
    · rename_i result _
      have hread := reads_carrying (fun s => s.serialPort.reads.eraseIdx i) s o h
      rw [wp_update] at hread
      cases result with
      | success bytes =>
        have hpushed (x : Call) : Maintains (Carrying acc mark) (pushCall x) :=
          .update fun _ _ h => ⟨h.1, fun ho => (h.2 ho).congr rfl⟩
        exact ((hpushed (.readHandler r.opening)).andThen
          ((hpushed (.addReceivedRawBytes 0 bytes)).branch .skip)) _ _ hread
      | error => exact (Maintains.skip.branch stop_carrying) _ _ hread
    · exact (List.append_nil o).symm ▸ h
  · exact (List.append_nil o).symm ▸ h

/-- The state in which the handler of the outstanding write runs: it reports `n` bytes. -/
structure Reported (acc : List UInt8) (n : Nat) (s : Port) (o : List Output) : Prop where
  connected : s.connections ≠ []
  consistent : Consistent s.protocolState
  unlocked : s.serialPortLock.nbrOfLocks = 0
  serializable : ∀ f ∈ framesSent o, (serializeFrame f).isSome
  taken : s.serialPort.writes = []
  busy : s.protocolState.awaitsNextHDLCFrame = false
  fits : s.sendBufferOffset + n ≤ s.sendBuffer.length
  rest : acc ++ s.sendBuffer.drop (s.sendBufferOffset + n) = wire (framesSent o)

theorem Reported.last {n : Nat} (h : Reported acc n s o) (hlast : s.sendBufferOffset + n = s.sendBuffer.length) :
    (branch (·.serialPortLock.getSerialPortState) skip
      ((emit [.triggerNextHDLCFrame]).andThen (callProtocolState ProtocolState.triggerNextHDLCFrame))).wp
      (Carrying acc none) { s with sendBufferOffset := 0 } o := by
  have hall := h.rest
  rw [hlast, List.drop_length, List.append_nil] at hall
  have hidle : Carried acc none { s with sendBufferOffset := 0 } o :=
    ⟨h.consistent, h.unlocked, h.serializable, fun _ hb => absurd hb.symm (Option.some_ne_none _),
      .idle h.taken rfl hall⟩
  have hasked : Carried acc none { s with sendBufferOffset := 0 } (o ++ [.triggerNextHDLCFrame]) :=
    hidle.frameless (by simp [Output.Frameless])
  refine wp_branch (fun _ => wp_skip.mpr ⟨h.connected, fun _ => hidle⟩) fun _ => ?_
  refine wp_andThen.mpr (wp_emit.mpr ⟨?_, fun _ => ?_⟩)
  · rw [show (callProtocolState ProtocolState.triggerNextHDLCFrame { s with sendBufferOffset := 0 }).1.connections =
      s.connections from congrArg (·.2.2.2.2.1) (callProtocolState_done _ _).served.same]
    exact h.connected
  · exact hasked.event (e := .internal .triggerNextHDLCFrame) fun _ => h.taken

theorem Reported.part {n : Nat} (h : Reported acc n s o) :
    doWrite.wp (Carrying acc none) { s with sendBufferOffset := s.sendBufferOffset + n } o := by
  have hshort : ¬ s.sendBuffer.length < s.sendBufferOffset + n := Nat.not_lt.mpr h.fits
  have hpending := WriteOperation.bytesSent_new s.serialPort.openings
    (s.sendBuffer.drop (s.sendBufferOffset + n)) s.serialPort.isOpen
  have hwritten : Carried acc none { s with
      sendBufferOffset := s.sendBufferOffset + n
      serialPort := s.serialPort.asyncWriteSome (s.sendBuffer.drop (s.sendBufferOffset + n)) } o := by
    refine ⟨h.consistent, h.unlocked, h.serializable, fun _ hb => absurd hb.symm (Option.some_ne_none _), ?_⟩
    refine .busy _ (by rw [SerialPort.asyncWriteSome, h.taken]; rfl) h.busy rfl ?_ ?_
    · rw [hpending]
      exact h.fits
    · rw [hpending]
      exact h.rest
  unfold wp doWrite
  simp only [andThen, emit, update, hshort, if_false, List.append_nil]
  exact ⟨h.connected, fun _ => hwritten.frameless (by simp [Output.Frameless])⟩

theorem Reported.onWrite {n : Nat} (h : Reported acc n s o) : (onWrite (.success n)).wp (Carrying acc none) s o := by
  refine wp_andThen.mpr (wp_update.mpr (wp_branch (fun hlast => ?_) fun _ => wp_branch (fun hlocked => ?_) fun _ => ?_))
  · exact wp_andThen.mpr (wp_update.mpr (h.last (beq_iff_eq.mp hlast)))
  · have hzero : (s.serialPortLock.nbrOfLocks != 0) = true := hlocked
    rw [h.unlocked] at hzero
    exact Bool.noConfusion hzero
  · exact h.part

theorem Carried.reported (h : Carried acc mark s o) (hconnected : s.connections ≠ []) {i : Nat} {w : WriteOperation}
    (hw : s.serialPort.writes[i]? = some w) :
    Reported acc w.bytesSent
      { s with serialPort := { s.serialPort with writes := s.serialPort.writes.eraseIdx i } } o := by
  cases h.line with
  | idle hnone =>
    rw [hnone] at hw
    exact absurd hw.symm (by simp)
  | busy w' hone hawaits hrest hfits hall =>
    have hfound : s.serialPort.writes.eraseIdx i = [] ∧ w' = w := by
      rw [hone] at hw ⊢
      cases i with
      | zero => exact ⟨rfl, Option.some.inj hw⟩
      | succ i => exact absurd hw.symm (by simp)
    obtain ⟨herased, rfl⟩ := hfound
    rw [hrest, List.drop_drop] at hall
    exact ⟨hconnected, h.consistent, h.unlocked, h.serializable, herased, hawaits, hfits, hall⟩

theorem Carrying.forget (h : Carrying acc mark s o) : Carrying acc none s o := by
  refine ⟨h.1, fun ho => ?_⟩
  have hs := h.2 ho
  exact ⟨hs.consistent, hs.unlocked, hs.serializable, fun _ hb => absurd hb.symm (Option.some_ne_none _), hs.line⟩

theorem writeHandler_carrying {i : Nat} (h : Carrying acc mark s o) (ho : Unbroken o) :
    (writeHandler i).wp (Carrying acc none) s o := by
  unfold wp writeHandler
  split
  · rename_i w hw
    have hreported := (h.2 ho).reported h.1 hw
    split
    · rename_i result hresult
      cases result with
      | error =>
        have hstopped (t : Port) (ht : t.connections ≠ []) : stop.wp (Carrying acc none) t o :=
          (stop_broken ht).carrying
        have hfailed : (branch (·.serialPortLock.getSerialPortState) skip stop).wp (Carrying acc none)
            { s with serialPort := { s.serialPort with writes := s.serialPort.writes.eraseIdx i } } o := by
          refine wp_branch (fun hlocked => ?_) fun _ => hstopped _ h.1
          have hzero : (s.serialPortLock.nbrOfLocks != 0) = true := hlocked
          rw [(h.2 ho).unlocked] at hzero
          exact Bool.noConfusion hzero
        exact hfailed
      | success n =>
        have hsent : w.bytesSent = n := by
          unfold WriteOperation.bytesSent
          rw [hresult]
        rw [hsent] at hreported
        exact hreported.onWrite
    · exact (List.append_nil o).symm ▸ h.forget
  · exact (List.append_nil o).symm ▸ h.forget

theorem writeCompletes_carried {i : Nat} {result : WriteResult} (h : Carried acc mark s o)
    (hvalid : s.validWrite i result = true) :
    Carried (acc ++ s.accepts (.writeCompletes i result)) mark
      { s with serialPort := s.serialPort.writeCompletes i result } o := by
  have haccepts : s.accepts (.writeCompletes i result) =
      (s.serialPort.writes[i]?).elim [] (WriteOperation.taken result) := if_pos hvalid
  rw [haccepts]
  have hwrites : s.serialPort.writes ≠ [] → (s.serialPort.writeCompletes i result).writes ≠ [] := by
    intro hsome hnone
    have hlength := congrArg List.length hnone
    rw [SerialPort.writeCompletes, List.length_modify] at hlength
    exact hsome (List.length_eq_zero_iff.mp hlength)
  refine ⟨h.consistent, h.unlocked, h.serializable, fun b hb => ⟨(h.kept b hb).1, hwrites (h.kept b hb).2⟩, ?_⟩
  cases h.line with
  | idle hnone hzero hall =>
    rw [hnone]
    refine .idle ?_ hzero ((List.append_nil acc).trans hall)
    show s.serialPort.writes.modify i (.complete result) = []
    rw [hnone, List.modify_nil]
  | busy w hone hawaits hrest hfits hall =>
    have hcompleted : (s.serialPort.writeCompletes i result).writes = [w].modify i (.complete result) := by
      rw [← hone]
      rfl
    rw [hone]
    cases i with
    | succ i =>
      rw [List.modify_succ_cons, List.modify_nil] at hcompleted
      exact .busy w hcompleted hawaits hrest hfits ((List.append_nil acc).symm ▸ hall)
    | zero =>
      rw [List.modify_zero_cons] at hcompleted
      have hw : s.serialPort.writes[0]? = some w := by rw [hone]; rfl
      have hcredible := credible_of_validWrite hvalid hw
      have hsent := WriteOperation.bytesSent_complete hcredible
      have hbuffer : (w.complete result).buffer = w.buffer :=
        (SerialPort.Completes.members (.inr ⟨rfl, hcredible⟩)).2
      refine .busy (w.complete result) hcompleted hawaits (hbuffer.trans hrest) ?_ ?_
      · show s.sendBufferOffset + _ ≤ s.sendBuffer.length
        rw [hrest, List.length_drop] at hsent
        have hrange := le_max_iff.mp hsent
        omega
      · show (acc ++ w.taken result) ++ _ = _
        rw [hbuffer, List.append_assoc, WriteOperation.taken_complete]
        exact hall

theorem accepts_nil {e : Event} (he : ∀ i result, e ≠ .writeCompletes i result) : s.accepts e = [] := by
  cases e with
  | writeCompletes i result => exact absurd rfl (he i result)
  | _ => rfl

theorem step_carrying {e : Event} (h : Carrying acc mark s o) (ho : Unbroken o)
    (hfree : ∀ c h, s.handlers c = some h → h.lockGuard.lockedBySelf = false)
    (hmark : ∀ i, e = .writeHandler i → mark = none) : (step e).wp (Carrying (acc ++ s.accepts e) mark) s o := by
  by_cases he : ∃ i result, e = .writeCompletes i result
  · obtain ⟨i, result, rfl⟩ := he
    refine wp_branch (fun hvalid => wp_update.mpr ⟨h.1, fun _ => writeCompletes_carried (h.2 ho) hvalid⟩)
      fun hinvalid => ?_
    have hnone : s.accepts (.writeCompletes i result) = [] := if_neg (by rw [hinvalid]; exact Bool.false_ne_true)
    rw [hnone, List.append_nil]
    exact wp_skip.mpr h
  · rw [accepts_nil fun i result hsame => he ⟨i, result, hsame⟩, List.append_nil]
    have hwired := wired_carrying acc mark
    cases e with
    | attach c sap opens => exact hwired.attach c sap opens s o h
    | disconnect c opens =>
      refine hwired.disconnect stop_carrying h fun hh hc _ hself => ?_
      exact absurd ((hfree c hh hc).symm.trans hself) Bool.noConfusion
    | receive c packet opens =>
      refine hwired.receive stop_carrying suspendSerialPort_carrying h fun hh hc _ hpacket => ?_
      unfold releaseLock
      rw [if_neg (by rw [hfree c hh hc]; exact Bool.false_ne_true)]
      exact wp_skip.mpr h
    | endReceiving c => exact hwired.endReceiving c s o h
    | proceed =>
      refine hwired.proceed h fun g calls _ => ?_
      have hpopped : Carrying acc mark { s with calls := calls } o := ⟨h.1, fun ho => (h.2 ho).congr rfl⟩
      exact (Maintains.skip.branch doRead_carrying) _ _ hpopped
    | timer x =>
      refine wp_branch (fun _ => ?_) fun _ => wp_skip.mpr h
      have hconnections : (callProtocolState (handle (.internal x.localEvent)) s).1.connections = s.connections :=
        congrArg (·.2.2.2.2.1) (callProtocolState_done _ s).served.same
      refine ⟨fun hnone => h.1 (hconnections.symm.trans hnone), fun _ => ?_⟩
      refine (h.2 ho).event (e := .internal x.localEvent) fun hawaits => (h.2 ho).free ?_
      rw [← prepare_timer_awaits]
      exact hawaits
    | readCompletes i completion =>
      have hfilled : Maintains (Carrying acc mark) (update (fillReadBuffer completion.bytes)) :=
        .update fun _ _ h => ⟨h.1, fun ho => (h.2 ho).congr rfl⟩
      have hcompleted : Maintains (Carrying acc mark) (readCompletes i completion) := (hfilled.branch .skip).andThen
        (reads_carrying fun s => s.serialPort.reads.modify i (.complete completion.result))
      exact (hcompleted.ite .skip) s o h
    | readHandler i => exact ((readHandler_carrying i).branch .skip) s o h
    | writeCompletes i result => exact absurd ⟨i, result, rfl⟩ he
    | writeHandler i =>
      rw [hmark i rfl] at h ⊢
      exact wp_branch (fun _ => writeHandler_carrying h ho) fun _ => wp_skip.mpr h

theorem openSerialPort_carrying (c : ClientId) (h : HdlcdServerHandler) (opens : OpenResult) :
    (openSerialPort opens).wp (Carrying [] none) (withHandler c h initial) [] := by
  have hconnected : (withHandler c h initial).connections ≠ [] := List.cons_ne_nil _ _
  have hidle {t : Port} (hnone : t.serialPort.writes = []) (hzero : t.sendBufferOffset = 0)
      (hps : Consistent t.protocolState) (hlock : t.serialPortLock.nbrOfLocks = 0) : Carried [] none t [] :=
    ⟨hps, hlock, fun _ hf => absurd hf List.not_mem_nil, fun _ hb => absurd hb.symm (Option.some_ne_none _),
      .idle hnone hzero rfl⟩
  have hcalled {t : Port} (e : LocalEvent) (ht : Carried [] none t []) (hnone : t.serialPort.writes = [])
      (hnobody : t.connections ≠ []) : (callProtocolState (handle (.internal e))).wp (Carrying [] none) t [] := by
    refine ⟨?_, fun _ => ht.event fun _ => hnone⟩
    rw [show (callProtocolState (handle (.internal e)) t).1.connections = t.connections from
      congrArg (·.2.2.2.2.1) (callProtocolState_done _ _).served.same]
    exact hnobody
  have hwired := wired_carrying [] none
  have hfailed {t : Port} (ht : Carried [] none { t with registered := false } []) (hnone : t.serialPort.writes = [])
      (hnobody : t.connections ≠ []) : (unregister.andThen dissolve).wp (Carrying [] none) t [] :=
    wp_andThen.mpr (wp_update.mpr (wp_andThen.mpr
      (wp_mono (hcalled .shutdown ht hnone hnobody) hwired.stopClients)))
  cases opens with
  | failed => exact hfailed (hidle rfl rfl Consistent.initial rfl) rfl hconnected
  | notConfigured =>
    exact wp_andThen.mpr (wp_update.mpr (hfailed (hidle rfl rfl Consistent.initial rfl) rfl hconnected))
  | opened =>
    refine wp_andThen.mpr (wp_update.mpr (wp_andThen.mpr ?_))
    have hopened : Carried [] none { withHandler c h initial with
        serialPort := (withHandler c h initial).serialPort.openPort } [] := hidle rfl rfl Consistent.initial rfl
    have hstarted := hcalled .start hopened rfl hconnected
    exact wp_mono hstarted (doRead_carrying.andThen hwired.propagateSerialPortState)

theorem accepts_initial (e : Event) : initial.accepts e = [] := by
  cases e with
  | writeCompletes i result =>
    show (if initial.validWrite i result = true then _ else _) = _
    split_ifs <;> rfl
  | _ => rfl

theorem Locked.nobody_holds (h : Locked s o) (hnbr : s.serialPortLock.nbrOfLocks = 0) (c : ClientId)
    (hh : HdlcdServerHandler) (hc : s.handlers c = some hh) : hh.lockGuard.lockedBySelf = false :=
  (h.unlocked hnbr hc).1

/-- What holds after every run without a suspend or stop: the port was never opened, or its line
carries whole frames. -/
theorem run_carrying (es : List Event) (ho : Unbroken (run step es initial).2) :
    run step es initial = (initial, []) ∧ acceptedBytes initial es = [] ∨
      Carrying (acceptedBytes initial es) none (run step es initial).1 (run step es initial).2 := by
  induction es using List.reverseRecOn with
  | nil => exact .inl ⟨rfl, rfl⟩
  | append_singleton es e ih =>
    rw [run_append, run_singleton] at ho ⊢
    rw [acceptedBytes_concat]
    have hbefore : Unbroken (run step es initial).2 := ho.of_append
    rcases ih hbefore with ⟨hrun, hnone⟩ | hcarrying
    · rw [andThen_apply, hrun, hnone, accepts_initial]
      rcases Wired.step_initial e with ⟨c, sap, opens, rfl⟩ | hidle
      · rcases (wired_carrying [] none).attach_first openSerialPort_carrying c sap opens with hsame | hopened
        · exact .inl ⟨Prod.ext (congrArg (·.1) hsame) (congrArg (·.2) hsame), rfl⟩
        · exact .inr hopened
      · exact .inl ⟨Prod.ext (congrArg (·.1) hidle) (congrArg (·.2) hidle), rfl⟩
    · have hlocked := run_locked es
      have hnbr := (hcarrying.2 hbefore).unlocked
      exact .inr (step_carrying hcarrying hbefore (hlocked.nobody_holds hnbr) fun _ _ => rfl)

theorem Line.outstanding (h : Line acc s o) : s.serialPort.writes.length ≤ 1 ∧
    ∀ w ∈ s.serialPort.writes, w.buffer = s.sendBuffer.drop s.sendBufferOffset := by
  cases h with
  | idle hnone =>
    rw [hnone]
    exact ⟨Nat.zero_le _, fun w hw => absurd hw List.not_mem_nil⟩
  | busy w hone hawaits hrest =>
    rw [hone]
    refine ⟨Nat.le_refl _, fun w' hw' => ?_⟩
    rw [List.mem_singleton.mp hw']
    exact hrest

theorem Line.accepted (h : Line acc s o) : acc <+: wire (framesSent o) ∧
    (s.protocolState.awaitsNextHDLCFrame = true → acc = wire (framesSent o)) := by
  cases h with
  | idle hnone hzero hall => exact ⟨hall ▸ List.prefix_rfl, fun _ => hall⟩
  | busy w hone hawaits hrest hfits hall =>
    exact ⟨⟨_, hall⟩, fun hopen => absurd (hawaits.symm.trans hopen) Bool.noConfusion⟩

/-- Until the port is suspended or stopped, the accepted bytes are whole frames back to back and a
prefix of the next one, at most one write is outstanding, and only its handler replaces the send
buffer. -/
theorem whole_frames_back_to_back (es : List Event) (ho : Unbroken (run step es initial).2) :
    (acceptedBytes initial es <+: wire (framesSent (run step es initial).2) ∧
      ((run step es initial).1.protocolState.awaitsNextHDLCFrame = true →
        acceptedBytes initial es = wire (framesSent (run step es initial).2)) ∧
      ∀ f ∈ framesSent (run step es initial).2, (serializeFrame f).isSome) ∧
    ((run step es initial).1.serialPort.writes.length ≤ 1 ∧
      ∀ w ∈ (run step es initial).1.serialPort.writes,
        w.buffer = (run step es initial).1.sendBuffer.drop (run step es initial).1.sendBufferOffset) ∧
    ∀ e, (run step es initial).1.serialPort.writes ≠ [] → (∀ i, e ≠ .writeHandler i) →
      Unbroken (run step (es ++ [e]) initial).2 →
      (run step (es ++ [e]) initial).1.sendBuffer = (run step es initial).1.sendBuffer := by
  rcases run_carrying es ho with ⟨hrun, hnone⟩ | hcarrying
  · rw [hnone, hrun]
    refine ⟨⟨List.nil_prefix, fun _ => rfl, fun f hf => absurd hf List.not_mem_nil⟩,
      ⟨Nat.zero_le _, fun w hw => absurd hw List.not_mem_nil⟩, fun _ hwrites => absurd rfl hwrites⟩
  · have hcarried := hcarrying.2 ho
    obtain ⟨hwire, hwhole⟩ := hcarried.line.accepted
    refine ⟨⟨hwire, hwhole, hcarried.serializable⟩, hcarried.line.outstanding, fun e hwrites he ho' => ?_⟩
    have hmarked : Carrying (acceptedBytes initial es) (some (run step es initial).1.sendBuffer)
        (run step es initial).1 (run step es initial).2 := by
      refine ⟨hcarrying.1, fun _ => ⟨hcarried.consistent, hcarried.unlocked, hcarried.serializable, ?_, hcarried.line⟩⟩
      intro b hb
      exact ⟨Option.some.inj hb, hwrites⟩
    have hnobody := (run_locked es).nobody_holds hcarried.unlocked
    have hnext := step_carrying (e := e) hmarked ho hnobody fun i hi => absurd hi (he i)
    rw [run_append, run_singleton] at ho' ⊢
    exact ((hnext.2 ho').kept _ rfl).1

end

/-- The first probe is written in two parts, the second one is cut where it stands. -/
def writtenTwice : List Event :=
  [.attach 0 0x00 .opened, .writeCompletes 0 (.success 4), .writeHandler 0, .writeCompletes 0 (.success 2),
    .writeHandler 0, .timer .probeTimerExpires, .timer .probeTimerHandler, .writeCompletes 0 (.success 1)]

theorem whole_frames_back_to_back_writtenTwice :
    acceptedBytes initial writtenTwice <+: wire (framesSent (run step writtenTwice initial).2) ∧
      (framesSent (run step writtenTwice initial).2).length = 2 ∧
      (acceptedBytes initial writtenTwice).length = 7 :=
  ⟨(whole_frames_back_to_back writtenTwice (by constructor <;> decide +kernel)).1.1, by decide +kernel,
    by decide +kernel⟩

end Port
end Hdlcd
