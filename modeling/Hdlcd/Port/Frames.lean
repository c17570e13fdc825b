import Hdlcd.Port.Line
import Hdlcd.SerialPort.Operations

/-! The frames that the protocol state hands over: an event writes one frame, or leaves the
line as it is. -/

namespace Hdlcd.Port
open Reactive Action ProtocolState

def frameMembers (s : Port) :=
  (s.sendBuffer, s.sendBufferOffset, s.serialPort, s.protocolState, s.connections.isEmpty)

def Output.Quiet : Output → Prop
  | .doWrite | .fault .sendBufferOffset | .fault .lengthUnderflow => False
  | _ => True

def Output.Sound : Output → Prop
  | .fault .sendBufferOffset | .fault .lengthUnderflow => False
  | _ => True

def Output.Apart : Output → Prop
  | .portStatus .. | .dataPacket .. | .fault .portClosed | .fault (.protocolState _) => True
  | _ => False

/-- What an event of the protocol state does to the line. -/
inductive Frames (p : Preparation) (ps : ProtocolState) (s t : Port) (o : List Output) : Prop
  | none (hsame : frameMembers t = frameMembers { s with protocolState := ps })
    (hawaits : ps.awaitsNextHDLCFrame = true → p.state.awaitsNextHDLCFrame = true) (ho : ∀ y ∈ o, y.Quiet)
  | one (buffer : List UInt8)
    (hwritten : frameMembers t = (buffer, s.sendBufferOffset,
      s.serialPort.asyncWriteSome (buffer.drop s.sendBufferOffset), ps, s.connections.isEmpty))
    (hawaits : p.state.awaitsNextHDLCFrame = true) (hhandler : p.state.serialPortHandler = true)
    (hcause : p.state.sendProbe = true ∨ p.state.started = true) (hbusy : ps.awaitsNextHDLCFrame = false)
    (ho : s.sendBufferOffset = 0 → ∀ y ∈ o, y.Sound)

section
variable {s : Port} {o : List Output}

theorem forEach_frame (f : ClientId → HdlcdServerHandler → HdlcdServerHandler × List Output) (s : Port) :
    frameMembers (forEachHdlcdServerHandler f s).1 = frameMembers s := by
  show frameMembers s.rebuildSubscriptions = _
  unfold rebuildSubscriptions
  split_ifs <;> rfl

theorem changeBaudRate_frame (s : Port) :
    frameMembers (changeBaudRate s).1 = frameMembers s ∧ ∀ y ∈ (changeBaudRate s).2, y.Apart := by
  unfold changeBaudRate
  rw [branch]
  split_ifs
  · show frameMembers (branch _ _ _ _).1 = _ ∧ ∀ y ∈ [] ++ (branch _ _ _ _).2, _
    rw [branch]
    split_ifs
    · exact ⟨rfl, fun y hy => absurd hy List.not_mem_nil⟩
    · refine ⟨rfl, fun y hy => ?_⟩
      rw [List.mem_singleton.mp hy]
      trivial
  · exact ⟨rfl, fun y hy => absurd hy List.not_mem_nil⟩

theorem effect_noFrame {x : Effect} (hx : NoFrame x) (s : Port) :
    frameMembers (effect x s).1 = frameMembers s ∧ ∀ y ∈ (effect x s).2, y.Apart := by
  have hnone : ∀ y ∈ ([] : List Output), y.Apart := fun y hy => absurd hy List.not_mem_nil
  have hdelivered (bufferType : BufferType) (payload : Payload) (reliable invalid wasSent : Bool) :
      frameMembers (deliverBufferToClients bufferType payload reliable invalid wasSent s).1 = frameMembers s ∧
        ∀ y ∈ (deliverBufferToClients bufferType payload reliable invalid wasSent s).2, y.Apart := by
    refine ⟨forEach_frame _ s, fun y hy => ?_⟩
    obtain ⟨c, rfl⟩ := deliverBufferToClients_outputs hy
    trivial
  cases x with
  | deliverIfRequired =>
    rw [effect, branch]
    split_ifs
    · exact hdelivered _ _ _ _ _
    · exact ⟨rfl, hnone⟩
  | deliverBufferToClients => exact hdelivered _ _ _ _ _
  | changeBaudRate => exact changeBaudRate_frame s
  | propagateSerialPortState =>
    refine ⟨forEach_frame _ s, fun y hy => ?_⟩
    obtain ⟨c, alive, others, self, rfl⟩ := propagateSerialPortState_outputs hy
    trivial
  | transmitHDLCFrame => exact hx.elim
  | queryForPayload => exact ⟨rfl, hnone⟩
  | popFrontReliable => exact ⟨rfl, hnone⟩
  | fault f =>
    refine ⟨rfl, fun y hy => ?_⟩
    rw [List.mem_singleton.mp hy]
    trivial

theorem effects_noFrame {xs : List Effect} (hxs : ∀ x ∈ xs, NoFrame x) (s : Port) :
    frameMembers (run effect xs s).1 = frameMembers s ∧ ∀ y ∈ (run effect xs s).2, y.Apart := by
  induction xs generalizing s with
  | nil => exact ⟨rfl, fun y hy => absurd hy List.not_mem_nil⟩
  | cons x xs ih =>
    obtain ⟨hsame, hapart⟩ := effect_noFrame (hxs x (List.mem_cons_self ..)) s
    obtain ⟨hsame', hapart'⟩ := ih (fun y hy => hxs y (List.mem_cons_of_mem _ hy)) (effect x s).1
    exact ⟨hsame'.trans hsame, fun y hy => (List.mem_append.mp hy).elim (hapart y) (hapart' y)⟩

theorem credible_of_validWrite {i : Nat} {result : WriteResult} {w : WriteOperation}
    (hvalid : s.validWrite i result = true) (hw : s.serialPort.writes[i]? = some w) :
    SerialPort.Credible result w := by
  intro n hn
  rw [hn, validWrite, hw, Option.any_some, Bool.and_eq_true, decide_eq_true_eq, decide_eq_true_eq] at hvalid
  exact hvalid

theorem Output.Apart.quiet {y : Output} (h : y.Apart) : y.Quiet := by
  cases y with
  | fault f =>
    cases f with
    | sendBufferOffset | lengthUnderflow => exact h
    | _ => trivial
  | doWrite => exact h
  | _ => trivial

theorem Output.Quiet.sound {y : Output} (h : y.Quiet) : y.Sound := by
  cases y with
  | fault f => cases f <;> trivial
  | _ => trivial

def Written (buffer : List UInt8) (s : Port) : Assertion Port Output := fun t o =>
  frameMembers t = (buffer, s.sendBufferOffset, s.serialPort.asyncWriteSome (buffer.drop s.sendBufferOffset),
      s.protocolState, s.connections.isEmpty) ∧
    (s.sendBufferOffset = 0 → ∀ y ∈ o, y.Sound)

theorem transmitHDLCFrame_written (f : HdlcFrame) (buffer : List UInt8) (s : Port) :
    (transmitHDLCFrame f buffer).wp (Written buffer s) s [] := by
  have happend {o : List Output} {x : Output} (hx : s.sendBufferOffset = 0 → x.Sound)
      (ho : s.sendBufferOffset = 0 → ∀ y ∈ o, y.Sound) : s.sendBufferOffset = 0 → ∀ y ∈ o ++ [x], y.Sound := by
    intro hzero y hy
    rcases List.mem_append.mp hy with hy | hy
    · exact ho hzero y hy
    · rw [List.mem_singleton.mp hy]
      exact hx hzero
  have hlast {o : List Output} (ho : s.sendBufferOffset = 0 → ∀ y ∈ o, y.Sound) :
      ((update fun s => { s with sendBuffer := buffer }).andThen doWrite).wp (Written buffer s) s o := by
    refine wp_andThen.mpr (wp_update.mpr ⟨rfl, ?_⟩)
    show _ → ∀ y ∈ o ++ ((if buffer.length < s.sendBufferOffset then
      [.doWrite, .fault .lengthUnderflow] else [.doWrite]) ++ []), _
    rw [List.append_nil]
    split_ifs with hshort
    · intro hzero
      rw [hzero] at hshort
      exact absurd hshort (Nat.not_lt_zero _)
    · exact happend (fun _ => trivial) ho
  have hsuspended {o : List Output} (ho : s.sendBufferOffset = 0 → ∀ y ∈ o, y.Sound) :
      ((branch (·.serialPortLock.getSerialPortState) (emit [.fault .suspended]) skip).andThen
        ((update fun s => { s with sendBuffer := buffer }).andThen doWrite)).wp (Written buffer s) s o := by
    refine wp_andThen.mpr (wp_branch (fun _ => wp_emit.mpr (hlast ?_)) fun _ => wp_skip.mpr (hlast ho))
    exact happend (fun _ => trivial) ho
  have hframe : s.sendBufferOffset = 0 → ∀ y ∈ [] ++ [Output.transmitHDLCFrame f], y.Sound :=
    happend (fun _ => trivial) fun _ y hy => absurd hy List.not_mem_nil
  refine wp_andThen.mpr (wp_emit.mpr (wp_andThen.mpr (wp_branch (fun _ => ?_) fun hoffset => ?_)))
  · exact wp_skip.mpr (hsuspended hframe)
  · refine wp_emit.mpr (hsuspended (happend (fun hzero => ?_) hframe))
    rw [hzero] at hoffset
    exact Bool.noConfusion hoffset

theorem callProtocolState_frames (hs : Consistent s.protocolState) (e : Hdlcd.Event) :
    Frames (prepare e s.protocolState) (handle e s.protocolState).1 s (callProtocolState (handle e) s).1
      (callProtocolState (handle e) s).2 := by
  have hcall : callProtocolState (handle e) s = run effect (handle e s.protocolState).2
      { s with protocolState := (handle e s.protocolState).1 } := rfl
  rw [hcall]
  cases handle_occupies hs e with
  | silent hnone hawaits =>
    obtain ⟨hsame, hapart⟩ := effects_noFrame hnone { s with protocolState := (handle e s.protocolState).1 }
    exact .none hsame hawaits fun y hy => (hapart y hy).quiet
  | @frame f copies buffer heffects hcopies hawaits hhandler hcause hbusy =>
    obtain ⟨hsame, hapart⟩ := effects_noFrame hcopies { s with protocolState := (handle e s.protocolState).1 }
    rw [heffects, run_append, run_singleton]
    simp only [frameMembers, Prod.mk.injEq] at hsame
    obtain ⟨_, hoffset, hport, hps, hconnections⟩ := hsame
    obtain ⟨hsent, hsound⟩ := transmitHDLCFrame_written f (FrameGenerator.escapeFrame buffer)
      (run effect copies { s with protocolState := (handle e s.protocolState).1 }).1
    rw [hoffset, hport, hps, hconnections] at hsent
    refine .one (FrameGenerator.escapeFrame buffer) hsent hawaits hhandler hcause hbusy fun hzero y hy => ?_
    rcases List.mem_append.mp hy with hy | hy
    · exact (hapart y hy).quiet.sound
    · exact hsound (hoffset.trans hzero) y hy

end
end Hdlcd.Port
