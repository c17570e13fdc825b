import Hdlcd.Library.Coupling
import Hdlcd.Protocol.History

/-! The events of a protocol state do not depend on its parser. -/

namespace Hdlcd.ProtocolState
open Reactive Action FrameGenerator

/-- The states are the same up to their parsers. -/
def SameEntity (s t : ProtocolState) : Prop := ∃ p, t = { s with frameParser := p }

theorem SameEntity.refl (s : ProtocolState) : SameEntity s s := ⟨s.frameParser, rfl⟩

theorem SameEntity.trans {s t u : ProtocolState} (h : SameEntity s t) (h' : SameEntity t u) : SameEntity s u := by
  obtain ⟨p, rfl⟩ := h
  obtain ⟨q, rfl⟩ := h'
  exact ⟨q, rfl⟩

abbrev Parserless (a : Act) : Prop := Respects Eq SameEntity a

theorem eq_piecewise {ω : Type*} : Piecewise (ω := ω) Eq where
  nil := rfl
  append h := by
    subst h
    exact List.append_right_inj _

namespace Parserless

section
variable {a b : Act}

theorem skip : Parserless skip := Respects.skip eq_piecewise

theorem emit (o : List Effect) : Parserless (emit o) := Respects.emit rfl

theorem andThen (ha : Parserless a) (hb : Parserless b) : Parserless (a.andThen b) :=
  Respects.andThen eq_piecewise ha hb

theorem update {f : ProtocolState → ProtocolState} (hf : ∀ s p, SameEntity (f s) (f { s with frameParser := p })) :
    Parserless (update f) := by
  apply Respects.update eq_piecewise
  rintro s _ ⟨p, rfl⟩
  exact hf s p

theorem branch {c : ProtocolState → Bool} (hc : ∀ s p, c s = c { s with frameParser := p }) (ha : Parserless a)
    (hb : Parserless b) : Parserless (branch c a b) := by
  refine Respects.branch ?_ ha hb
  rintro s _ ⟨p, rfl⟩
  exact hc s p

theorem withSerialPortHandler (ha : Parserless a) : Parserless (withSerialPortHandler a) :=
  branch (fun _ _ => rfl) ha (emit _)

end

theorem transmitFrame (f : HdlcFrame) : Parserless (transmitFrame f) := by
  rintro s _ ⟨p, rfl⟩
  unfold Coupled ProtocolState.transmitFrame
  cases serializeFrame f with
  | none => exact ⟨⟨p, rfl⟩, rfl⟩
  | some => exact ⟨⟨p, rfl⟩, rfl⟩

theorem queryWaitQueues : Parserless queryWaitQueues := by
  have hasked (r u : Bool) : Parserless (if r || u then
      ProtocolState.withSerialPortHandler (Action.emit [.queryForPayload r u]) else Action.skip) :=
    Respects.ite (withSerialPortHandler (emit _)) skip
  rintro s _ ⟨p, rfl⟩
  have hcoupled := hasked (s.waitQueueUnreliable.isEmpty && s.waitQueueReliable.isEmpty && !s.peerStoppedFlow)
    (s.waitQueueUnreliable.isEmpty && (s.waitQueueReliable.isEmpty || s.peerStoppedFlow)) s _ ⟨p, rfl⟩
  unfold Coupled ProtocolState.queryWaitQueues
  dsimp only
  split_ifs at hcoupled ⊢ with hnone
  · exact hcoupled
  · exact hcoupled

theorem sendUnreliable : Parserless sendUnreliable := by
  have hsent (front : Payload) (rest : List Payload) : Parserless (ProtocolState.withSerialPortHandler
      ((Action.emit [.deliverBufferToClients .payload front false false true]).andThen
        ((Action.update fun s => { s with waitQueueUnreliable := rest }).andThen
          (ProtocolState.transmitFrame (prepareUFrameUI front))))) :=
    withSerialPortHandler ((emit _).andThen ((update fun _ p => ⟨p, rfl⟩).andThen (transmitFrame _)))
  rintro s _ ⟨p, rfl⟩
  unfold Coupled ProtocolState.sendUnreliable
  dsimp only
  split
  · exact hsent _ _ s _ ⟨p, rfl⟩
  · exact queryWaitQueues s _ ⟨p, rfl⟩

theorem sendRR : Parserless sendRR := by
  rintro s _ ⟨p, rfl⟩
  unfold Coupled ProtocolState.sendRR
  dsimp only
  split_ifs
  · exact withSerialPortHandler (transmitFrame _) _ _ ⟨p, rfl⟩
  · exact withSerialPortHandler (transmitFrame _) _ _ ⟨p, rfl⟩

theorem sendAck : Parserless sendAck := by
  have hnew : Parserless (Action.update fun s => startRnrTimer { s with peerStoppedFlowNew := false }) :=
    update fun _ p => ⟨p, rfl⟩
  exact branch (fun _ _ => rfl) (hnew.andThen sendUnreliable) (branch (fun _ _ => rfl) sendRR sendUnreliable)

theorem sendIFrame (front : Payload) : Parserless (sendIFrame front) := by
  rintro s _ ⟨p, rfl⟩
  refine withSerialPortHandler ((emit _).andThen ((update fun _ p => ⟨p, rfl⟩).andThen
    (transmitFrame (s.prepareIFrame front)))) s _ ⟨p, rfl⟩

theorem sendReliable : Parserless sendReliable := by
  rintro s _ ⟨p, rfl⟩
  unfold Coupled ProtocolState.sendReliable
  dsimp only
  split
  · split_ifs
    · exact sendIFrame _ s _ ⟨p, rfl⟩
    · exact sendAck s _ ⟨p, rfl⟩
  · exact sendAck s _ ⟨p, rfl⟩

theorem sendOutstanding : Parserless sendOutstanding := by
  rintro s _ ⟨p, rfl⟩
  unfold Coupled ProtocolState.sendOutstanding
  dsimp only
  split
  · exact withSerialPortHandler (transmitFrame _) _ _ ⟨p, rfl⟩
  · exact sendReliable s _ ⟨p, rfl⟩

theorem opportunityForTransmission : Parserless opportunityForTransmission := by
  have hprobe : Parserless (Action.update fun s => { s with sendProbe := false }) := update fun _ p => ⟨p, rfl⟩
  exact branch (fun _ _ => rfl) skip (branch (fun _ _ => rfl)
    (hprobe.andThen (withSerialPortHandler (transmitFrame _)))
    (branch (fun _ _ => rfl) sendOutstanding skip))

theorem aliveCallback (callback : AliveCallback) : Parserless (aliveCallback callback) := by
  cases callback with
  | sendProbe =>
    have hprobe : Parserless (Action.update fun s => { s with sendProbe := true }) := update fun _ p => ⟨p, rfl⟩
    exact hprobe.andThen (branch (fun _ _ => rfl) opportunityForTransmission skip)
  | changeBaudrate => exact branch (fun _ _ => rfl) (emit _) skip

theorem callAliveState (method : AliveState → AliveState × List AliveCallback) :
    Parserless (callAliveState method) := by
  rintro s _ ⟨p, rfl⟩
  exact Respects.run eq_piecewise aliveCallback (method s.aliveState).2 _ _ ⟨p, rfl⟩

theorem receivePayload (f : HdlcFrame) : Parserless (receivePayload f) := by
  have hadvanced : Parserless (Action.update (advanceWindow f.sSeq)) := update fun _ p => ⟨p, rfl⟩
  exact Respects.ite ((emit _).andThen (Respects.ite hadvanced skip)) skip

theorem popFrontReliable : Parserless popFrontReliable := by
  rintro s _ ⟨p, rfl⟩
  unfold Coupled ProtocolState.popFrontReliable
  dsimp only
  split
  · exact ⟨⟨p, rfl⟩, rfl⟩
  · exact ⟨⟨p, rfl⟩, rfl⟩

theorem stopWaiting : Parserless (Action.update stopWaiting) := update fun _ p => ⟨p, rfl⟩

theorem updateIf {c : ProtocolState → Prop} [DecidablePred c] {f : ProtocolState → ProtocolState}
    (hc : ∀ s p, c s ↔ c { s with frameParser := p }) (hf : ∀ s p, SameEntity (f s) (f { s with frameParser := p })) :
    Parserless (Action.update fun s => if c s then f s else s) := by
  refine update fun s p => ?_
  by_cases hs : c s
  · rw [if_pos hs, if_pos ((hc s p).mp hs)]
    exact hf s p
  · rw [if_neg hs, if_neg (mt (hc s p).mpr hs)]
    exact ⟨p, rfl⟩

theorem acknowledge (f : HdlcFrame) : Parserless (acknowledge f) := by
  have hnumber : Parserless (Action.update fun s => { s with sSeqOutgoing := f.rSeq }) := update fun _ p => ⟨p, rfl⟩
  exact (updateIf (fun _ _ => Iff.rfl) fun _ p => ⟨p, rfl⟩).andThen
    ((branch (fun _ _ => rfl) (stopWaiting.andThen popFrontReliable) skip).andThen hnumber)

theorem receiveNotReady (f : HdlcFrame) : Parserless (receiveNotReady f) := by
  have hnumber : Parserless (Action.update fun s => { s with sSeqOutgoing := f.rSeq }) := update fun _ p => ⟨p, rfl⟩
  have hentered : Parserless (Action.update enterRnrCondition) := updateIf (fun _ _ => Iff.rfl) fun _ p => ⟨p, rfl⟩
  exact hentered.andThen ((branch (fun _ _ => rfl)
    (stopWaiting.andThen (branch (fun _ _ => rfl) popFrontReliable skip)) skip).andThen hnumber)

theorem reject (f : HdlcFrame) : Parserless (reject f) := by
  have hnumber : Parserless (Action.update fun s => { s with sSeqOutgoing := (f.rSeq + 0x07) &&& 0x07 }) :=
    update fun _ p => ⟨p, rfl⟩
  exact (updateIf (fun _ _ => Iff.rfl) fun _ p => ⟨p, rfl⟩).andThen
    ((updateIf (fun _ _ => Iff.rfl) fun _ p => ⟨p, rfl⟩).andThen hnumber)

theorem selectiveReject (f : HdlcFrame) : Parserless (selectiveReject f) :=
  (updateIf (fun _ _ => Iff.rfl) fun _ p => ⟨p, rfl⟩).andThen
    (updateIf (fun _ _ => Iff.rfl) fun _ p => ⟨p, rfl⟩)

theorem checkAcks (f : HdlcFrame) : Parserless (checkAcks f) := by
  unfold ProtocolState.checkAcks
  split
  · exact acknowledge f
  · exact acknowledge f
  · exact receiveNotReady f
  · exact reject f
  · exact selectiveReject f
  · exact skip

theorem frameReceived : Parserless frameReceived := by
  rintro s _ ⟨p, rfl⟩
  exact ⟨⟨p, rfl⟩, rfl⟩

theorem interpretDeserializedFrame (payload : Payload) (f : HdlcFrame) (messageInvalid : Bool) :
    Parserless (interpretDeserializedFrame payload f messageInvalid) := by
  have hvalid : Parserless (interpretValidFrame f) :=
    frameReceived.andThen ((receivePayload f).andThen ((checkAcks f).andThen
      (branch (fun _ _ => rfl) opportunityForTransmission skip)))
  exact branch (fun _ _ => rfl) skip (withSerialPortHandler ((emit _).andThen (Respects.ite skip hvalid)))

theorem start : Parserless start := by
  have hreset : Parserless (Action.update fun s => { s.reset with started := true }) :=
    update fun s _ => SameEntity.refl { s.reset with started := true }
  exact hreset.andThen ((callAliveState _).andThen opportunityForTransmission)

theorem sendPayload (payload : Payload) (reliable : Bool) : Parserless (sendPayload payload reliable) := by
  have henqueued : Parserless (Action.update fun s => s.enqueue payload reliable) := by
    refine update fun s p => ⟨p, ?_⟩
    cases reliable <;> rfl
  refine henqueued.andThen ?_
  rintro s _ ⟨p, rfl⟩
  unfold Coupled
  dsimp only
  split_ifs
  · exact opportunityForTransmission s _ ⟨p, rfl⟩
  · exact ⟨⟨p, rfl⟩, rfl⟩

theorem onTimer (handler : TimerHandler) : Parserless (onTimer handler) := by
  cases handler with
  | retransmission =>
    have hagain : Parserless (Action.update fun s => { s with waitForAck := false }) := update fun _ p => ⟨p, rfl⟩
    exact hagain.andThen opportunityForTransmission
  | rnrPoll =>
    have hpolled : Parserless (Action.update fun s =>
        { s with peerRequiresAck := true, peerStoppedFlowQueried := false }) := update fun _ p => ⟨p, rfl⟩
    exact branch (fun _ _ => rfl) (hpolled.andThen opportunityForTransmission) skip

theorem onStateTimer : Parserless onStateTimer := by
  rintro s _ ⟨p, rfl⟩
  unfold Coupled ProtocolState.onStateTimer
  dsimp only
  split
  · exact ⟨⟨p, rfl⟩, rfl⟩
  · exact ⟨⟨p, rfl⟩, rfl⟩

theorem handleLocal (e : LocalEvent) : Parserless (handleLocal e) := by
  have hreset : Parserless (Action.update reset) := update fun s _ => SameEntity.refl s.reset
  have hgone : Parserless (Action.update fun s => { s.reset with serialPortHandler := false }) :=
    update fun s _ => SameEntity.refl { s.reset with serialPortHandler := false }
  have hnext : Parserless (Action.update fun s => { s with awaitsNextHDLCFrame := true }) :=
    update fun _ p => ⟨p, rfl⟩
  have halive (f : AliveState → AliveState) : Parserless (Action.update fun s =>
      { s with aliveState := f s.aliveState }) := update fun _ p => ⟨p, rfl⟩
  cases e with
  | start => exact start
  | stop => exact branch (fun _ _ => rfl) (hreset.andThen (withSerialPortHandler (emit _))) skip
  | shutdown => exact branch (fun _ _ => rfl) hgone skip
  | sendPayload payload reliable => exact sendPayload payload reliable
  | triggerNextHDLCFrame => exact branch (fun _ _ => rfl) skip (hnext.andThen opportunityForTransmission)
  | timerExpires => exact update fun _ p => ⟨p, rfl⟩
  | timerHandler handler =>
    have hcompleted : Parserless (Action.update fun s => { s with timer := s.timer.complete handler }) :=
      update fun _ p => ⟨p, rfl⟩
    exact branch (fun _ _ => rfl) (hcompleted.andThen (onTimer handler)) skip
  | stateTimerExpires => exact halive fun a => { a with stateTimer := a.stateTimer.expire }
  | stateTimerHandler =>
    have hcompleted := halive fun a => { a with stateTimer := a.stateTimer.complete () }
    exact branch (fun _ _ => rfl) (hcompleted.andThen onStateTimer) skip
  | probeTimerExpires => exact halive fun a => { a with probeTimer := a.probeTimer.expire }
  | probeTimerHandler =>
    have hcompleted := halive fun a => { a with probeTimer := a.probeTimer.complete () }
    have htimeout : Parserless onProbeTimer := (callAliveState _).andThen (halive AliveState.startProbeTimer)
    exact branch (fun _ _ => rfl) (hcompleted.andThen htimeout) skip

theorem handle (e : Event) : Parserless (handle e) := by
  cases e with
  | internal e => exact handleLocal e
  | frame buffer messageInvalid => exact interpretDeserializedFrame buffer _ messageInvalid

end Parserless
end Hdlcd.ProtocolState
