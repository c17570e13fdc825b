import Hdlcd.Protocol.History

/-! The two wait queues over whole runs: what leaves them left in the order in which it
was submitted, and a reliable payload leaves only after it was sent. -/

namespace Hdlcd.ProtocolState
open Reactive Action FrameGenerator FrameParser

def InTurn (before : History) : Event ⊕ Effect → Prop
  | .inr (.transmitHDLCFrame f _) =>
    (f.isIFrame = true → (submitted true before)[(removed before).length]? = some f.payload) ∧
      (f.hdlcFrameType = .uUI → (submitted false before)[(transmittedUI before).length]? = some f.payload)
  | .inr (.popFrontReliable payload) => ∃ f ∈ iFrames (sinceStart before), f.payload = payload
  | _ => True

structure QueueInvariant (s : ProtocolState) (h : History) : Prop where
  reliable : removed h ++ s.waitQueueReliable = submitted true h
  unreliable : transmittedUI h ++ s.waitQueueUnreliable = submitted false h
  outstanding : s.waitForAck = true →
    ∃ f ∈ iFrames (sinceStart h), s.waitQueueReliable.head? = some f.payload
  inTurn : Justified InTurn h

namespace QueueInvariant

variable {s s' : ProtocolState} {h : History}

theorem initial : QueueInvariant initial [] where
  reliable := rfl
  unreliable := rfl
  outstanding hwait := absurd hwait Bool.false_ne_true
  inTurn := Justified.nil

theorem kept (hI : QueueInvariant s h) (hk : Kept s s') : QueueInvariant s' h where
  reliable := by rw [hk.waitQueueReliable, hI.reliable]
  unreliable := by rw [hk.waitQueueUnreliable, hI.unreliable]
  outstanding hwait := by
    rw [hk.waitQueueReliable]
    exact hI.outstanding (hk.waitForAck ▸ hwait)
  inTurn := hI.inTurn

theorem quiet (hI : QueueInvariant s h) {x : Effect} (hx : Quiet s x) :
    QueueInvariant s (h ++ [.inr x]) where
  reliable := by rw [hx.removed, submitted_effect, hI.reliable]
  unreliable := by rw [hx.transmittedUI, submitted_effect, hI.unreliable]
  outstanding hwait := by
    rw [sinceStart_effect, hx.iFrames]
    exact hI.outstanding hwait
  inTurn := by
    apply hI.inTurn.concat
    cases x with
    | transmitHDLCFrame f buffer =>
      refine ⟨fun hf => absurd (beq_iff_eq.mp hf) hx.ne_iFrame, fun hf => ?_⟩
      rcases hx.2 with ⟨hf', _⟩ | hf' | hf' <;> exact FrameType.noConfusion (hf.symm.trans hf')
    | popFrontReliable payload => exact hx.elim
    | _ => trivial

theorem iFrame (hI : QueueInvariant s h) {front : Payload} {rest : List Payload}
    {buffer : List UInt8} (hq : s.waitQueueReliable = front :: rest) :
    QueueInvariant { s with waitForAck := true }
      (h ++ [.inr (.transmitHDLCFrame (s.prepareIFrame front) buffer)]) where
  reliable := by rw [removed_transmit, submitted_effect, ← hI.reliable]
  unreliable := by
    have hui : transmittedUI (h ++ [.inr (.transmitHDLCFrame (s.prepareIFrame front) buffer)]) =
        transmittedUI h := by simp [transmittedUI, transmitted, prepareIFrame]
    rw [hui, submitted_effect, ← hI.unreliable]
  outstanding _ := by
    refine ⟨s.prepareIFrame front, ?_, by simp [hq, prepareIFrame]⟩
    rw [sinceStart_effect, iFrames_append]
    exact List.mem_append_right _ (List.mem_singleton.mpr rfl)
  inTurn := by
    refine hI.inTurn.concat ⟨fun _ => ?_, fun hf => FrameType.noConfusion hf⟩
    rw [← hI.reliable, List.getElem?_append_right (le_refl _), Nat.sub_self, hq]
    rfl

theorem uiFrame (hI : QueueInvariant s h) {front : Payload} {rest : List Payload}
    {buffer : List UInt8} (hq : s.waitQueueUnreliable = front :: rest) :
    QueueInvariant { s with waitQueueUnreliable := rest }
      (h ++ [.inr (.transmitHDLCFrame (prepareUFrameUI front) buffer)]) where
  reliable := by rw [removed_transmit, submitted_effect, hI.reliable]
  unreliable := by
    have hui : transmittedUI (h ++ [.inr (.transmitHDLCFrame (prepareUFrameUI front) buffer)]) =
        transmittedUI h ++ [front] := by simp [transmittedUI, transmitted, prepareUFrameUI]
    rw [hui, submitted_effect, ← hI.unreliable, hq, List.append_assoc]
    rfl
  outstanding hwait := by
    rw [sinceStart_effect, iFrames_append]
    obtain ⟨f, hf, hhead⟩ := hI.outstanding hwait
    exact ⟨f, List.mem_append_left _ hf, hhead⟩
  inTurn := by
    refine hI.inTurn.concat ⟨fun hf => Bool.noConfusion hf, fun _ => ?_⟩
    rw [← hI.unreliable, List.getElem?_append_right (le_refl _), Nat.sub_self, hq]
    rfl

theorem stable : StableHistory QueueInvariant where
  kept hI hk := hI.kept hk
  quiet hI hx := hI.quiet hx
  iFrame hI _ hq _ _ := hI.iFrame hq
  uiFrame hI hq := hI.uiFrame hq

theorem event (hI : QueueInvariant s h) {e : Event}
    (he : ∀ r, submitted r (h ++ [.inl e]) = submitted r h)
    (hreliable : s'.waitQueueReliable = s.waitQueueReliable)
    (hunreliable : s'.waitQueueUnreliable = s.waitQueueUnreliable)
    (hwait : s'.waitForAck = true → s.waitForAck = true ∧ e ≠ .internal .start) :
    QueueInvariant s' (h ++ [.inl e]) where
  reliable := by rw [removed_event, he, hreliable, hI.reliable]
  unreliable := by rw [transmittedUI_event, he, hunreliable, hI.unreliable]
  outstanding hw := by
    obtain ⟨hw', hne⟩ := hwait hw
    rw [sinceStart_event hne, iFrames_event, hreliable]
    exact hI.outstanding hw'
  inTurn := hI.inTurn.concat trivial

theorem enqueue (hI : QueueInvariant s h) (payload : Payload) (reliable : Bool) :
    QueueInvariant (s.enqueue payload reliable)
      (h ++ [.inl (.internal (.sendPayload payload reliable))]) := by
  have hsubmitted (r : Bool) : submitted r (h ++ [.inl (.internal (.sendPayload payload reliable))]) =
      submitted r h ++ if reliable = r then [payload] else [] := by
    rw [submitted_append]
    cases reliable <;> cases r <;> rfl
  have hsince := sinceStart_event (h := h) (e := .internal (.sendPayload payload reliable)) (by simp)
  cases reliable with
  | true =>
    refine ⟨?_, ?_, ?_, hI.inTurn.concat trivial⟩
    · rw [hsubmitted, removed_event, ← hI.reliable, List.append_assoc]
      rfl
    · rw [hsubmitted, transmittedUI_event, ← hI.unreliable]
      exact (List.append_nil _).symm
    · intro hwait
      obtain ⟨f, hf, hhead⟩ := hI.outstanding hwait
      rw [hsince, iFrames_event]
      refine ⟨f, hf, ?_⟩
      show (s.waitQueueReliable ++ [payload]).head? = some f.payload
      rw [List.head?_append, hhead]
      rfl
  | false =>
    refine ⟨?_, ?_, ?_, hI.inTurn.concat trivial⟩
    · rw [hsubmitted, removed_event, ← hI.reliable]
      exact (List.append_nil _).symm
    · rw [hsubmitted, transmittedUI_event, ← hI.unreliable, List.append_assoc]
      rfl
    · intro hwait
      rw [hsince, iFrames_event]
      exact hI.outstanding hwait

theorem prologue (hI : QueueInvariant s h) (e : LocalEvent) :
    QueueInvariant (prologue e s) (h ++ [.inl (.internal e)]) := by
  refine prologue_cases (Q := fun t => QueueInvariant t (h ++ [.inl (.internal e)])) ?_ ?_ ?_ ?_
  · intro hreset started serialPortHandler _ _
    refine hI.event ?_ rfl rfl fun hwait => absurd hwait Bool.false_ne_true
    rcases hreset with rfl | rfl | rfl <;> simp [submitted]
  · rintro payload reliable rfl
    exact hI.enqueue payload reliable
  · rintro rfl
    exact hI.event (by simp [submitted]) rfl rfl fun hwait => absurd hwait Bool.false_ne_true
  · intro hne hsubmits
    have hnone (r : Bool) : submitted r (h ++ [.inl (.internal e)]) = submitted r h := by
      rw [submitted_append]
      cases e with
      | sendPayload payload reliable => exact absurd rfl (hsubmits payload reliable)
      | _ => exact List.append_nil _
    exact hI.event hnone rfl rfl fun hwait => ⟨hwait, fun h' => hne (Event.internal.inj h')⟩

theorem ackRule (hI : QueueInvariant s h) (f : HdlcFrame) (o : List Effect) {h₀ : History}
    (ho : h = h₀ ++ o.map .inr) : AckRule f (recorded QueueInvariant h₀) s o where
  pop front rest peerStoppedFlow _ hwait _ hq := by
    rw [recorded_concat, ← ho]
    obtain ⟨g, hg, hhead⟩ := hI.outstanding hwait
    have hpayload : g.payload = front := by
      rw [hq] at hhead
      exact (Option.some.inj hhead).symm
    refine ⟨?_, ?_, fun h' => absurd h' Bool.false_ne_true, hI.inTurn.concat ⟨g, hg, hpayload⟩⟩
    · rw [removed_pop, submitted_effect, ← hI.reliable, hq, List.append_assoc]
      rfl
    · rw [transmittedUI_pop, submitted_effect, hI.unreliable]
  pass waitForAck peerStoppedFlow hpassed := by
    show QueueInvariant _ (h₀ ++ o.map .inr)
    rw [← ho]
    exact ⟨hI.reliable, hI.unreliable, fun hw => hI.outstanding (hpassed.waiting hw).1, hI.inTurn⟩

theorem handle (hI : QueueInvariant s h) (e : Event) :
    (handle e).wp (recorded QueueInvariant (h ++ [.inl e])) s [] := by
  have hstable := stable.recorded (h ++ [.inl e])
  have hsteady := hstable.toSteady
  cases e with
  | internal e =>
    apply hstable.handleLocal
    rw [recorded_nil]
    exact hI.prologue e
  | frame buffer messageInvalid =>
    refine hstable.interpretDeserializedFrame hsteady hsteady (fun _ _ _ h' => h') ?_ ?_ ?_
    · intro _ s o h'
      unfold afterPayload
      split_ifs
      · exact ⟨h'.reliable, h'.unreliable, h'.outstanding, h'.inTurn⟩
      · exact h'
    · exact fun _ s o h' => QueueInvariant.ackRule h' _ o rfl
    · rw [recorded_nil]
      exact hI.event (by simp [submitted_frame]) rfl rfl fun hwait => ⟨hwait, Event.noConfusion⟩

theorem history (es : List Event) :
    ∃ s, QueueInvariant s (ProtocolState.history es) :=
  ⟨_, history_invariant ProtocolState.handle (h := []) (C := fun _ _ => True)
    (fun _ _ e _ hI => hI.handle e) initial (along_of_forall _ (fun _ _ _ => trivial) _)⟩

end QueueInvariant

theorem queue_discipline (es : List Event) :
    removed (history es) <+: submitted true (history es) ∧
    (∀ pre f buffer post, history es = pre ++ .inr (.transmitHDLCFrame f buffer) :: post →
      f.isIFrame = true →
      (submitted true (history es))[(removed pre).length]? = some f.payload) ∧
    (∀ pre payload post, history es = pre ++ .inr (.popFrontReliable payload) :: post →
      ∃ f ∈ iFrames (sinceStart pre), f.payload = payload) ∧
    transmittedUI (history es) <+: submitted false (history es) := by
  obtain ⟨s, hI⟩ := QueueInvariant.history es
  refine ⟨⟨_, hI.reliable⟩, ?_, fun pre payload post h => hI.inTurn pre _ post h, ⟨_, hI.unreliable⟩⟩
  intro pre f buffer post h hf
  have hdue := (hI.inTurn pre _ post h).1 hf
  rw [h, submitted_append, List.getElem?_append_left (List.getElem?_eq_some_iff.mp hdue).1]
  exact hdue

end Hdlcd.ProtocolState
