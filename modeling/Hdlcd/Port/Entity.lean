import Hdlcd.Port.Confined
import Hdlcd.Port.Sniffers
import Hdlcd.Protocol.Entity
import Hdlcd.Protocol.SentInOrder

/-! Every run of a port is a run of its protocol state, so that what holds after every run of
the protocol state holds of the port: it sends what was submitted, in order. -/

namespace Hdlcd

/-- What passes between a protocol state and its clients and device, received frames aside. -/
inductive Exchange
  | submitted (payload : Payload) (reliable : Bool)
  | transmitted (f : HdlcFrame)
  deriving DecidableEq, Repr

def Event.isFrame : Event → Bool
  | .frame .. => true
  | .internal _ => false

namespace ProtocolState
open Reactive Action Replay

def exchanges (h : History) : List Exchange :=
  h.filterMap fun
    | .inl (.internal (.sendPayload payload reliable)) => some (.submitted payload reliable)
    | .inr (.transmitHDLCFrame f _) => some (.transmitted f)
    | _ => none

section
variable {h h' : History}

theorem exchanges_append (h h' : History) : exchanges (h ++ h') = exchanges h ++ exchanges h' :=
  List.filterMap_append

theorem exchanges_effects (o : List Effect) :
    exchanges (o.map .inr) = (o.filterMap frameOf).map .transmitted := by
  rw [exchanges, List.filterMap_map, List.map_filterMap]
  refine List.filterMap_congr fun x _ => ?_
  cases x <;> rfl

theorem submitted_exchanges (r : Bool) (h : History) : submitted r h = (exchanges h).filterMap fun
    | .submitted payload reliable => if reliable = r then some payload else none
    | .transmitted _ => none := by
  rw [exchanges, List.filterMap_filterMap, submitted]
  refine List.filterMap_congr fun x _ => ?_
  rcases x with e | x
  · cases e with
    | internal e => cases e <;> rfl
    | frame => rfl
  · cases x <;> rfl

theorem transmitted_exchanges (h : History) : transmitted h = (exchanges h).filterMap fun
    | .transmitted f => some f
    | .submitted .. => none := by
  rw [exchanges, List.filterMap_filterMap, transmitted]
  refine List.filterMap_congr fun x _ => ?_
  rcases x with e | x
  · cases e with
    | internal e => cases e <;> rfl
    | frame => rfl
  · cases x <;> rfl

end
end ProtocolState

namespace Port
open Reactive Action ProtocolState FrameParser Replay

def exchanges (o : List Output) : List Exchange :=
  o.filterMap fun
    | .sendPayload _ p => some (.submitted p.data p.reliable)
    | .transmitHDLCFrame f => some (.transmitted f)
    | _ => none

/-- The payloads of one kind that the clients submitted. -/
def submissions (reliable : Bool) (o : List Output) : List Payload :=
  o.filterMap fun
    | .sendPayload _ p => if p.reliable = reliable then some p.data else none
    | _ => none

def interpreted (s : Port) : Event → List Interpretation
  | .proceed =>
    match s.calls with
    | .addReceivedRawBytes offset (bytes + 1) :: _ =>
      (s.protocolState.frameParser.addChunk (s.readBytes offset (bytes + 1))).2.1
    | _ => []
  | _ => []

def interpretations : Port → List Event → List Interpretation
  | _, [] => []
  | s, e :: es => s.interpreted e ++ interpretations (step e s).1 es

def frameEvent (c : Interpretation) : Hdlcd.Event := .frame c.payload c.messageInvalid

/-- The events `es` of the protocol state lead to the one of the port. -/
structure Account (es : List Hdlcd.Event) (cs : List Interpretation) (s : Port) (o : List Output) : Prop where
  entity : SameEntity (run handle es .initial).1 s.protocolState
  frames : es.filter Event.isFrame = cs.map frameEvent
  exchanged : ProtocolState.exchanges (history es) = exchanges o

def Driven (cs : List Interpretation) : Assertion Port Output := fun s o => ∃ es, Account es cs s o

section
variable {s t : Port} {o o' : List Output} {cs : List Interpretation} {es : List Hdlcd.Event}

theorem exchanges_append (o o' : List Output) : exchanges (o ++ o') = exchanges o ++ exchanges o' :=
  List.filterMap_append

theorem exchanges_incidental {xs : List Output} (hxs : ∀ y ∈ xs, y.Incidental) : exchanges xs = [] := by
  refine List.filterMap_eq_nil_iff.mpr fun y hy => ?_
  have hincidental := hxs y hy
  cases y with
  | transmitHDLCFrame | sendPayload => exact hincidental.elim
  | _ => rfl

theorem exchanges_indirect {xs : List Output} (hxs : ∀ y ∈ xs, y.Indirect) :
    exchanges xs = (framesSent xs).map .transmitted := by
  rw [framesSent, List.map_filterMap]
  refine List.filterMap_congr fun y hy => ?_
  have hindirect := hxs y hy
  cases y with
  | sendPayload => exact hindirect.elim
  | _ => rfl

theorem submissions_exchanges (r : Bool) (o : List Output) : submissions r o = (exchanges o).filterMap fun
    | .submitted payload reliable => if reliable = r then some payload else none
    | .transmitted _ => none := by
  rw [exchanges, List.filterMap_filterMap, submissions]
  refine List.filterMap_congr fun y _ => ?_
  cases y <;> rfl

theorem framesSent_exchanges (o : List Output) : framesSent o = (exchanges o).filterMap fun
    | .transmitted f => some f
    | .submitted .. => none := by
  rw [exchanges, List.filterMap_filterMap, framesSent]
  refine List.filterMap_congr fun y _ => ?_
  cases y <;> rfl

theorem interpreted_chunk {offset bytes : Nat} {calls : List Call}
    (h : s.calls = .addReceivedRawBytes offset (bytes + 1) :: calls) :
    s.interpreted .proceed =
      (s.protocolState.frameParser.addChunk (s.readBytes offset (bytes + 1))).2.1 := by
  unfold interpreted
  rw [h]

theorem step_chunk {offset bytes : Nat} {calls : List Call}
    (h : s.calls = .addReceivedRawBytes offset (bytes + 1) :: calls) :
    step .proceed s = addChunk offset (bytes + 1) { s with calls := calls } := by
  show proceed s = _
  unfold proceed
  rw [h]
  rfl

theorem interpreted_eq_nil {e : Event}
    (h : e = .proceed → ∀ offset bytes calls, s.calls ≠ .addReceivedRawBytes offset (bytes + 1) :: calls) :
    s.interpreted e = [] := by
  unfold interpreted
  split
  · split
    · rename_i offset bytes calls hcalls
      exact absurd hcalls (h rfl offset bytes calls)
    · rfl
  · rfl

namespace Account

theorem congr (h : Account es cs s o) (hps : SameEntity s.protocolState t.protocolState)
    (ho : exchanges o' = exchanges o) : Account es cs t o' :=
  ⟨h.entity.trans hps, h.frames, h.exchanged.trans ho.symm⟩

theorem submitted (h : Account es cs s o) (r : Bool) :
    ProtocolState.submitted r (history es) = submissions r o := by
  rw [submitted_exchanges, h.exchanged, submissions_exchanges]

theorem transmitted (h : Account es cs s o) : ProtocolState.transmitted (history es) = framesSent o := by
  rw [transmitted_exchanges, h.exchanged, framesSent_exchanges]

theorem call (h : Account es cs s o) (e : Hdlcd.Event)
    (ho : exchanges o' = exchanges o ++ ProtocolState.exchanges [.inl e]) {c : List Interpretation}
    (hc : [e].filter Event.isFrame = c.map frameEvent) :
    Account (es ++ [e]) (cs ++ c) (callProtocolState (handle e) s).1 (o' ++ (callProtocolState (handle e) s).2) := by
  obtain ⟨hentity, heffects⟩ := Parserless.handle e _ _ h.entity
  have hdone := callProtocolState_done (handle e) s
  have hps : (callProtocolState (handle e) s).1.protocolState = (handle e s.protocolState).1 :=
    congrArg (·.2.1) hdone.served.same
  refine ⟨?_, ?_, ?_⟩
  · rw [run_append, Action.andThen_apply, run_singleton, hps]
    exact hentity
  · rw [List.filter_append, h.frames, hc, List.map_append]
  · have hframes : framesSent (callProtocolState (handle e) s).2 = (handle e s.protocolState).2.filterMap frameOf :=
      effects_frames _ _
    rw [history, log_concat, ← List.singleton_append (l := List.map _ _), ProtocolState.exchanges_append,
      ProtocolState.exchanges_append, exchanges_effects, heffects, exchanges_append, exchanges_indirect hdone.outputs,
      hframes, ho, ← h.exchanged, history, List.append_assoc]

end Account

theorem Driven.congr (hs : Driven cs s o) (hps : t.protocolState = s.protocolState) : Driven cs t o := by
  obtain ⟨es, h⟩ := hs
  exact ⟨es, h.congr (hps ▸ SameEntity.refl _) rfl⟩

theorem driven_confined (cs : List Interpretation) : Confined (Driven cs) where
  members hs hps _ := hs.congr hps
  incidental hs hxs := by
    obtain ⟨es, h⟩ := hs
    refine ⟨es, h.congr (SameEntity.refl _) ?_⟩
    rw [exchanges_append, exchanges_incidental hxs, List.append_nil]
  event {e} he s o hs := by
    obtain ⟨es, h⟩ := hs
    have hnone : ProtocolState.exchanges [.inl (.internal e)] = [] := by
      cases e with
      | sendPayload => exact he.elim
      | _ => rfl
    have hsilent : exchanges o = exchanges o ++ ProtocolState.exchanges [.inl (.internal e)] := by
      rw [hnone, List.append_nil]
    have hcalled := h.call (.internal e) hsilent (c := []) rfl
    rw [List.append_nil] at hcalled
    exact ⟨_, hcalled⟩
  submit c p := by
    intro s o hs
    obtain ⟨es, h⟩ := hs
    refine wp_andThen.mpr (wp_emit.mpr ?_)
    have hsubmitted : exchanges (o ++ [.sendPayload c p]) =
        exchanges o ++ ProtocolState.exchanges [.inl (.internal (.sendPayload p.data p.reliable))] :=
      exchanges_append _ _
    have hcalled := h.call (.internal (.sendPayload p.data p.reliable)) hsubmitted (c := []) rfl
    rw [List.append_nil] at hcalled
    exact ⟨_, hcalled⟩

theorem Driven.addChunk (hs : Driven cs s o) (offset bytes : Nat) (calls : List Call) :
    (addChunk offset bytes).wp
      (Driven (cs ++ (s.protocolState.frameParser.addChunk (s.readBytes offset bytes)).2.1))
      { s with calls := calls } o := by
  obtain ⟨es, h⟩ := hs
  have hparsed : Account es cs (parsed offset bytes calls s) o := h.congr ⟨_, rfl⟩ rfl
  unfold wp
  rw [addChunk_eq]
  rcases addChunk_calls s.protocolState.frameParser (s.readBytes offset bytes) with hnone | ⟨x, hone⟩
  · rw [hnone, List.append_nil]
    refine ⟨es, ?_⟩
    simpa only [run, Action.skip, List.append_nil] using hparsed
  · have hx := addChunk_call (hone ▸ List.mem_singleton_self x)
    rw [hone, run_singleton, interpret, hx]
    exact ⟨_, hparsed.call (frameEvent x) (List.append_nil _).symm (c := [x]) rfl⟩

theorem Driven.readCompletes (hs : Driven cs s o) (i : Nat) (completion : ReadCompletion) :
    (readCompletes i completion).wp (Driven cs) s o := by
  have hfilled : Maintains (Driven cs) (update (fillReadBuffer completion.bytes)) :=
    .update fun _ _ hs => hs.congr rfl
  have hcompleted : Maintains (Driven cs) (update fun s =>
      { s with serialPort := s.serialPort.readCompletes i completion.result }) :=
    .update fun _ _ hs => hs.congr rfl
  exact ((hfilled.branch .skip).andThen hcompleted) s o hs

theorem Driven.onRead (hs : Driven cs s o) (r : ReadOperation) (bytesRead : Nat) :
    (onRead r (.success bytesRead)).wp (Driven cs) s o := by
  have hpushed (x : Call) : Maintains (Driven cs) (pushCall x) := by
    exact .update fun _ _ hs => hs.congr rfl
  exact ((hpushed (.readHandler r.opening)).andThen
    ((hpushed (.addReceivedRawBytes 0 bytesRead)).branch .skip)) s o hs

theorem Driven.step (hs : Driven cs s o) (e : Event) : (step e).wp (Driven (cs ++ s.interpreted e)) s o := by
  by_cases hchunk : e = .proceed ∧ ∃ offset bytes calls, s.calls = .addReceivedRawBytes offset (bytes + 1) :: calls
  · obtain ⟨rfl, offset, bytes, calls, hcalls⟩ := hchunk
    rw [interpreted_chunk hcalls]
    exact wp_of_eq (step_chunk hcalls) (hs.addChunk offset (bytes + 1) calls)
  · have hnone (he : e = .proceed) (offset bytes : Nat) (calls : List Call) :
        s.calls ≠ .addReceivedRawBytes offset (bytes + 1) :: calls :=
      fun hcalls => hchunk ⟨he, offset, bytes, calls, hcalls⟩
    rw [interpreted_eq_nil hnone, List.append_nil]
    refine (driven_confined cs).step hs (fun i bytes _ _ => hs.readCompletes i _) (fun i r bytesRead _ _ _ _ => ?_)
      fun he offset bytes calls hcalls => absurd hcalls (hnone he offset bytes calls)
    have hremoved : Driven cs { s with serialPort := { s.serialPort with
        reads := s.serialPort.reads.eraseIdx i } } o := hs.congr rfl
    exact hremoved.onRead r bytesRead

theorem Driven.run (hs : Driven cs s o) (es : List Event) :
    Driven (cs ++ interpretations s es) (run Port.step es s).1 (o ++ (run Port.step es s).2) := by
  induction es generalizing s o cs with
  | nil =>
    show Driven (cs ++ []) s (o ++ [])
    rwa [List.append_nil, List.append_nil]
  | cons e es ih =>
    have hrest := ih (hs.step e)
    rwa [List.append_assoc, List.append_assoc] at hrest

theorem driven_run (es : List Event) : Driven (interpretations initial es) (Reactive.run step es initial).1
    (Reactive.run step es initial).2 := by
  have hinitial : Driven [] initial [] := ⟨[], SameEntity.refl _, rfl, rfl⟩
  exact hinitial.run es

/-- Every run of a port is a run of its protocol state, which is passed the payloads that the
clients submit, hands over the frames that the port sends, in the same order, and interprets
what the parser reads. -/
theorem runs_protocolState (es : List Event) : ∃ ps : List Hdlcd.Event,
    SameEntity (Reactive.run handle ps .initial).1 (Reactive.run step es initial).1.protocolState ∧
    ps.filter Event.isFrame = (interpretations initial es).map frameEvent ∧
    ProtocolState.exchanges (history ps) = exchanges (Reactive.run step es initial).2 := by
  obtain ⟨ps, h⟩ := driven_run es
  exact ⟨ps, h.entity, h.frames, h.exchanged⟩

/-- The reliable payloads are sent in the order in which they were submitted, each of them
repeated only in succession, the unreliable ones in order and at most once. -/
theorem sent_in_order (es : List Event) :
    (∃ counts, ((framesSent (Reactive.run step es initial).2).filter (·.isIFrame)).map (·.payload) =
      replay counts (submissions true (Reactive.run step es initial).2)) ∧
    ((framesSent (Reactive.run step es initial).2).filter (·.hdlcFrameType == .uUI)).map (·.payload) <+:
      submissions false (Reactive.run step es initial).2 := by
  obtain ⟨ps, h⟩ := driven_run es
  obtain ⟨t, hqueue⟩ := QueueInvariant.history ps
  rw [← h.submitted, ← h.submitted, ← h.transmitted]
  constructor
  · obtain ⟨counts, -, -, hcounts⟩ := hqueue.replays
    exact ⟨counts, hcounts⟩
  · exact ⟨_, hqueue.unreliable⟩

end
end Port
end Hdlcd
