import Mathlib.Data.List.Flatten
import Hdlcd.Link.ByteChannel
import Hdlcd.Protocol.SentInOrder

/-! What B hands to its clients against what was submitted at A: whatever is lost, and
however often both sides start and stop, the reliable payloads come in order and are repeated
only in succession, the unreliable ones come in order and at most once. -/

namespace Hdlcd.Link
open Reactive Action FrameGenerator FrameParser Replay
open ProtocolState (QueueInvariant submitted transmitted sentUserData userDataOn ofKind payloadTaken
  receivedUserData userDataReceived)

/-- The payloads passed to `SendPayload(_, reliable)` at A. -/
def submittedByA (reliable : Bool) (h : History) : List Payload :=
  h.filterMap fun
    | .inl (.a (.sendPayload payload r)) => if r = reliable then some payload else none
    | _ => none

/-- The received user data that B delivers, each with its reliable flag. -/
def deliveredByB (h : History) : List (Payload × Bool) :=
  h.filterMap fun
    | .inr (.b effect) => receivedUserData effect
    | _ => none

def carried (channel : List (List UInt8)) : List (Payload × Bool) :=
  channel.flatMap fun buffer => payloadTaken ⟨buffer, deserializeFrame buffer, false⟩

theorem submittedByA_append (r : Bool) (h h' : History) :
    submittedByA r (h ++ h') = submittedByA r h ++ submittedByA r h' := List.filterMap_append

theorem deliveredByB_append (h h' : History) :
    deliveredByB (h ++ h') = deliveredByB h ++ deliveredByB h' := List.filterMap_append

theorem carried_append (c c' : List (List UInt8)) : carried (c ++ c') = carried c ++ carried c' :=
  List.flatMap_append

theorem carried_sublist {c c' : List (List UInt8)} (h : c.Sublist c') :
    (carried c).Sublist (carried c') := h.flatMap _

theorem submittedByA_effects {α : Type*} (r : Bool) (f : α → LinkEffect) (o : List α) :
    submittedByA r (o.map (.inr ∘ f)) = [] := by
  rw [submittedByA, List.filterMap_map]
  exact List.filterMap_eq_nil_iff.mpr fun _ _ => rfl

theorem deliveredByB_effectsA (o : List Effect) : deliveredByB (o.map (.inr ∘ .a)) = [] := by
  rw [deliveredByB, List.filterMap_map]
  exact List.filterMap_eq_nil_iff.mpr fun _ _ => rfl

theorem deliveredByB_effectsB (o : List Effect) :
    deliveredByB (o.map (.inr ∘ .b)) = userDataReceived o := by
  rw [deliveredByB, List.filterMap_map]
  rfl

theorem submitted_effects (r : Bool) (o : List Effect) : submitted r (o.map .inr) = [] := by
  rw [submitted, List.filterMap_map]
  exact List.filterMap_eq_nil_iff.mpr fun _ _ => rfl

theorem carried_buffers {o : List Effect}
    (h : ∀ f buffer, .transmitHDLCFrame f buffer ∈ o → serializeFrame f = some buffer) :
    carried (buffers o) = sentUserData (o.map .inr) := by
  induction o with
  | nil => rfl
  | cons x o ih =>
    have htail := ih fun f buffer hmem => h f buffer (List.mem_cons_of_mem _ hmem)
    cases x with
    | transmitHDLCFrame f buffer =>
      have hread := ProtocolState.payloadTaken_serialized (h f buffer (List.mem_cons_self ..))
      show payloadTaken _ ++ carried (buffers o) = userDataOn f ++ sentUserData (o.map .inr)
      rw [hread, htail]
    | _ => exact htail

def InOrder (l : Link) (h : History) : Prop :=
  ∃ sent : ProtocolState.History, QueueInvariant l.a sent ∧
    (∀ r, submitted r sent = submittedByA r h) ∧
    (deliveredByB h ++ carried l.ab).Sublist (sentUserData sent)

namespace InOrder

variable {l : Link} {h h' : History}

theorem actA (hI : InOrder l h) (hparser : l.a.frameParser = FrameParser.reset) (e : Event)
    (hsubmitted : ∀ r, submittedByA r h' = submittedByA r h ++ submitted r [.inl e])
    (hdelivered : deliveredByB h' = deliveredByB h) :
    (actA (ProtocolState.handle e)).wp (recorded InOrder h') l [] := by
  obtain ⟨sent, hqueue, hsame, hsub⟩ := hI
  have hbuffers : carried (buffers (ProtocolState.handle e l.a).2) =
      sentUserData ((ProtocolState.handle e l.a).2.map .inr) :=
    carried_buffers (ProtocolState.handle_framed hparser e).2
  rw [wp_actA]
  refine ⟨_, hqueue.handle e, fun r => ?_, ?_⟩
  · rw [List.nil_append, ProtocolState.submitted_append, ProtocolState.submitted_append,
      submitted_effects, submittedByA_append, submittedByA_effects, hsubmitted, hsame]
  · show (deliveredByB (h' ++ _) ++ carried (l.ab ++ buffers ([] ++ _))).Sublist _
    rw [List.nil_append, deliveredByB_append, deliveredByB_effectsA, hdelivered, List.append_nil,
      carried_append, hbuffers, ← List.append_assoc]
    have hsent : sentUserData (sent ++ [.inl e] ++ (ProtocolState.handle e l.a).2.map .inr) =
        sentUserData sent ++ sentUserData ((ProtocolState.handle e l.a).2.map .inr) := by
      simp [sentUserData, transmitted]
    rw [hsent]
    exact hsub.append (List.Sublist.refl _)

theorem actB (hI : InOrder l h) (e : Event) {ab : List (List UInt8)}
    {received : List (Payload × Bool)} (hab : carried l.ab = received ++ carried ab)
    (hsubmitted : ∀ r, submittedByA r h' = submittedByA r h)
    (hdelivered : deliveredByB h' = deliveredByB h)
    (hreceived : (userDataReceived (ProtocolState.handle e l.b).2).Sublist received) :
    (actB (ProtocolState.handle e)).wp (recorded InOrder h') { l with ab := ab } [] := by
  obtain ⟨sent, hqueue, hsame, hsub⟩ := hI
  rw [wp_actB]
  refine ⟨sent, hqueue, fun r => ?_, ?_⟩
  · rw [List.nil_append, submittedByA_append, submittedByA_effects, hsubmitted, hsame,
      List.append_nil]
  · rw [List.nil_append, deliveredByB_append, deliveredByB_effectsB, hdelivered, List.append_assoc]
    rw [hab] at hsub
    refine List.Sublist.trans ?_ hsub
    exact (List.Sublist.refl _).append (hreceived.append (List.Sublist.refl _))

theorem lose (hI : InOrder l h) {l' : Link} (hab : l'.ab.Sublist l.ab) (ha : l'.a = l.a) :
    InOrder l' h := by
  obtain ⟨sent, hqueue, hsame, hsub⟩ := hI
  refine ⟨sent, ha ▸ hqueue, hsame, List.Sublist.trans ?_ hsub⟩
  exact (List.Sublist.refl _).append (carried_sublist hab)

theorem setAlive (hI : InOrder l h) (eAliveState : EAliveState) :
    InOrder { l with a := setAlive eAliveState l.a } h := by
  obtain ⟨sent, hqueue, hsame, hsub⟩ := hI
  exact ⟨sent, hqueue.kept (by constructor <;> rfl), hsame, hsub⟩

theorem log (hI : InOrder l h) {x : LinkEvent ⊕ LinkEffect} (hsubmitted : ∀ r, submittedByA r [x] = [])
    (hdelivered : deliveredByB [x] = []) : InOrder l (h ++ [x]) := by
  obtain ⟨sent, hqueue, hsame, hsub⟩ := hI
  refine ⟨sent, hqueue, fun r => ?_, ?_⟩
  · rw [submittedByA_append, hsubmitted, List.append_nil, hsame]
  · rwa [deliveredByB_append, hdelivered, List.append_nil]

theorem deliverToA (hI : InOrder l h) (hparser : l.a.frameParser = FrameParser.reset) :
    deliverToA.wp (recorded InOrder h) l [] := by
  rcases hba : l.ba with _ | ⟨buffer, rest⟩
  · refine wp_of_eq (b := skip) (deliverToA_nil hba) (wp_skip.mpr ?_)
    rwa [recorded_nil]
  refine wp_of_eq (deliverToA_cons hba) ?_
  have hrest : InOrder { l with ba := rest } h := hI.lose (List.Sublist.refl _) rfl
  refine wp_branch (fun _ => ?_) fun _ => wp_skip.mpr ?_
  · rw [wp_andThen, wp_emit, List.nil_append, wp_recorded]
    have hlogged := hrest.log (x := .inr (.receivedByA (deserializeFrame buffer))) (fun _ => rfl) rfl
    refine hlogged.actA hparser (.frame buffer false) (fun r => ?_) rfl
    exact (List.append_nil _).symm
  · rwa [recorded_nil]

theorem deliverToB (hI : InOrder l h) : deliverToB.wp (recorded InOrder h) l [] := by
  rcases hab : l.ab with _ | ⟨buffer, rest⟩
  · refine wp_of_eq (b := skip) (deliverToB_nil hab) (wp_skip.mpr ?_)
    rwa [recorded_nil]
  refine wp_of_eq (deliverToB_cons hab) ?_
  refine wp_branch (fun _ => ?_) fun _ => wp_skip.mpr ?_
  · rw [wp_andThen, wp_emit, List.nil_append, wp_recorded]
    have hlogged := hI.log (x := .inr (.receivedByB (deserializeFrame buffer))) (fun _ => rfl) rfl
    refine hlogged.actB (.frame buffer false) (hab ▸ List.flatMap_cons) (fun _ => rfl) rfl ?_
    rw [ProtocolState.userDataReceived_handleFrame]
    split_ifs
    · exact List.Sublist.refl _
    · exact List.nil_sublist _
  · rw [recorded_nil]
    exact hI.lose (hab ▸ List.sublist_cons_self ..) rfl

theorem handle (hI : InOrder l h) (hframed : Framed l) (e : LinkEvent) :
    (handle e).wp (recorded InOrder (h ++ [.inl e])) l [] := by
  have hunlogged {l' : Link} (hl' : InOrder l' (h ++ [.inl e])) :
      recorded InOrder (h ++ [.inl e]) l' [] := by
    rwa [recorded_nil]
  have hplain (hsubmitted : ∀ r, submittedByA r [.inl e] = []) : InOrder l (h ++ [.inl e]) :=
    hI.log hsubmitted rfl
  cases e with
  | a event =>
    refine hI.actA hframed.parserA (.internal event) (fun r => ?_) ?_
    · rw [submittedByA_append]
      cases event <;> rfl
    · rw [deliveredByB_append]
      exact List.append_nil _
  | b event =>
    refine hI.actB (.internal event) (show carried l.ab = [] ++ carried l.ab from rfl) (fun r => ?_) ?_ ?_
    · rw [submittedByA_append]
      exact List.append_nil _
    · rw [deliveredByB_append]
      exact List.append_nil _
    · exact (ProtocolState.userDataReceived_handleLocal event l.b).symm ▸ List.Sublist.refl _
  | deliverToA => exact (hplain fun _ => rfl).deliverToA hframed.parserA
  | deliverToB => exact (hplain fun _ => rfl).deliverToB
  | dropAB i => exact hunlogged ((hplain fun _ => rfl).lose (List.eraseIdx_sublist ..) rfl)
  | dropBA i => exact hunlogged ((hplain fun _ => rfl).lose (List.Sublist.refl _) rfl)
  | aliveA eAliveState => exact hunlogged ((hplain fun _ => rfl).setAlive eAliveState)
  | aliveB eAliveState => exact hunlogged ((hplain fun _ => rfl).lose (List.Sublist.refl _) rfl)

theorem freshlyStarted : InOrder freshlyStarted [] := by
  refine ⟨_, QueueInvariant.initial.handle (.internal .start), fun r => ?_, ?_⟩
  · rw [List.nil_append, ProtocolState.submitted_append, submitted_effects]
    rfl
  · have hnone : carried Link.freshlyStarted.ab = [] := by decide +kernel
    rw [hnone]
    exact List.nil_sublist _

theorem run (es : List LinkEvent) :
    InOrder (run Link.handle es Link.freshlyStarted).1 (Link.history es) := by
  have hframed : Framed Link.freshlyStarted := Framed.run []
  have halong : Along Link.handle (fun _ _ => True) Link.freshlyStarted es :=
    along_of_forall _ (fun _ _ _ => trivial) _
  have hboth := history_invariant Link.handle (I := fun l h => Framed l ∧ InOrder l h)
    (fun _ _ e _ hI => ⟨hI.1.handle e, hI.2.handle hI.1 e⟩) ⟨hframed, freshlyStarted⟩ halong
  exact hboth.2

end InOrder

/-- No assumption is made about the run: frames may be lost, both sides may start, stop and
lose their aliveness at any point. -/
theorem delivered_in_order (es : List LinkEvent) :
    (∃ counts, ofKind true (deliveredByB (history es)) =
      replay counts (submittedByA true (history es))) ∧
    (ofKind false (deliveredByB (history es))).Sublist (submittedByA false (history es)) := by
  obtain ⟨sent, hqueue, hsame, hsub⟩ := InOrder.run es
  have hdelivered := (List.sublist_append_left _ _).trans hsub
  constructor
  · have hsent := (hdelivered.filterMap _).trans (ProtocolState.ofKind_reliable_sublist sent)
    obtain ⟨counts, -, -, hcounts⟩ := hqueue.replays.sublist hsent
    exact ⟨counts, by rw [← hsame, ← hcounts]; rfl⟩
  · have hsent := (hdelivered.filterMap _).trans (ProtocolState.ofKind_unreliable_sublist sent)
    rw [← hsame, ← hqueue.unreliable]
    exact hsent.trans (List.sublist_append_left _ _)

end Hdlcd.Link
