import Hdlcd.Link.Drain
import Hdlcd.Link.InOrder

/-! Every reliable payload of A is still in its queue or was removed from it, and what was removed
has reached B. So every reliable payload can still reach B while both sides are alive. -/

namespace Hdlcd.Link
open Reactive Action FrameGenerator FrameParser
open ProtocolState (QueueInvariant submitted removed)

def removedByA (h : History) : List Payload :=
  h.filterMap fun
    | .inr (.a (.popFrontReliable payload)) => some payload
    | _ => none

theorem removedByA_append (h h' : History) : removedByA (h ++ h') = removedByA h ++ removedByA h' :=
  List.filterMap_append

theorem removedByA_effectsA (o : List Effect) : removedByA (o.map (.inr ∘ .a)) = removed (o.map .inr) := by
  rw [removedByA, removed, List.filterMap_map, List.filterMap_map]
  congr 1
  funext x
  cases x <;> rfl

theorem removedByA_effectsB (o : List Effect) : removedByA (o.map (.inr ∘ .b)) = [] := by
  rw [removedByA, List.filterMap_map]
  exact List.filterMap_eq_nil_iff.mpr fun _ _ => rfl

theorem mem_removedByA {h : History} {payload : Payload} (hmem : payload ∈ removedByA h) :
    .inr (.a (.popFrontReliable payload)) ∈ h := by
  obtain ⟨x, hx, heq⟩ := List.mem_filterMap.mp hmem
  rcases x with x | (x | _ | _ | _)
  · cases heq
  · cases x with
    | popFrontReliable payload' =>
      cases heq
      exact hx
    | _ => cases heq
  · cases heq
  · cases heq
  · cases heq

def Accounted (l : Link) (h : History) : Prop :=
  ∃ own : ProtocolState.History, QueueInvariant l.a own ∧ submitted true own = submittedByA true h ∧
    removed own = removedByA h

namespace Accounted

variable {l : Link} {h h' : History}

theorem queue (hI : Accounted l h) : removedByA h ++ l.a.waitQueueReliable = submittedByA true h := by
  obtain ⟨own, hqueue, hsubmitted, hremoved⟩ := hI
  rw [← hsubmitted, ← hremoved]
  exact hqueue.reliable

theorem log (hI : Accounted l h) {x : LinkEvent ⊕ LinkEffect} (hsubmitted : submittedByA true [x] = [])
    (hremoved : removedByA [x] = []) : Accounted l (h ++ [x]) := by
  obtain ⟨own, hqueue, hsame, hsame'⟩ := hI
  refine ⟨own, hqueue, ?_, ?_⟩
  · rw [submittedByA_append, hsubmitted, List.append_nil, hsame]
  · rw [removedByA_append, hremoved, List.append_nil, hsame']

theorem actA (hI : Accounted l h) (e : Event)
    (hsubmitted : submittedByA true h' = submittedByA true h ++ submitted true [.inl e])
    (hremoved : removedByA h' = removedByA h) :
    (actA (ProtocolState.handle e)).wp (recorded Accounted h') l [] := by
  obtain ⟨own, hqueue, hsame, hsame'⟩ := hI
  rw [wp_actA]
  refine ⟨_, hqueue.handle e, ?_, ?_⟩
  · rw [List.nil_append, ProtocolState.submitted_append, ProtocolState.submitted_append,
      submitted_effects, submittedByA_append, submittedByA_effects, hsubmitted, hsame]
  · rw [List.nil_append, removedByA_append, removedByA_effectsA, hremoved, ← hsame']
    simp [removed]

theorem actB (hI : Accounted l h) (act : ProtocolState.Act) : (actB act).wp (recorded Accounted h) l [] := by
  obtain ⟨own, hqueue, hsame, hsame'⟩ := hI
  rw [wp_actB]
  refine ⟨own, hqueue, ?_, ?_⟩
  · rw [submittedByA_append, submittedByA_effects, List.append_nil, hsame]
  · rw [removedByA_append, removedByA_effectsB, List.append_nil, hsame']

theorem deliverToA (hI : Accounted l h) : deliverToA.wp (recorded Accounted h) l [] := by
  rcases hba : l.ba with _ | ⟨buffer, rest⟩
  · refine wp_of_eq (b := skip) (deliverToA_nil hba) (wp_skip.mpr ?_)
    rwa [recorded_nil]
  refine wp_of_eq (deliverToA_cons hba) ?_
  refine wp_branch (fun _ => ?_) fun _ => wp_skip.mpr ?_
  · rw [wp_andThen, wp_emit, List.nil_append, wp_recorded]
    have hlogged := hI.log (x := .inr (.receivedByA (deserializeFrame buffer))) rfl rfl
    exact Accounted.actA (l := { l with ba := rest }) hlogged (.frame buffer false) (List.append_nil _).symm rfl
  · rwa [recorded_nil]

theorem deliverToB (hI : Accounted l h) : deliverToB.wp (recorded Accounted h) l [] := by
  rcases hab : l.ab with _ | ⟨buffer, rest⟩
  · refine wp_of_eq (b := skip) (deliverToB_nil hab) (wp_skip.mpr ?_)
    rwa [recorded_nil]
  refine wp_of_eq (deliverToB_cons hab) ?_
  refine wp_branch (fun _ => ?_) fun _ => wp_skip.mpr ?_
  · rw [wp_andThen, wp_emit, List.nil_append, wp_recorded]
    have hlogged := hI.log (x := .inr (.receivedByB (deserializeFrame buffer))) rfl rfl
    exact Accounted.actB (l := { l with ab := rest }) hlogged _
  · rwa [recorded_nil]

theorem handle (hI : Accounted l h) (e : LinkEvent) : (handle e).wp (recorded Accounted (h ++ [.inl e])) l [] := by
  have hunlogged {l' : Link} (hl' : Accounted l' (h ++ [.inl e])) :
      recorded Accounted (h ++ [.inl e]) l' [] := by
    rwa [recorded_nil]
  cases e with
  | a event =>
    refine hI.actA (.internal event) ?_ ?_
    · rw [submittedByA_append]
      cases event <;> rfl
    · rw [removedByA_append]
      exact List.append_nil _
  | b event => exact (hI.log rfl rfl).actB _
  | deliverToA => exact (hI.log rfl rfl).deliverToA
  | deliverToB => exact (hI.log rfl rfl).deliverToB
  | dropAB i => exact hunlogged (hI.log rfl rfl)
  | dropBA i => exact hunlogged (hI.log rfl rfl)
  | aliveA eAliveState =>
    obtain ⟨own, hqueue, hsame⟩ := hI.log (x := .inl (.aliveA eAliveState)) rfl rfl
    exact hunlogged ⟨own, hqueue.kept (by constructor <;> rfl), hsame⟩
  | aliveB eAliveState => exact hunlogged (hI.log rfl rfl)

theorem freshlyStarted : Accounted freshlyStarted [] := by
  refine ⟨_, QueueInvariant.initial.handle (.internal .start), ?_, ?_⟩
  · rw [List.nil_append, ProtocolState.submitted_append, submitted_effects]
    rfl
  · decide +kernel

theorem run (es : List LinkEvent) : Accounted (run Link.handle es Link.freshlyStarted).1 (history es) :=
  history_invariant Link.handle (h := []) (fun _ _ e _ hI => hI.handle e) freshlyStarted
    (along_of_forall Link.handle (fun _ _ _ => trivial) _)

end Accounted

theorem Undisturbed.not_resets {l : Link} {e : LinkEvent} (he : Undisturbed l e) : ¬ Resets e := by
  cases e with
  | a event =>
    cases event with
    | start | stop | shutdown => exact he.elim
    | _ => simp [Resets, ProtocolState.Resets]
  | b event =>
    cases event with
    | start | stop | shutdown => exact he.elim
    | _ => simp [Resets, ProtocolState.Resets]
  | _ => exact id

theorem received_of_removed {es : List LinkEvent} (hes : Along handle (fun _ e => ¬ Resets e) freshlyStarted es)
    {payload : Payload} (hmem : payload ∈ removedByA (history es)) : payload ∈ receivedByB (history es) := by
  obtain ⟨pre, post, hsplit⟩ := List.append_of_mem (mem_removedByA hmem)
  have hreceived := (Invariant.run_steady (removals pre + 1) hes).deliveredFirst pre _ post hsplit
    (Nat.lt_succ_self _)
  rw [hsplit, receivedByB_append]
  exact List.mem_append_left _ hreceived

/-- After any run that leaves both sides alive the queue of A can still be emptied without any
further loss. If nobody was restarted, B has received all of A's reliable payloads by then. -/
theorem drainable (es : List LinkEvent) (hes : ∀ e ∈ es, Genuine e)
    (hA : (run handle es freshlyStarted).1.a.aliveState.isAlive = true)
    (hB : (run handle es freshlyStarted).1.b.aliveState.isAlive = true) :
    ∃ later, Along handle Undisturbed (run handle es freshlyStarted).1 later ∧
      (run handle (es ++ later) freshlyStarted).1.a.waitQueueReliable = [] ∧
      ((∀ e ∈ es, ¬ Resets e) →
        ∀ payload ∈ submittedByA true (history es), payload ∈ receivedByB (history (es ++ later))) := by
  have hconnected : Connected (run handle es freshlyStarted).1 := ⟨.run hes, hA, hB⟩
  obtain ⟨later, hlater, hempty⟩ := hconnected.drains
  have hdrained : (run handle (es ++ later) freshlyStarted).1.a.waitQueueReliable = [] := by
    rw [run_append]
    exact hempty
  refine ⟨later, hlater, hdrained, fun hresets payload hpayload => ?_⟩
  have hqueue := (Accounted.run (es ++ later)).queue
  rw [hdrained, List.append_nil] at hqueue
  have hsteady : Along handle (fun _ e => ¬ Resets e) freshlyStarted (es ++ later) :=
    (along_append handle _ _ es later).mpr
      ⟨along_of_forall handle (fun e he _ => hresets e he) _, hlater.mono handle fun _ _ he => he.not_resets⟩
  refine received_of_removed hsteady ?_
  rw [hqueue, history, log_append, submittedByA_append]
  exact List.mem_append_left _ hpayload

/-- The first I-frame is lost, and a second payload is submitted behind it. -/
def lostFrameRun : List LinkEvent :=
  introduction ++ [.a (.sendPayload [0x41] true), .dropAB 0, .a (.sendPayload [0x42] true)]

theorem drainable_lostFrameRun :
    ∃ later, (run handle (lostFrameRun ++ later) freshlyStarted).1.a.waitQueueReliable = [] ∧
      [0x41] ∈ receivedByB (history (lostFrameRun ++ later)) := by
  obtain ⟨later, _, hempty, hreceived⟩ :=
    drainable lostFrameRun (by decide +kernel) (by decide +kernel) (by decide +kernel)
  exact ⟨later, hempty, hreceived (by decide) [0x41] (by decide +kernel)⟩

end Hdlcd.Link
