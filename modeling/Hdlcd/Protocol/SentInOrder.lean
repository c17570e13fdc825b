import Hdlcd.Library.Replay
import Hdlcd.Protocol.QueueDiscipline
import Hdlcd.Protocol.UserData

/-! The user data of the frames that are sent, against what was submitted: the I-frames
run through the reliable payloads in order and repeat one only in succession. -/

namespace Hdlcd.ProtocolState
open Reactive Action FrameGenerator FrameParser Framing Replay

section
variable {s : ProtocolState} {h : History}

theorem removed_append (h h' : History) : removed (h ++ h') = removed h ++ removed h' :=
  List.filterMap_append

theorem transmitted_append (h h' : History) :
    transmitted (h ++ h') = transmitted h ++ transmitted h' := List.filterMap_append

theorem QueueInvariant.replays_concat (hI : QueueInvariant s h) {pre post : History}
    {x : Event ⊕ Effect} (hsplit : h = pre ++ x :: post)
    (ih : Replays ((removed pre).length + 1) ((iFrames pre).map (·.payload)) (submitted true h)) :
    Replays ((removed (pre ++ [x])).length + 1) ((iFrames (pre ++ [x])).map (·.payload))
      (submitted true h) := by
  have hkept (hx : iFrames [x] = []) : Replays ((removed (pre ++ [x])).length + 1)
      ((iFrames (pre ++ [x])).map (·.payload)) (submitted true h) := by
    rw [iFrames_append, hx, List.append_nil, removed_append, List.length_append]
    exact ih.mono (Nat.succ_le_succ (Nat.le_add_right _ _))
  rcases x with e | effect
  · exact hkept rfl
  · cases effect with
    | transmitHDLCFrame f buffer =>
      cases hi : f.isIFrame with
      | false => exact hkept (by simp [iFrames, transmitted, hi])
      | true =>
        have hdue := (hI.inTurn pre _ post hsplit).1 hi
        have hall : (submitted true h)[(removed pre).length]? = some f.payload := by
          rw [hsplit, submitted_append,
            List.getElem?_append_left (List.getElem?_eq_some_iff.mp hdue).1]
          exact hdue
        have hsent : iFrames [.inr (.transmitHDLCFrame f buffer)] = [f] := by
          simp [iFrames, transmitted, hi]
        rw [iFrames_append, hsent, List.map_append, removed_transmit]
        exact ih.next hall
    | _ => exact hkept rfl

theorem QueueInvariant.replays (hI : QueueInvariant s h) :
    Replays ((removed h).length + 1) ((iFrames h).map (·.payload)) (submitted true h) := by
  suffices hall : ∀ pre post, h = pre ++ post →
      Replays ((removed pre).length + 1) ((iFrames pre).map (·.payload)) (submitted true h) from
    hall h [] (List.append_nil h).symm
  intro pre
  induction pre using List.reverseRecOn with
  | nil => exact fun _ _ => Replays.nil
  | append_singleton pre x ih =>
    intro post hsplit
    rw [List.append_assoc, List.singleton_append] at hsplit
    exact hI.replays_concat hsplit (ih (x :: post) hsplit)

end

/-- The payloads of one kind. -/
def ofKind (reliable : Bool) (data : List (Payload × Bool)) : List Payload :=
  data.filterMap fun d => if d.2 = reliable then some d.1 else none

theorem ofKind_append (r : Bool) (d d' : List (Payload × Bool)) :
    ofKind r (d ++ d') = ofKind r d ++ ofKind r d' := List.filterMap_append

def userDataOn (f : HdlcFrame) : List (Payload × Bool) :=
  if f.carriesUserData && f.hasPayload then [(f.payload, f.isIFrame)] else []

def sentUserData (h : History) : List (Payload × Bool) := (transmitted h).flatMap userDataOn

theorem payloadTaken_serialized {f : HdlcFrame} {buffer : List UInt8}
    (h : serializeFrame f = some buffer) :
    payloadTaken ⟨buffer, deserializeFrame buffer, false⟩ = userDataOn f := by
  have hi : f.onWire.isIFrame = f.isIFrame := onWire_hdlcFrameType (· == .i) rfl f
  have hpayload : f.onWire.payload = if f.carriesUserData then f.payload else [] := rfl
  rw [payloadTaken, deserializeFrame_serializeFrame h, userDataOn, HdlcFrame.hasPayload,
    HdlcFrame.hasPayload, hi, hpayload]
  cases f.carriesUserData <;> rfl

theorem ofKind_reliable_sublist (h : History) :
    (ofKind true (sentUserData h)).Sublist ((iFrames h).map (·.payload)) := by
  unfold sentUserData iFrames
  induction transmitted h with
  | nil => exact List.Sublist.refl _
  | cons f fs ih =>
    rw [List.flatMap_cons, ofKind_append]
    cases hi : f.isIFrame with
    | true =>
      rw [List.filter_cons_of_pos hi, List.map_cons, ← List.singleton_append]
      apply List.Sublist.append _ ih
      unfold userDataOn
      split_ifs
      · simp [ofKind, hi]
      · exact List.nil_sublist _
    | false =>
      rw [List.filter_cons_of_neg (by simp [hi])]
      have hnone : ofKind true (userDataOn f) = [] := by
        unfold userDataOn
        split_ifs
        · simp [ofKind, hi]
        · rfl
      rw [hnone, List.nil_append]
      exact ih

theorem ofKind_unreliable_sublist (h : History) :
    (ofKind false (sentUserData h)).Sublist (transmittedUI h) := by
  unfold sentUserData transmittedUI
  induction transmitted h with
  | nil => exact List.Sublist.refl _
  | cons f fs ih =>
    rw [List.flatMap_cons, ofKind_append]
    cases hui : f.hdlcFrameType == .uUI with
    | true =>
      rw [List.filter_cons, if_pos hui, List.map_cons, ← List.singleton_append]
      apply List.Sublist.append _ ih
      have hi : f.isIFrame = false := by rw [HdlcFrame.isIFrame, beq_iff_eq.mp hui]; rfl
      unfold userDataOn
      split_ifs
      · simp [ofKind, hi]
      · exact List.nil_sublist _
    | false =>
      rw [List.filter_cons_of_neg (by simp [hui])]
      have hnone : ofKind false (userDataOn f) = [] := by
        unfold userDataOn
        split_ifs with hcarries
        · rw [HdlcFrame.carriesUserData, hui, Bool.or_false, Bool.and_eq_true] at hcarries
          simp [ofKind, hcarries.1]
        · rfl
      rw [hnone, List.nil_append]
      exact ih

section
variable {s : ProtocolState}

theorem userDataReceived_of_mild {o : List Effect}
    (h : ∀ x ∈ o, x = .changeBaudRate ∨ x = .propagateSerialPortState ∨ ∃ f, x = .fault f) :
    userDataReceived o = [] := by
  apply userDataReceived_eq_nil
  intro x hx
  obtain rfl | rfl | ⟨f, rfl⟩ := h x hx <;> rfl

theorem prepareLocal_delivers (e : LocalEvent) (s : ProtocolState) :
    userDataReceived (prepareLocal e s).effects = [] := by
  apply userDataReceived_of_mild
  have hprepared := prepared e s
  generalize prepareLocal e s = p at hprepared ⊢
  intro x hx
  cases hprepared with
  | stop =>
    unfold memberCall at hx
    split_ifs at hx
    · exact .inr (.inl (List.mem_singleton.mp hx))
    · exact .inr (.inr ⟨_, List.mem_singleton.mp hx⟩)
  | stateTimer _ _ _ effects heffects => exact .inr (.inr ⟨_, heffects x hx⟩)
  | probe =>
    unfold prepareProbeTimer at hx
    dsimp only at hx
    split_ifs at hx
    · rcases List.mem_cons.mp hx with rfl | hx
      · exact .inl rfl
      · exact .inr (.inl (List.mem_singleton.mp hx))
    · exact absurd hx List.not_mem_nil
  | _ => exact absurd hx List.not_mem_nil

theorem userDataReceived_handleLocal (e : LocalEvent) (s : ProtocolState) :
    userDataReceived (handleLocal e s).2 = [] := by
  rw [handleLocal_eq, Preparation.finish]
  have hprepared := prepareLocal_delivers e s
  split_ifs
  · rw [userDataReceived_append, hprepared,
      (opportunityForTransmission_handsOver _).userDataReceived, List.append_nil]
  · exact hprepared

theorem userDataReceived_handleFrame (buffer : List UInt8) (messageInvalid : Bool)
    (s : ProtocolState) :
    userDataReceived (handle (.frame buffer messageInvalid) s).2 =
      if s.started && s.serialPortHandler then
        payloadTaken ⟨buffer, deserializeFrame buffer, messageInvalid⟩
      else [] := by
  split_ifs with hattached
  · rw [Bool.and_eq_true] at hattached
    exact userDataReceived_interpret hattached ⟨buffer, deserializeFrame buffer, messageInvalid⟩
  · rw [Bool.and_eq_true, not_and_or, Bool.not_eq_true, Bool.not_eq_true] at hattached
    have hdetached : (!s.started) = true ∨ (!s.serialPortHandler) = true := by
      rcases hattached with hstopped | hnull
      · exact .inl (by rw [hstopped]; rfl)
      · exact .inr (by rw [hnull]; rfl)
    rw [handle_eq, prepare, prepareFrame]
    split_ifs with hstopped hnull hinvalid
    · rfl
    · rfl
    · exact (hdetached.elim hstopped hnull).elim
    · exact (hdetached.elim hstopped hnull).elim

end

end Hdlcd.ProtocolState
