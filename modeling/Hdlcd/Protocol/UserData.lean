import Hdlcd.Protocol.Ending

/-! What the clients are told about the frames: the copies of a frame that is sent, and
the user data in the frames that are received. -/

namespace Hdlcd.ProtocolState
open Reactive Action FrameGenerator FrameParser

def payloadCopy (f : HdlcFrame) : List Effect :=
  match f.hdlcFrameType with
  | .i => [.deliverIfRequired .payload f.payload true false true]
  | .uUI => [.deliverBufferToClients .payload f.payload false false true]
  | _ => []

def handover (f : HdlcFrame) (buffer : List UInt8) : List Effect :=
  payloadCopy f ++ [.deliverIfRequired .raw buffer f.isIFrame false true,
    .deliverIfRequired .dissected f.dissect f.isIFrame false true, .transmitHDLCFrame f buffer]

def Plain : Effect → Prop
  | .transmitHDLCFrame .. | .deliverIfRequired .. | .deliverBufferToClients .. => False
  | _ => True

/-- A call hands over one frame with its copies, or none. -/
inductive HandsOver : List Effect → Prop
  | none {o : List Effect} (ho : ∀ x ∈ o, Plain x) : HandsOver o
  | frame {f : HdlcFrame} {buffer : List UInt8} (hf : serializeFrame f = some buffer) :
    HandsOver (handover f buffer)

section
variable {s : ProtocolState}

theorem HandsOver.nil : HandsOver [] := .none (by simp)

theorem withSerialPortHandler_handsOver {a : Act} (h : HandsOver (a s).2) :
    HandsOver (withSerialPortHandler a s).2 := by
  unfold withSerialPortHandler branch
  split_ifs
  · exact h
  · exact .none (by simp [emit, Plain])

theorem transmitFrame_handsOver {f : HdlcFrame} (hc : (controlField f).isSome) (s : ProtocolState) :
    HandsOver (payloadCopy f ++ (transmitFrame f s).2) := by
  obtain ⟨buffer, hbuffer⟩ := exists_serializeFrame hc
  rw [transmitFrame_eq hbuffer]
  exact .frame hbuffer

theorem bare_handsOver {f : HdlcFrame} (hc : (controlField f).isSome) (hbare : payloadCopy f = [])
    (s : ProtocolState) : HandsOver (transmitFrame f s).2 := by
  have hframe := transmitFrame_handsOver hc s
  rwa [hbare, List.nil_append] at hframe

theorem queryWaitQueues_handsOver (s : ProtocolState) : HandsOver (queryWaitQueues s).2 := by
  unfold queryWaitQueues
  dsimp only
  split_ifs
  · exact withSerialPortHandler_handsOver (.none (by simp [emit, Plain]))
  · exact .nil

theorem sendUnreliable_handsOver (s : ProtocolState) : HandsOver (sendUnreliable s).2 := by
  unfold sendUnreliable
  split
  · rename_i front rest _
    apply withSerialPortHandler_handsOver
    exact transmitFrame_handsOver (f := prepareUFrameUI front) rfl _
  · exact queryWaitQueues_handsOver s

theorem sendAck_handsOver (s : ProtocolState) : HandsOver (sendAck s).2 := by
  unfold sendAck branch
  dsimp only
  split_ifs
  · exact sendUnreliable_handsOver _
  · unfold sendRR
    dsimp only
    split_ifs
    · apply withSerialPortHandler_handsOver
      exact bare_handsOver rfl rfl _
    · apply withSerialPortHandler_handsOver
      exact bare_handsOver rfl rfl _
  · exact sendUnreliable_handsOver s

theorem sendReliable_handsOver (s : ProtocolState) : HandsOver (sendReliable s).2 := by
  unfold sendReliable
  split
  · rename_i front rest _
    split_ifs
    · apply withSerialPortHandler_handsOver
      exact transmitFrame_handsOver (f := s.prepareIFrame front) rfl _
    · exact sendAck_handsOver s
  · exact sendAck_handsOver s

theorem sendOutstanding_handsOver (s : ProtocolState) : HandsOver (sendOutstanding s).2 := by
  unfold sendOutstanding
  split
  · rename_i front rest _
    apply withSerialPortHandler_handsOver
    exact bare_handsOver rfl rfl _
  · exact sendReliable_handsOver s

theorem opportunityForTransmission_handsOver (s : ProtocolState) :
    HandsOver (opportunityForTransmission s).2 := by
  unfold opportunityForTransmission branch
  dsimp only
  split_ifs
  · exact .nil
  · apply withSerialPortHandler_handsOver
    exact bare_handsOver rfl rfl _
  · exact sendOutstanding_handsOver s
  · exact .nil

end

/-- One call of the parser. -/
def interpret (c : Interpretation) : Act :=
  interpretDeserializedFrame c.payload c.hdlcFrame c.messageInvalid

/-- A buffer of received user data and its reliable flag, as it is delivered while some
client requires it. -/
def receivedUserData : Effect → Option (Payload × Bool)
  | .deliverIfRequired .payload payload reliable _ wasSent
  | .deliverBufferToClients .payload payload reliable _ wasSent =>
    if wasSent then none else some (payload, reliable)
  | _ => none

def userDataReceived (o : List Effect) : List (Payload × Bool) := o.filterMap receivedUserData

/-- The information that the peer sent: the payloads of the valid I-frames and UI-frames. -/
def userDataSent (c : Interpretation) : List (Payload × Bool) :=
  if !c.messageInvalid && (c.hdlcFrame.carriesUserData && c.hdlcFrame.hasPayload) then
    [(c.hdlcFrame.payload, c.hdlcFrame.isIFrame)]
  else []

def payloadTaken (c : Interpretation) : List (Payload × Bool) :=
  if !c.messageInvalid && c.hdlcFrame.hasPayload then [(c.hdlcFrame.payload, c.hdlcFrame.isIFrame)]
  else []

theorem userDataReceived_append (o o' : List Effect) :
    userDataReceived (o ++ o') = userDataReceived o ++ userDataReceived o' := List.filterMap_append

theorem userDataReceived_eq_nil {o : List Effect} (h : ∀ x ∈ o, receivedUserData x = none) :
    userDataReceived o = [] := List.filterMap_eq_nil_iff.mpr h

theorem HandsOver.userDataReceived {o : List Effect} (h : HandsOver o) : userDataReceived o = [] := by
  cases h with
  | none ho =>
    apply userDataReceived_eq_nil
    intro x hx
    have hplain := ho x hx
    cases x with
    | deliverIfRequired | deliverBufferToClients => exact hplain.elim
    | _ => rfl
  | @frame f buffer hf =>
    unfold handover payloadCopy
    cases f.hdlcFrameType <;> rfl

theorem userDataReceived_checkAcks (f : HdlcFrame) (s : ProtocolState) :
    userDataReceived (checkAcks f s).2 = [] := by
  apply userDataReceived_eq_nil
  intro x hx
  have hpop := checkAcks_pops f s x hx
  cases x with
  | popFrontReliable | fault => rfl
  | _ => exact hpop.elim

theorem userDataReceived_interpretValidFrame (f : HdlcFrame) (s : ProtocolState) :
    userDataReceived (interpretValidFrame f s).2 =
      if f.hasPayload then [(f.payload, f.isIFrame)] else [] := by
  have hstate : userDataReceived (frameReceived s).2 = [] := by
    unfold frameReceived
    dsimp only
    split_ifs <;> rfl
  have hpayload (t : ProtocolState) : userDataReceived (receivePayload f t).2 =
      if f.hasPayload then [(f.payload, f.isIFrame)] else [] := by
    unfold receivePayload
    split_ifs <;> rfl
  have hopportunity (t : ProtocolState) : userDataReceived
      (branch (·.awaitsNextHDLCFrame) opportunityForTransmission skip t).2 = [] := by
    unfold branch
    split_ifs
    · exact (opportunityForTransmission_handsOver t).userDataReceived
    · rfl
  simp only [interpretValidFrame, andThen_apply, userDataReceived_append, hstate, hpayload,
    userDataReceived_checkAcks, hopportunity, List.nil_append, List.append_nil]

def StaysAttached : Assertion ProtocolState Effect := fun s _ => Attached s

theorem staysAttached_stable : Stable StaysAttached where
  kept h hk := ⟨hk.started.trans h.1, hk.serialPortHandler.trans h.2⟩
  quiet h _ := h
  iFrame h _ _ _ _ _ := h
  uiFrame h _ _ := h

section
variable {s : ProtocolState}

theorem Attached.afterPayload (h : Attached s) (f : HdlcFrame) : Attached (afterPayload f s) := by
  unfold ProtocolState.afterPayload
  split_ifs <;> exact h

theorem Attached.interpret (h : Attached s) (c : Interpretation) : Attached (interpret c s).1 :=
  staysAttached_stable.interpretDeserializedFrame staysAttached_stable.toSteady
    staysAttached_stable.toSteady (o := []) (fun _ _ _ hs => hs) (fun _ _ _ hs => hs.afterPayload _)
    (fun _ _ _ hs => ⟨fun _ _ _ _ _ _ _ => hs, fun _ _ _ => hs⟩) h

theorem interpret_eq (h : Attached s) (c : Interpretation) :
    ProtocolState.interpret c s =
      ((emit [.deliverIfRequired .raw c.payload false c.messageInvalid false,
          .deliverIfRequired .dissected c.hdlcFrame.dissect false c.messageInvalid false]).andThen
        (if c.messageInvalid then skip else interpretValidFrame c.hdlcFrame)) s := by
  have hstarted : ¬ (!s.started) = true := by rw [h.1]; decide
  exact (if_neg hstarted).trans (if_pos h.2)

theorem userDataReceived_interpret (h : Attached s) (c : Interpretation) :
    userDataReceived (interpret c s).2 = payloadTaken c := by
  have hvalid := userDataReceived_interpretValidFrame c.hdlcFrame s
  rw [interpret_eq h, payloadTaken]
  cases hinvalid : c.messageInvalid with
  | true => rfl
  | false => exact hvalid

theorem userDataReceived_run (h : Attached s) (cs : List Interpretation) :
    userDataReceived (run ProtocolState.interpret cs s).2 = cs.flatMap payloadTaken := by
  induction cs generalizing s with
  | nil => rfl
  | cons c cs ih =>
    rw [run, andThen_apply, userDataReceived_append, userDataReceived_interpret h,
      ih (h.interpret c), List.flatMap_cons]

end

def OnlyUserData (c : Interpretation) : Prop :=
  c.messageInvalid = false → c.hdlcFrame.hasPayload = true → c.hdlcFrame.carriesUserData = true

theorem userDataSent_eq {c : Interpretation} (h : OnlyUserData c) : userDataSent c = payloadTaken c := by
  unfold userDataSent payloadTaken
  cases hinvalid : c.messageInvalid with
  | true => rfl
  | false =>
    cases hpayload : c.hdlcFrame.hasPayload with
    | true => rw [h hinvalid hpayload]; rfl
    | false => rw [Bool.and_false]

theorem userDataSent_length_le (c : Interpretation) :
    (userDataSent c).length ≤ (payloadTaken c).length := by
  by_cases h : OnlyUserData c
  · rw [userDataSent_eq h]
  · simp only [OnlyUserData, Classical.not_imp, Bool.not_eq_true] at h
    rw [userDataSent, h.2.2, Bool.false_and, Bool.and_false]
    exact Nat.zero_le _

theorem onlyUserData_of_length {c : Interpretation}
    (h : (payloadTaken c).length ≤ (userDataSent c).length) : OnlyUserData c := by
  intro hvalid hpayload
  by_contra hother
  rw [Bool.not_eq_true] at hother
  simp [payloadTaken, userDataSent, hvalid, hpayload, hother] at h

theorem flatMap_length_le (cs : List Interpretation) :
    (cs.flatMap userDataSent).length ≤ (cs.flatMap payloadTaken).length := by
  induction cs with
  | nil => exact le_refl _
  | cons c cs ih =>
    rw [List.flatMap_cons, List.flatMap_cons, List.length_append, List.length_append]
    exact Nat.add_le_add (userDataSent_length_le c) ih

theorem flatMap_userDataSent_iff (cs : List Interpretation) :
    cs.flatMap payloadTaken = cs.flatMap userDataSent ↔ ∀ c ∈ cs, OnlyUserData c := by
  constructor
  · intro h
    induction cs with
    | nil => simp
    | cons c cs ih =>
      rw [List.flatMap_cons, List.flatMap_cons] at h
      -- what is taken beyond the user data is not made up for by the other frames
      have hlength := congrArg List.length h
      rw [List.length_append, List.length_append] at hlength
      have hrest := flatMap_length_le cs
      have hc : OnlyUserData c := onlyUserData_of_length (by omega)
      rw [userDataSent_eq hc, List.append_cancel_left_eq] at h
      exact List.forall_mem_cons.mpr ⟨hc, ih h⟩
  · intro h
    exact List.flatMap_congr fun c hc => (userDataSent_eq (h c hc)).symm

/-- What is delivered as received user data is what the peer sent, exactly if no valid frame
of another type has a payload. -/
theorem received_userData_iff {s : ProtocolState} (h : Attached s) (cs : List Interpretation) :
    userDataReceived (run interpret cs s).2 = cs.flatMap userDataSent ↔
      ∀ c ∈ cs, c.messageInvalid = false → c.hdlcFrame.hasPayload = true →
        c.hdlcFrame.isIFrame = true ∨ c.hdlcFrame.hdlcFrameType = .uUI := by
  rw [userDataReceived_run h, flatMap_userDataSent_iff]
  simp only [OnlyUserData, HdlcFrame.carriesUserData, Bool.or_eq_true, beq_iff_eq]

def startedEntity : ProtocolState := (handle (.internal .start) initial).1

/-- The response to a probe, with one byte in its information field. -/
def testResponse : List UInt8 := [0x7E, 0x30, 0xE3, 0x41, 0x1E, 0xD0, 0x7E]

def testCall : Interpretation := ⟨testResponse, deserializeFrame testResponse, false⟩

theorem received_userData_iff_testCall :
    userDataReceived (run interpret [testCall] startedEntity).2 = [testCall].flatMap userDataSent ↔
      ∀ c ∈ [testCall], c.messageInvalid = false → c.hdlcFrame.hasPayload = true →
        c.hdlcFrame.isIFrame = true ∨ c.hdlcFrame.hdlcFrameType = .uUI :=
  received_userData_iff ⟨by decide, by decide⟩ [testCall]

/-- The parser takes the buffer for a valid frame, and its byte is delivered as user data. -/
theorem testCall_delivered :
    (removeEscapeCharacters testResponse).2.1 = [testCall] ∧
      userDataReceived (run interpret [testCall] startedEntity).2 = [([0x41], false)] ∧
      [testCall].flatMap userDataSent = [] := by
  decide +kernel

end Hdlcd.ProtocolState
