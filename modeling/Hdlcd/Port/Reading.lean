import Hdlcd.Framing.Interruptions
import Hdlcd.Port.Entity

/-! What the parser of a port makes of the bytes that are read: it reads them in order, is
reset when the port is opened or closed, and misses what is read in between. -/

namespace Hdlcd

namespace ProtocolState
open Reactive Action FrameParser

def Continues (s : ProtocolState) : Assertion ProtocolState Effect := fun t _ =>
  t.frameParser = FrameParser.reset ∨ t.frameParser = s.frameParser ∧ (t.started = true → s.started = true)

theorem stable_continues (s : ProtocolState) : Stable (Continues s) where
  kept h hk := by
    unfold Continues
    rw [hk.frameParser, hk.started]
    exact h
  quiet h _ := h
  iFrame h _ _ _ _ _ := h
  uiFrame h _ _ := h

theorem handle_continues (e : Event) (s : ProtocolState) : (handle e).wp (Continues s) s [] := by
  have hstable := stable_continues s
  have hsteady := hstable.toSteady
  have hsame : Continues s s [] := .inr ⟨rfl, id⟩
  cases e with
  | internal e =>
    apply hstable.handleLocal
    refine prologue_cases (Q := fun t => Continues s t []) (fun _ _ _ _ _ => .inl rfl) ?_ (fun _ => hsame)
      fun _ _ => hsame
    intro payload reliable _
    cases reliable <;> exact hsame
  | frame buffer messageInvalid =>
    refine hstable.interpretDeserializedFrame hsteady hsteady (fun _ _ _ h => h) ?_ ?_ hsame
    · intro _ t o ht
      unfold afterPayload
      split_ifs <;> exact ht
    · exact fun _ t o ht => ⟨fun _ _ _ _ _ _ _ => ht, fun _ _ _ => ht⟩

end ProtocolState

namespace Port
open Reactive Action ProtocolState FrameParser Framing

def reads (s : Port) : Event → List UInt8
  | .readCompletes i (.success bytes) =>
    if (ReadCompletion.success bytes).valid && s.serialPort.readPending i then bytes else []
  | _ => []

def bytesRead : Port → List Event → List UInt8
  | _, [] => []
  | s, e :: es => s.reads e ++ bytesRead (step e s).1 es

/-- No bytes come in before the parser has read the last ones, which they would overwrite. -/
def Unhurried (s : Port) (e : Event) : Prop := s.reads e = [] ∨ s.unread = [] ∧ s.unhandled = []

instance (s : Port) (e : Event) : Decidable (Unhurried s e) := by
  unfold Unhurried
  infer_instance

def Fed (read : List UInt8) (cs : List Interpretation) : Assertion Port Output := fun s _ =>
  ∃ consumed ph, Interrupted consumed ph cs ∧ consumed ++ (s.unread ++ s.unhandled.flatten) = read ∧
    s.unhandled.length ≤ 1 ∧
    (s.protocolState.started = true ∨ s.unread ≠ [] → s.protocolState.frameParser = ph.parser)

section
variable {s t : Port} {o : List Output} {read : List UInt8} {cs : List Interpretation}

theorem unread_queryCalls (s : Port) (xs : List Effect) : (queryCalls xs).flatMap (Call.unread s) = [] := by
  induction xs with
  | nil => rfl
  | cons x xs ih =>
    rw [queryCalls, List.flatMap_append, ih]
    cases x <;> rfl

theorem callProtocolState_input (a : ProtocolState.Act) (s : Port) : (callProtocolState a s).1.input = s.input := by
  have hdone := callProtocolState_done a s
  have hsame := hdone.served.same
  simp only [servedMembers, Prod.mk.injEq] at hsame
  obtain ⟨_, _, _, _, _, _, _, hreads, hbuffer⟩ := hsame
  have hpushed : input { s with calls := queryCalls (a s.protocolState).2 ++ s.calls } = s.input := by
    unfold input unread
    rw [List.flatMap_append]
    exact congrArg (fun x => (x ++ s.unread, s.unhandled)) (unread_queryCalls s _)
  exact (input_of_calls (s := { s with calls := queryCalls (a s.protocolState).2 ++ s.calls })
    hdone.calls hbuffer hreads).trans hpushed

theorem readBytes_fillReadBuffer (bytes : List UInt8) (s : Port) :
    (fillReadBuffer bytes s).readBytes 0 bytes.length = bytes := by
  refine List.ext_getElem (readBytes_length ..) fun k hk hk' => ?_
  simp only [readBytes, fillReadBuffer, List.getElem_map, List.getElem_range', List.getD_eq_getElem?_getD]
  rw [Nat.zero_add, Nat.one_mul, List.getElem?_eq_getElem hk', Option.getD_some]

theorem unread_eq_nil (hcalls : t.calls = s.calls) (hs : s.unread = []) : t.unread = [] := by
  unfold unread at hs ⊢
  rw [hcalls, List.flatMap_eq_nil_iff]
  rw [List.flatMap_eq_nil_iff] at hs
  intro x hx
  have hnone := hs x hx
  cases x with
  | addReceivedRawBytes offset bytes =>
    have hzero := congrArg List.length hnone
    rw [Call.unread, readBytes_length] at hzero
    rw [hzero]
    rfl
  | _ => rfl

theorem bytesFound_eq_none {r : ReadOperation} (hr : s.bytesFound r = none) : t.bytesFound r = none := by
  unfold bytesFound at hr ⊢
  split at hr
  · exact absurd hr (Option.some_ne_none _)
  · rfl

theorem unhandled_completes {i : Nat} {bytes : List UInt8} (hpending : s.serialPort.readPending i = true)
    (hnone : s.unhandled = []) : unhandled { fillReadBuffer bytes s with
      serialPort := s.serialPort.readCompletes i (.success bytes.length) } = [bytes] := by
  obtain ⟨r, hr, hpending⟩ := (Option.any_eq_true ..).mp hpending
  obtain ⟨hi, rfl⟩ := List.getElem?_eq_some_iff.mp hr
  let t : Port := { fillReadBuffer bytes s with
    serialPort := s.serialPort.readCompletes i (.success bytes.length) }
  have hothers {rs : List ReadOperation} (hrs : rs ⊆ s.serialPort.reads) : rs.filterMap t.bytesFound = [] :=
    List.filterMap_eq_nil_iff.mpr fun r hr =>
      bytesFound_eq_none (List.filterMap_eq_nil_iff.mp hnone r (hrs hr))
  have hfound : t.bytesFound (s.serialPort.reads[i].complete (.success bytes.length)) = some bytes := by
    unfold ReadOperation.complete
    rw [Option.isNone_iff_eq_none.mp hpending]
    exact congrArg some (readBytes_fillReadBuffer bytes s)
  show (s.serialPort.reads.modify i (.complete (.success bytes.length))).filterMap t.bytesFound = [bytes]
  rw [List.modify_eq_take_cons_drop hi, List.filterMap_append, hothers (List.take_subset ..),
    List.filterMap_cons_some hfound, hothers (List.drop_subset ..), List.nil_append]

theorem unhandled_handled {i : Nat} {r : ReadOperation} {bytes : List UInt8}
    (hr : s.serialPort.reads[i]? = some r) (hfound : s.bytesFound r = some bytes) (hone : s.unhandled.length ≤ 1) :
    s.unhandled = [bytes] ∧
      unhandled { s with serialPort := { s.serialPort with reads := s.serialPort.reads.eraseIdx i } } = [] := by
  obtain ⟨hi, rfl⟩ := List.getElem?_eq_some_iff.mp hr
  have hall : s.unhandled = (s.serialPort.reads.take i).filterMap s.bytesFound ++
      bytes :: (s.serialPort.reads.drop (i + 1)).filterMap s.bytesFound := by
    unfold unhandled
    conv_lhs => rw [← List.take_append_drop i s.serialPort.reads, List.drop_eq_getElem_cons hi]
    rw [List.filterMap_append, List.filterMap_cons_some hfound]
  rw [hall, List.length_append, List.length_cons] at hone
  have hnone : ((s.serialPort.reads.take i).filterMap s.bytesFound).length = 0 := by omega
  have hbefore := List.length_eq_zero_iff.mp hnone
  have hbehind := List.length_eq_zero_iff.mp
    (show ((s.serialPort.reads.drop (i + 1)).filterMap s.bytesFound).length = 0 by omega)
  constructor
  · rw [hall, hbefore, hbehind, List.nil_append]
  · show (s.serialPort.reads.eraseIdx i).filterMap s.bytesFound = []
    rw [List.eraseIdx_eq_take_drop_succ, List.filterMap_append, hbefore, hbehind, List.append_nil]

namespace Fed

theorem call (e : Hdlcd.Event) : Maintains (Fed read cs) (callProtocolState (handle e)) := by
  rintro s o ⟨consumed, ph, hread, hall, hone, hparser⟩
  have hps : (callProtocolState (handle e) s).1.protocolState = (handle e s.protocolState).1 :=
    congrArg (·.2.1) (callProtocolState_done (handle e) s).served.same
  obtain ⟨hunread, hunhandled⟩ := Prod.mk.inj (callProtocolState_input (handle e) s)
  rw [← hunread, ← hunhandled] at hall
  rw [← hunhandled] at hone
  rcases handle_continues e s.protocolState with hreset | ⟨hkept, hstarted⟩
  · refine ⟨consumed, .hunting, hread.reset, hall, hone, fun _ => ?_⟩
    rw [hps, hreset]
    rfl
  · refine ⟨consumed, ph, hread, hall, hone, fun hnext => ?_⟩
    rw [hps] at hnext ⊢
    rw [hunread] at hnext
    exact hkept.trans (hparser (hnext.imp_left hstarted))

theorem congr {o' : List Output} (h : Fed read cs s o) (hps : t.protocolState = s.protocolState)
    (hinput : t.input = s.input) : Fed read cs t o' := by
  obtain ⟨hunread, hunhandled⟩ := Prod.mk.inj hinput
  unfold Fed
  rw [hps, hunread, hunhandled]
  exact h

theorem confined (read : List UInt8) (cs : List Interpretation) : Confined (Fed read cs) where
  members hs hps hinput := hs.congr hps hinput
  incidental hs _ := hs
  event _ := call _
  submit c p := by
    have hemitted : Maintains (Fed read cs) (emit [.sendPayload c p]) := .emit fun _ _ hs => hs
    exact hemitted.andThen (call (.internal (.sendPayload p.data p.reliable)))

theorem addChunk (hs : Fed read cs s o) {offset bytes : Nat} {calls : List Call}
    (hcalls : s.calls = .addReceivedRawBytes offset (bytes + 1) :: calls) :
    (addChunk offset (bytes + 1)).wp
      (Fed read (cs ++ (s.protocolState.frameParser.addChunk (s.readBytes offset (bytes + 1))).2.1))
      { s with calls := calls } o := by
  obtain ⟨consumed, ph, hread, hall, hone, hparser⟩ := hs
  have hunread : s.unread = s.readBytes offset (bytes + 1) ++ unread { s with calls := calls } := unread_pop hcalls
  have hphase : s.protocolState.frameParser = ph.parser :=
    hparser (.inr (by rw [hunread]; exact List.append_ne_nil_of_left_ne_nil (readBytes_ne_nil s offset bytes) _))
  obtain ⟨hnext, hcalled⟩ := addChunk_phase ph (s.readBytes offset (bytes + 1))
  have hparsed : Fed read (cs ++ (s.protocolState.frameParser.addChunk (s.readBytes offset (bytes + 1))).2.1)
      (parsed offset (bytes + 1) calls s) o := by
    rw [hphase, hcalled]
    refine ⟨_, _, hread.feeds ((s.readBytes offset (bytes + 1)).take (ph.parser.addChunk _).2.2), ?_, hone, fun _ => ?_⟩
    · have hleft : unread (parsed offset (bytes + 1) calls s) =
          (s.readBytes offset (bytes + 1)).drop (ph.parser.addChunk (s.readBytes offset (bytes + 1))).2.2 ++
            unread { s with calls := calls } := by
        rw [readBytes_drop, ← hphase]
        rfl
      rw [hleft, ← hall, hunread]
      show _ ++ (_ ++ s.unhandled.flatten) = _
      simp only [List.append_assoc]
      rw [← List.append_assoc (List.take _ _), List.take_append_drop]
    · show (s.protocolState.frameParser.addChunk (s.readBytes offset (bytes + 1))).1 = _
      rw [hphase, hnext]
  have hframes : Maintains
      (Fed read (cs ++ (s.protocolState.frameParser.addChunk (s.readBytes offset (bytes + 1))).2.1))
      (run interpret (s.protocolState.frameParser.addChunk (s.readBytes offset (bytes + 1))).2.1) := by
    refine .run fun x hx => ?_
    rw [interpret, addChunk_call hx]
    exact call (.frame x.payload x.messageInvalid)
  unfold wp
  rw [addChunk_eq]
  exact hframes _ _ hparsed

theorem readCompletes (hs : Fed read cs s o) {i : Nat} {bytes : List UInt8}
    (hpending : s.serialPort.readPending i = true) (hunread : s.unread = []) (hunhandled : s.unhandled = []) :
    (readCompletes i (.success bytes)).wp (Fed (read ++ bytes) cs) s o := by
  obtain ⟨consumed, ph, hread, hall, -, hparser⟩ := hs
  refine wp_andThen.mpr (wp_branch (fun _ => wp_update.mpr (wp_update.mpr ?_)) fun h =>
    absurd (hpending.symm.trans h) Bool.noConfusion)
  have hstill : unread { fillReadBuffer bytes s with
      serialPort := s.serialPort.readCompletes i (.success bytes.length) } = [] :=
    unread_eq_nil (s := s) rfl hunread
  refine ⟨consumed, ph, hread, ?_, ?_, fun hnext => hparser (hnext.imp_right fun hne => absurd hstill hne)⟩
  · refine (congrArg₂ (fun x y => consumed ++ (x ++ List.flatten y)) hstill
      (unhandled_completes hpending hunhandled)).trans ?_
    rw [hunread, hunhandled, List.flatten_nil, List.append_nil, List.append_nil] at hall
    rw [List.flatten_singleton, List.nil_append, hall]
    rfl
  · exact (congrArg List.length (unhandled_completes hpending hunhandled)).le

theorem onRead (hs : Fed read cs s o) (hidle : s.calls = []) {i : Nat} {r : ReadOperation} {bytesRead : Nat}
    (hr : s.serialPort.reads[i]? = some r) (hresult : r.result = some (.success bytesRead)) :
    (onRead r (.success bytesRead)).wp (Fed read cs)
      { s with serialPort := { s.serialPort with reads := s.serialPort.reads.eraseIdx i } } o := by
  obtain ⟨consumed, ph, hread, hall, hone, hparser⟩ := hs
  have hnone : s.unread = [] := by
    unfold unread
    rw [hidle]
    rfl
  have hfound : s.bytesFound r = some (s.readBytes 0 bytesRead) := by
    unfold bytesFound
    rw [hresult]
  obtain ⟨hunhandled, hrest⟩ := unhandled_handled hr hfound hone
  rw [hnone, hunhandled, List.flatten_singleton, List.nil_append] at hall
  refine wp_andThen.mpr (wp_update.mpr (wp_branch (fun hstarted => ?_) fun hstopped => ?_))
  · refine wp_update.mpr ⟨consumed, ph, hread, ?_, ?_, fun _ => hparser (.inl hstarted)⟩
    · refine (congrArg₂ (fun x y => consumed ++ ((s.readBytes 0 bytesRead ++ ([] ++ x)) ++ List.flatten y))
        hnone hrest).trans ?_
      simpa using hall
    · exact (congrArg List.length hrest).le.trans (Nat.zero_le 1)
  · refine wp_skip.mpr ⟨_, .hunting, hread.skip (s.readBytes 0 bytesRead), ?_, ?_, fun hnext => ?_⟩
    · refine (congrArg₂ (fun x y => (consumed ++ s.readBytes 0 bytesRead) ++ (([] ++ x) ++ List.flatten y))
        hnone hrest).trans ?_
      simpa using hall
    · exact (congrArg List.length hrest).le.trans (Nat.zero_le 1)
    · rcases hnext with hstarted | hunread
      · exact absurd (hstopped.symm.trans hstarted) Bool.false_ne_true
      · exact absurd hnone hunread

theorem step_readCompletes (hs : Fed read cs s o) {i : Nat} {completion : ReadCompletion}
    (he : Unhurried s (.readCompletes i completion)) :
    (Port.step (.readCompletes i completion)).wp (Fed (read ++ s.reads (.readCompletes i completion)) cs) s o := by
  by_cases hvalid : completion.valid = true
  · have hstep : Port.step (.readCompletes i completion) = Port.readCompletes i completion := if_pos hvalid
    rw [hstep]
    by_cases hbrings : ∃ bytes, completion = .success bytes ∧ s.serialPort.readPending i = true
    · obtain ⟨bytes, rfl, hpending⟩ := hbrings
      have hreads : s.reads (.readCompletes i (.success bytes)) = bytes := by
        rw [reads, hvalid, hpending, Bool.and_self, if_pos rfl]
      have hne : bytes ≠ [] := by
        rintro rfl
        exact absurd hvalid Bool.false_ne_true
      obtain ⟨hunread, hunhandled⟩ := he.resolve_left (hreads.symm ▸ hne)
      rw [hreads]
      exact hs.readCompletes hpending hunread hunhandled
    · have hreads : s.reads (.readCompletes i completion) = [] := by
        cases completion with
        | error => rfl
        | success bytes => exact if_neg fun h => hbrings ⟨bytes, rfl, (Bool.and_eq_true_iff.mp h).2⟩
      rw [hreads, List.append_nil]
      exact (confined read cs).readCompletes hs fun bytes hbytes hpending => absurd ⟨bytes, hbytes, hpending⟩ hbrings
  · have hreads : s.reads (.readCompletes i completion) = [] := by
      cases completion with
      | error => rfl
      | success bytes => exact if_neg fun h => hvalid (Bool.and_eq_true_iff.mp h).1
    have hstep : Port.step (.readCompletes i completion) = Action.skip := if_neg hvalid
    rw [hreads, List.append_nil, hstep]
    exact wp_skip.mpr hs

theorem step (hs : Fed read cs s o) {e : Event} (he : Unhurried s e) :
    (step e).wp (Fed (read ++ s.reads e) (cs ++ s.interpreted e)) s o := by
  have hplain (hreads : s.reads e = []) (hinterpreted : s.interpreted e = [])
      (hstep : (Port.step e).wp (Fed read cs) s o) :
      (Port.step e).wp (Fed (read ++ s.reads e) (cs ++ s.interpreted e)) s o := by
    rwa [hreads, hinterpreted, List.append_nil, List.append_nil]
  cases e with
  | proceed =>
    by_cases hchunk : ∃ offset bytes calls, s.calls = .addReceivedRawBytes offset (bytes + 1) :: calls
    · obtain ⟨offset, bytes, calls, hcalls⟩ := hchunk
      show (Port.step .proceed).wp (Fed (read ++ []) _) s o
      rw [interpreted_chunk hcalls, List.append_nil]
      exact wp_of_eq (step_chunk hcalls) (hs.addChunk hcalls)
    · have hnone (offset bytes : Nat) (calls : List Call) :
          s.calls ≠ .addReceivedRawBytes offset (bytes + 1) :: calls :=
        fun hcalls => hchunk ⟨offset, bytes, calls, hcalls⟩
      exact hplain rfl (interpreted_eq_nil fun _ => hnone) ((confined read cs).step hs
        (fun _ _ he => Event.noConfusion he) (fun _ _ _ he => Event.noConfusion he)
        fun _ offset bytes calls hcalls => absurd hcalls (hnone offset bytes calls))
  | readCompletes i completion =>
    show (Port.step (.readCompletes i completion)).wp (Fed _ (cs ++ [])) s o
    rw [List.append_nil]
    exact hs.step_readCompletes he
  | readHandler i =>
    refine hplain rfl rfl ((confined read cs).step hs (fun _ _ he => Event.noConfusion he)
      (fun j r bytes he hidle hr hresult => ?_) fun he => Event.noConfusion he)
    obtain rfl := Event.readHandler.inj he
    exact hs.onRead hidle hr hresult
  | _ =>
    refine hplain rfl rfl ((confined read cs).step hs (fun _ _ he => Event.noConfusion he)
      (fun _ _ _ he => Event.noConfusion he) fun he => Event.noConfusion he)

theorem run (hs : Fed read cs s o) {es : List Event} (hes : Along Port.step Unhurried s es) :
    Fed (read ++ bytesRead s es) (cs ++ interpretations s es) (run Port.step es s).1
      (o ++ (run Port.step es s).2) := by
  induction es generalizing s o read cs with
  | nil =>
    show Fed (read ++ []) (cs ++ []) s (o ++ [])
    rwa [List.append_nil, List.append_nil]
  | cons e es ih =>
    have hrest := ih (hs.step hes.1) hes.2
    rwa [List.append_assoc, List.append_assoc] at hrest

theorem initial : Fed [] [] initial [] := ⟨[], .hunting, .start, rfl, Nat.zero_le 1, fun _ => rfl⟩

theorem sublist {buffers : List (List UInt8)} (hs : Fed read cs s o) (hserialized : Serialized buffers)
    (hread : read <+: escapedStream buffers) : cs.Sublist (buffers.map validCall) := by
  obtain ⟨consumed, ph, hinterrupted, hall, -, -⟩ := hs
  have hconsumed : consumed <+: read := ⟨_, hall⟩
  exact (hinterrupted.located hserialized (hconsumed.trans hread)).sublist

end Fed

/-- If a port reads a stream of transmitted frames, however it is cut into reads, its parser
calls for some of these frames, in order, also when the port is closed and opened meanwhile,
unless bytes in the read buffer are overwritten. -/
theorem interpretations_in_order {buffers : List (List UInt8)} (hserialized : Serialized buffers) {es : List Event}
    (hunhurried : Along step Unhurried initial es) (hread : bytesRead initial es <+: escapedStream buffers) :
    (interpretations initial es).Sublist (buffers.map validCall) :=
  (Fed.initial.run hunhurried).sublist hserialized hread

end

/-- A client suspends the port after the first three bytes of a probe, and resumes it. -/
def suspendedRead : List Event :=
  [.attach 0 0x00 .opened, .readCompletes 0 (.success [0x7E, 0x30, 0xE3]), .readHandler 0,
    .proceed, .proceed, .proceed, .proceed,
    .receive 0 (.portStatus true) .opened, .receive 0 (.portStatus false) .opened,
    .readCompletes 1 (.success [0x70, 0x6C, 0x7E, 0x7E, 0x30, 0x00, 0x41, 0xEF, 0x13, 0x7E]), .readHandler 1,
    .proceed, .proceed, .proceed]

/-- The probe is lost, and the I-frame behind it is not. -/
theorem interpretations_in_order_suspendedRead :
    (interpretations initial suspendedRead).Sublist
        ([[0x7E, 0x30, 0xE3, 0x70, 0x6C, 0x7E], [0x7E, 0x30, 0x00, 0x41, 0xEF, 0x13, 0x7E]].map validCall) ∧
      interpretations initial suspendedRead = [validCall [0x7E, 0x30, 0x00, 0x41, 0xEF, 0x13, 0x7E]] := by
  have hunhurried : Along step Unhurried initial suspendedRead := by decide +kernel
  refine ⟨interpretations_in_order ?_ hunhurried (by decide +kernel), by decide +kernel⟩
  intro b hb
  simp only [List.mem_cons, List.not_mem_nil, or_false] at hb
  rcases hb with rfl | rfl
  · exact ⟨{ address := 0x30, hdlcFrameType := .uTEST }, by decide +kernel⟩
  · exact ⟨{ address := 0x30, hdlcFrameType := .i, payload := [0x41] }, by decide +kernel⟩

/-- The port is suspended and resumed between a read and its handler: the UI-frame is overwritten by
the I-frame, which is parsed twice. -/
example : interpretations initial
    ([.attach 0 0x00 .opened, .readCompletes 0 (.success [0x7E, 0x30, 0x03, 0x01, 0x83, 0x7B, 0x7E]),
      .receive 0 (.portStatus true) .opened, .receive 0 (.portStatus false) .opened,
      .readCompletes 1 (.success [0x7E, 0x30, 0x00, 0x41, 0xEF, 0x13, 0x7E]), .readHandler 0] ++
      List.replicate 8 .proceed ++ .readHandler 0 :: List.replicate 8 .proceed) =
    [validCall [0x7E, 0x30, 0x00, 0x41, 0xEF, 0x13, 0x7E], validCall [0x7E, 0x30, 0x00, 0x41, 0xEF, 0x13, 0x7E]] := by
  decide +kernel

end Port
end Hdlcd
