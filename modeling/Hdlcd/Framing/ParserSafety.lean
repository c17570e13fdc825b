import Mathlib.Data.List.Induction
import Hdlcd.Framing.Delivery

/-! The parser with every access checked. Each index, each step of an iterator, each length
that is subtracted and each assertion of the source is tested here before it is used, and a
failed test ends the call with a fault. On no input is one of these faults met. -/

namespace Hdlcd.Framing
open FrameParser FCS16 Reactive

inductive ParserFault
  | assertion
  | outOfBounds
  | pastTheEnd
  | closingFlagSwallowed
  | endless
  deriving DecidableEq, Repr

abbrev Checked := Except ParserFault

def demand (condition : Prop) [Decidable condition] (fault : ParserFault) : Checked Unit :=
  if condition then .ok () else .error fault

def readAt (buffer : List UInt8) (i : Nat) : Checked UInt8 :=
  match buffer[i]? with
  | some b => .ok b
  | none => .error .outOfBounds

def readRange (buffer : List UInt8) (first count : Nat) : Checked (List UInt8) :=
  if first + count ≤ buffer.length then .ok ((buffer.drop first).take count)
  else .error .outOfBounds

def minus (size n : Nat) : Checked Nat := if n ≤ size then .ok (size - n) else .error .outOfBounds

def resizeToOne : List UInt8 → List UInt8
  | [] => [0]
  | b :: _ => [b]

def deserializeFrameChecked (unescapedBuffer : List UInt8) : Checked HdlcFrame := do
  let address ← readAt unescapedBuffer 1
  let ucCtrl ← readAt unescapedBuffer 2
  let control := deserializeControl ucCtrl
  let payload ←
    if control.2 then do
      let _ ← readAt unescapedBuffer 3
      let count ← minus unescapedBuffer.length 6
      readRange unescapedBuffer 3 count
    else pure []
  pure { control.1 with address := address, payload := payload }

/-- The loop over the escaped bytes; the list is what the iterator still has before it. The
byte behind an escape character is read with no test for the end. -/
def unescapeChecked : List UInt8 → Checked (List UInt8 × Bool)
  | [] => .ok ([], false)
  | [b] => if b = 0x7D then .error .pastTheEnd else .ok ([b], false)
  | b :: c :: rest =>
    if b = 0x7D then do
      demand (rest ≠ []) .closingFlagSwallowed
      let unescaped ← unescapeChecked rest
      if c = 0x5E then pure (0x7E :: unescaped.1, unescaped.2)
      else if c = 0x5D then pure (0x7D :: unescaped.1, unescaped.2)
      else pure (c :: unescaped.1, true)
    else do
      let unescaped ← unescapeChecked (c :: rest)
      pure (b :: unescaped.1, unescaped.2)

def unescapeBufferChecked (buffer : List UInt8) : Checked (List UInt8 × Bool) := do
  let i ← minus buffer.length 2
  let beforeClosing ← readAt buffer i
  if beforeClosing = 0x7D then pure (buffer, true) else unescapeChecked buffer

def checkFCS (unescaped : List UInt8 × Bool) : Checked Bool :=
  if unescaped.2 then pure true
  else do
    let count ← minus unescaped.1.length 2
    let content ← readRange unescaped.1 1 count
    pure (pppfcs16 pppInitFcs16 content != pppGoodFcs16)

def removeEscapeCharactersChecked (p : FrameParser) :
    Checked (List UInt8 × List Interpretation × Bool) := do
  let front ← readAt p.buffer 0
  demand (front = 0x7E) .assertion
  let i ← minus p.buffer.length 1
  let back ← readAt p.buffer i
  demand (back = 0x7E) .assertion
  demand (2 ≤ p.buffer.length) .assertion
  demand (p.startTokenSeen = true) .assertion
  if p.buffer.length = 2 then pure (p.buffer, [], false)
  else do
    let unescaped ← unescapeBufferChecked p.buffer
    if unescaped.1.length < 6 ∨ unescaped.1.length > maxLength then pure (unescaped.1, [], false)
    else do
      let messageInvalid ← checkFCS unescaped
      let hdlcFrame ← deserializeFrameChecked unescaped.1
      pure (unescaped.1, [⟨unescaped.1, hdlcFrame, messageInvalid⟩], !messageInvalid)

def addChunkChecked (p : FrameParser) (bytes : List UInt8) :
    Checked (FrameParser × List Interpretation × Nat) :=
  if p.startTokenSeen = false then
    match bytes.idxOf? 0x7E with
    | some startToken => pure ({ p with startTokenSeen := true }, [], startToken + 1)
    | none => pure (p, [], bytes.length)
  else
    match bytes.idxOf? 0x7E with
    | some endToken =>
      let nbrOfBytes := endToken + 1
      if p.buffer.length + nbrOfBytes ≤ 2 * maxLength then do
        let received ← readRange bytes 0 nbrOfBytes
        let removed ← removeEscapeCharactersChecked { p with buffer := p.buffer ++ received }
        pure ({ buffer := resizeToOne removed.1, startTokenSeen := !removed.2.2 }, removed.2.1,
          nbrOfBytes)
      else pure ({ p with buffer := resizeToOne p.buffer }, [], nbrOfBytes)
    | none =>
      if p.buffer.length + bytes.length > 2 * maxLength then
        pure ({ buffer := resizeToOne p.buffer, startTokenSeen := false }, [], bytes.length)
      else pure ({ p with buffer := p.buffer ++ bytes }, [], bytes.length)

/-- One call of `AddChunk`, as the loop over the offered bytes makes it. -/
structure ChunkCall where
  before : FrameParser
  offered : List UInt8
  after : FrameParser
  delivered : List Interpretation
  consumed : Nat
  deriving DecidableEq, Repr

def addReceivedRawBytesChecked (p : FrameParser) (bytes : List UInt8) :
    Checked (FrameParser × List ChunkCall) :=
  if bytes = [] then pure (p, [])
  else do
    let chunk ← addChunkChecked p bytes
    if _ : 1 ≤ chunk.2.2 ∧ chunk.2.2 ≤ bytes.length then do
      let rest ← addReceivedRawBytesChecked chunk.1 (bytes.drop chunk.2.2)
      pure (rest.1, ⟨p, bytes, chunk.1, chunk.2.1, chunk.2.2⟩ :: rest.2)
    else .error .endless
termination_by bytes.length
decreasing_by
  rw [List.length_drop]
  omega

def addReceivedChunksChecked (p : FrameParser) :
    List (List UInt8) → Checked (FrameParser × List ChunkCall)
  | [] => pure (p, [])
  | chunk :: chunks => do
    let first ← addReceivedRawBytesChecked p chunk
    let rest ← addReceivedChunksChecked first.1 chunks
    pure (rest.1, first.2 ++ rest.2)

@[simp] theorem ok_bind {α β : Type} (a : α) (f : α → Checked β) : (Except.ok a >>= f) = f a := rfl

@[simp] theorem pure_eq_ok {α : Type} (a : α) : (pure a : Checked α) = .ok a := rfl

theorem demand_holds {condition : Prop} [Decidable condition] (h : condition) (fault : ParserFault) :
    demand condition fault = .ok () := if_pos h

theorem readAt_eq {buffer : List UInt8} {i : Nat} {b : UInt8} (h : buffer[i]? = some b) :
    readAt buffer i = .ok b := by rw [readAt, h]

theorem readRange_eq {buffer : List UInt8} {first count : Nat}
    (h : first + count ≤ buffer.length) :
    readRange buffer first count = .ok ((buffer.drop first).take count) := if_pos h

theorem minus_eq {size n : Nat} (h : n ≤ size) : minus size n = .ok (size - n) := if_pos h

theorem resizeToOne_of_head {bytes : List UInt8} {b : UInt8} (h : bytes.take 1 = [b]) :
    resizeToOne bytes = bytes.take 1 := by
  cases bytes with
  | nil => exact absurd h (by simp)
  | cons c bytes => rfl

/-- What is handed to `InterpretDeserializedFrame`. -/
structure Delimited (buffer : List UInt8) : Prop where
  longEnough : 6 ≤ buffer.length
  fits : buffer.length ≤ maxLength
  opens : buffer.head? = some 0x7E
  closes : buffer.getLast? = some 0x7E

theorem exists_four {buffer : List UInt8} (h : 4 ≤ buffer.length) :
    ∃ front address ucCtrl b rest, buffer = front :: address :: ucCtrl :: b :: rest := by
  rcases buffer with _ | ⟨front, _ | ⟨address, _ | ⟨ucCtrl, _ | ⟨b, rest⟩⟩⟩⟩
  · exact absurd h (by simp)
  · exact absurd h (by simp)
  · exact absurd h (by simp)
  · exact absurd h (by simp)
  · exact ⟨front, address, ucCtrl, b, rest, rfl⟩

theorem deserializeFrameChecked_eq {buffer : List UInt8} (h : 6 ≤ buffer.length) :
    deserializeFrameChecked buffer = .ok (deserializeFrame buffer) := by
  obtain ⟨front, address, ucCtrl, b, rest, rfl⟩ := exists_four (Nat.le_of_add_right_le (k := 2) h)
  have hcount : (front :: address :: ucCtrl :: b :: rest).length - 6 = (b :: rest).length - 3 := by
    simp only [List.length_cons]
    omega
  have hrange : 3 + ((b :: rest).length - 3) ≤ (front :: address :: ucCtrl :: b :: rest).length := by
    simp only [List.length_cons]
    omega
  have haddress : readAt (front :: address :: ucCtrl :: b :: rest) 1 = .ok address := readAt_eq rfl
  have hctrl : readAt (front :: address :: ucCtrl :: b :: rest) 2 = .ok ucCtrl := readAt_eq rfl
  have hfirst : readAt (front :: address :: ucCtrl :: b :: rest) 3 = .ok b := readAt_eq rfl
  simp only [deserializeFrameChecked, deserializeFrame, haddress, hctrl, hfirst, minus_eq h,
    readRange_eq hrange, ok_bind, pure_eq_ok, hcount]
  split_ifs <;> rfl

/-- No escape character stands right before the closing flag; another escape character
before that one makes no difference. -/
def ClosedSafely (body : List UInt8) : Prop := body.getLast? ≠ some 0x7D

theorem ClosedSafely.tail {b : UInt8} {body : List UInt8} (h : ClosedSafely (b :: body)) :
    ClosedSafely body := by
  cases body with
  | nil => simp [ClosedSafely]
  | cons c rest => rwa [ClosedSafely, List.getLast?_cons_cons] at h

theorem getLast?_cons_of_some {bytes : List UInt8} {last : UInt8} (h : bytes.getLast? = some last)
    (b : UInt8) : (b :: bytes).getLast? = some last := by
  rw [List.getLast?_cons, h, Option.getD_some]

theorem unescapeChecked_closed {body : List UInt8} (h : ClosedSafely body) :
    unescapeChecked (body ++ [0x7E]) = .ok (unescape (body ++ [0x7E])) ∧
      (unescape (body ++ [0x7E])).1.getLast? = some 0x7E := by
  induction body using List.twoStepInduction with
  | nil => exact ⟨rfl, rfl⟩
  | singleton b =>
    have hb : b ≠ 0x7D := fun hb => h (congrArg some hb)
    constructor
    · simp [unescapeChecked, unescape, hb]
    · simp [unescape, hb]
  | cons_cons b c rest ih ihc =>
    simp only [List.cons_append, unescapeChecked, unescape]
    by_cases hb : b = 0x7D
    · obtain ⟨hrest, hlast⟩ := ih h.tail.tail
      -- the byte behind the escape character is not the closing flag
      have hmore : rest ++ [0x7E] ≠ [] := List.concat_ne_nil _ _
      rw [if_pos hb, if_pos hb, demand_holds hmore, hrest]
      simp only [ok_bind, pure_eq_ok]
      split_ifs
      · exact ⟨rfl, getLast?_cons_of_some hlast _⟩
      · exact ⟨rfl, getLast?_cons_of_some hlast _⟩
      · exact ⟨rfl, getLast?_cons_of_some hlast _⟩
    · obtain ⟨hrest, hlast⟩ := ihc c h.tail
      rw [List.cons_append] at hrest hlast
      rw [if_neg hb, if_neg hb, hrest]
      exact ⟨rfl, getLast?_cons_of_some hlast b⟩

example : unescapeChecked [0x7E, 0x41, 0x7D, 0x7E] = .error .closingFlagSwallowed := rfl

section
variable {body : List UInt8}

/-- The test before the loop looks at the last byte before the closing flag; of an empty frame,
at the start token. -/
theorem beforeClosing (body : List UInt8) :
    (0x7E :: (body ++ [0x7E]))[(0x7E :: (body ++ [0x7E])).length - 2]? =
      some (body.getLast?.getD 0x7E) := by
  induction body using List.reverseRecOn with
  | nil => rfl
  | append_singleton init b _ => simp

theorem unescapeBufferChecked_eq (body : List UInt8) :
    unescapeBufferChecked (0x7E :: (body ++ [0x7E])) = .ok (unescapeBuffer (0x7E :: (body ++ [0x7E]))) ∧
      (unescapeBuffer (0x7E :: (body ++ [0x7E]))).1.head? = some 0x7E ∧
      (unescapeBuffer (0x7E :: (body ++ [0x7E]))).1.getLast? = some 0x7E := by
  have hsize : 2 ≤ (0x7E :: (body ++ [0x7E])).length := by simp
  have hread := readAt_eq (beforeClosing body)
  have hget : (0x7E :: (body ++ [0x7E])).getD ((0x7E :: (body ++ [0x7E])).length - 2) 0 =
      body.getLast?.getD 0x7E := by rw [List.getD_eq_getElem?_getD, beforeClosing, Option.getD_some]
  simp only [unescapeBufferChecked, unescapeBuffer, minus_eq hsize, hread, hget, ok_bind]
  by_cases hlast : body.getLast?.getD 0x7E = 0x7D
  · rw [if_pos hlast, if_pos hlast]
    exact ⟨rfl, rfl, getLast?_cons_of_some List.getLast?_concat 0x7E⟩
  · rw [if_neg hlast, if_neg hlast]
    have hsafe : ClosedSafely (0x7E :: body) := by
      rw [ClosedSafely, List.getLast?_cons]
      exact fun h => hlast (Option.some_inj.mp h)
    obtain ⟨hchecked, hclosing⟩ := unescapeChecked_closed hsafe
    rw [List.cons_append] at hchecked hclosing
    refine ⟨hchecked, ?_, hclosing⟩
    rw [unescape_cons (by decide), List.head?_cons]

theorem checkFCS_eq {unescaped : List UInt8 × Bool} (h : 6 ≤ unescaped.1.length) :
    checkFCS unescaped = .ok (unescaped.2 ||
      pppfcs16 pppInitFcs16 ((unescaped.1.drop 1).dropLast) != pppGoodFcs16) := by
  have hsize : 2 ≤ unescaped.1.length := by omega
  have hrange : 1 + (unescaped.1.length - 2) ≤ unescaped.1.length := by omega
  have hcontent : (unescaped.1.drop 1).take (unescaped.1.length - 2) = (unescaped.1.drop 1).dropLast := by
    rw [List.dropLast_eq_take, List.length_drop, Nat.sub_sub]
  simp only [checkFCS, minus_eq hsize, readRange_eq hrange, hcontent, ok_bind, pure_eq_ok]
  cases unescaped.2 <;> rfl

theorem removeEscapeCharactersChecked_eq {p : FrameParser} (hbuffer : p.buffer = 0x7E :: (body ++ [0x7E]))
    (hseen : p.startTokenSeen = true) :
    removeEscapeCharactersChecked p = .ok (removeEscapeCharacters p.buffer) := by
  have hsize : 2 ≤ (0x7E :: (body ++ [0x7E])).length := by simp
  have hone : 1 ≤ (0x7E :: (body ++ [0x7E])).length := by simp
  have hfront : readAt (0x7E :: (body ++ [0x7E])) 0 = .ok 0x7E := readAt_eq rfl
  have hback : readAt (0x7E :: (body ++ [0x7E])) ((0x7E :: (body ++ [0x7E])).length - 1) = .ok 0x7E :=
    readAt_eq (by simp)
  simp only [removeEscapeCharactersChecked, removeEscapeCharacters, hbuffer, hseen, hfront, hback,
    minus_eq hone, demand_holds hsize, demand_holds, (unescapeBufferChecked_eq body).1, ok_bind, pure_eq_ok]
  by_cases hjunk : (0x7E :: (body ++ [0x7E])).length = 2
  · rw [if_pos hjunk, if_pos hjunk]
  · rw [if_neg hjunk, if_neg hjunk]
    by_cases hlen : (unescapeBuffer (0x7E :: (body ++ [0x7E]))).1.length < 6 ∨
        (unescapeBuffer (0x7E :: (body ++ [0x7E]))).1.length > maxLength
    · rw [if_pos hlen, if_pos hlen]
    · rw [if_neg hlen, if_neg hlen]
      have hlong : 6 ≤ (unescapeBuffer (0x7E :: (body ++ [0x7E]))).1.length := by omega
      rw [checkFCS_eq hlong, ok_bind, deserializeFrameChecked_eq hlong, ok_bind]

theorem removeEscapeCharacters_delimited {c : Interpretation}
    (hc : c ∈ (removeEscapeCharacters (0x7E :: (body ++ [0x7E]))).2.1) : Delimited c.payload := by
  obtain ⟨_, hopens, hcloses⟩ := unescapeBufferChecked_eq body
  unfold removeEscapeCharacters at hc
  dsimp only at hc
  split_ifs at hc with hjunk hlen
  · exact absurd hc List.not_mem_nil
  · exact absurd hc List.not_mem_nil
  · rw [not_or, not_lt, not_lt] at hlen
    rw [List.mem_singleton.mp hc]
    exact ⟨hlen.1, hlen.2, hopens, hcloses⟩

end

/-- What holds of the parser between two calls of `AddChunk`. -/
structure Sound (p : FrameParser) : Prop where
  opens : p.buffer.head? = some 0x7E
  single : (0x7E : UInt8) ∉ p.buffer.tail
  bounded : p.buffer.length ≤ 2 * maxLength
  bare : p.startTokenSeen = false → p.buffer = [0x7E]

theorem sound_phase (ph : Phase) : Sound ph.parser := by
  cases ph with
  | hunting => exact ⟨rfl, List.not_mem_nil, by decide, fun _ => rfl⟩
  | collecting o => exact ⟨rfl, o.noFlag, o.bounded, fun h => Bool.noConfusion h⟩

theorem Sound.exists_phase {p : FrameParser} (h : Sound p) : ∃ ph : Phase, p = ph.parser := by
  obtain ⟨buffer, startTokenSeen⟩ := p
  obtain ⟨body, rfl⟩ := List.head?_eq_some_iff.mp h.opens
  cases startTokenSeen with
  | false =>
    have hbare := h.bare rfl
    exact ⟨.hunting, congrArg (FrameParser.mk · false) hbare⟩
  | true => exact ⟨.collecting ⟨body, h.single, h.bounded⟩, rfl⟩

theorem Sound.addChunk {p : FrameParser} (h : Sound p) (bytes : List UInt8) :
    Sound (p.addChunk bytes).1 := by
  obtain ⟨ph, rfl⟩ := h.exists_phase
  rw [(addChunk_phase ph bytes).1]
  exact sound_phase _

theorem Sound.received {p : FrameParser} (h : Sound p) {bytes : List UInt8} {endToken : Nat}
    (hidx : bytes.idxOf? 0x7E = some endToken) :
    ∃ body, p.buffer ++ bytes.take (endToken + 1) = 0x7E :: (body ++ [0x7E]) := by
  obtain ⟨body, hbuffer⟩ := List.head?_eq_some_iff.mp h.opens
  obtain ⟨pre, post, rfl, rfl, _⟩ := split_at_flag hidx
  refine ⟨body ++ pre, ?_⟩
  rw [take_to_flag, hbuffer, List.cons_append, List.append_assoc]

theorem Sound.addChunkChecked_eq {p : FrameParser} (h : Sound p) (bytes : List UInt8) :
    addChunkChecked p bytes = .ok (p.addChunk bytes) := by
  obtain ⟨body, hbuffer⟩ := List.head?_eq_some_iff.mp h.opens
  have hresize : resizeToOne p.buffer = p.buffer.take 1 := by
    rw [hbuffer]
    rfl
  unfold addChunkChecked FrameParser.addChunk
  by_cases hseen : p.startTokenSeen = false
  · rw [if_pos hseen, if_pos hseen]
    cases bytes.idxOf? 0x7E <;> rfl
  · rw [if_neg hseen, if_neg hseen]
    cases hidx : bytes.idxOf? 0x7E with
    | none =>
      dsimp only
      rw [hresize]
      split_ifs <;> rfl
    | some endToken =>
      dsimp only
      by_cases hfit : p.buffer.length + (endToken + 1) ≤ 2 * maxLength
      · rw [if_pos hfit, if_pos hfit]
        obtain ⟨frame, hframe⟩ := h.received hidx
        have hoffered : 0 + (endToken + 1) ≤ bytes.length := by
          rw [Nat.zero_add]
          exact (List.idxOf?_eq_some_iff.mp hidx).1
        have hremoved := removeEscapeCharactersChecked_eq
          (p := { p with buffer := p.buffer ++ bytes.take (endToken + 1) }) hframe
          (Bool.eq_true_of_not_eq_false hseen)
        have hhead : (removeEscapeCharacters (p.buffer ++ bytes.take (endToken + 1))).1.take 1 = [0x7E] := by
          rw [hframe]
          exact removeEscapeCharacters_head _
        rw [readRange_eq hoffered, ok_bind, List.drop_zero, hremoved, ok_bind, resizeToOne_of_head hhead]
        rfl
      · rw [if_neg hfit, if_neg hfit, hresize]
        rfl

theorem Sound.delivered {p : FrameParser} (h : Sound p) {bytes : List UInt8} {c : Interpretation}
    (hc : c ∈ (p.addChunk bytes).2.1) : Delimited c.payload := by
  unfold FrameParser.addChunk at hc
  cases hidx : bytes.idxOf? 0x7E with
  | none =>
    simp only [hidx] at hc
    split_ifs at hc <;> exact absurd hc List.not_mem_nil
  | some endToken =>
    obtain ⟨frame, hframe⟩ := h.received hidx
    simp only [hidx, hframe] at hc
    split_ifs at hc
    · exact absurd hc List.not_mem_nil
    · exact removeEscapeCharacters_delimited hc
    · exact absurd hc List.not_mem_nil

/-- The postcondition of a call of `AddChunk` on sound members. -/
structure ChunkCall.Safe (c : ChunkCall) : Prop where
  before : Sound c.before
  after : Sound c.after
  consumed : 1 ≤ c.consumed ∧ c.consumed ≤ c.offered.length
  delivered : ∀ i ∈ c.delivered, Delimited i.payload

def deliveredBy (calls : List ChunkCall) : List Interpretation := calls.flatMap (·.delivered)

theorem addReceivedRawBytesChecked_eq {p : FrameParser} (h : Sound p) (bytes : List UInt8) :
    ∃ calls, addReceivedRawBytesChecked p bytes = .ok ((p.addReceivedRawBytes bytes).1, calls) ∧
      (∀ c ∈ calls, c.Safe) ∧ deliveredBy calls = (p.addReceivedRawBytes bytes).2 ∧
      Sound (p.addReceivedRawBytes bytes).1 := by
  fun_induction addReceivedRawBytes p bytes with
  | case1 p => exact ⟨[], by rw [addReceivedRawBytesChecked]; rfl, by simp, rfl, h⟩
  | case2 p bytes hne chunk rest ih =>
    obtain ⟨calls, hrest, hsafe, hdelivered, hsound⟩ := ih (h.addChunk bytes)
    have hconsumed := addChunk_consumed p hne
    refine ⟨⟨p, bytes, chunk.1, chunk.2.1, chunk.2.2⟩ :: calls, ?_, ?_, ?_, hsound⟩
    · rw [addReceivedRawBytesChecked, if_neg hne, h.addChunkChecked_eq, ok_bind, dif_pos hconsumed, hrest]
      rfl
    · intro c hc
      rcases List.mem_cons.mp hc with rfl | hc
      · exact ⟨h, h.addChunk bytes, hconsumed, fun i hi => h.delivered hi⟩
      · exact hsafe c hc
    · rw [deliveredBy, List.flatMap_cons]
      exact congrArg (chunk.2.1 ++ ·) hdelivered

theorem addReceivedChunksChecked_eq {p : FrameParser} (h : Sound p) (chunks : List (List UInt8)) :
    ∃ calls, addReceivedChunksChecked p chunks = .ok ((p.addReceivedChunks chunks).1, calls) ∧
      (∀ c ∈ calls, c.Safe) ∧ deliveredBy calls = (p.addReceivedChunks chunks).2 := by
  induction chunks generalizing p with
  | nil => exact ⟨[], rfl, by simp, rfl⟩
  | cons chunk chunks ih =>
    obtain ⟨first, hfirst, hfirstSafe, hfirstDelivered, hsound⟩ := addReceivedRawBytesChecked_eq h chunk
    obtain ⟨rest, hrest, hrestSafe, hrestDelivered⟩ := ih hsound
    refine ⟨first ++ rest, ?_, ?_, ?_⟩
    · rw [addReceivedChunksChecked, hfirst, ok_bind, hrest]
      rfl
    · intro c hc
      rcases List.mem_append.mp hc with hc | hc
      · exact hfirstSafe c hc
      · exact hrestSafe c hc
    · rw [deliveredBy, List.flatMap_append]
      exact congrArg₂ (· ++ ·) hfirstDelivered hrestDelivered

/-- From its reset on the parser meets no fault, whatever it is offered. Each call of `AddChunk`
consumes something, leaves sound members and hands over delimited frames only. -/
theorem parser_safe (chunks : List (List UInt8)) :
    ∃ calls, addReceivedChunksChecked FrameParser.reset chunks =
        .ok ((FrameParser.reset.addReceivedChunks chunks).1, calls) ∧
      (∀ c ∈ calls, c.Safe) ∧ deliveredBy calls = (FrameParser.reset.addReceivedChunks chunks).2 :=
  addReceivedChunksChecked_eq (sound_phase .hunting) chunks

end Hdlcd.Framing
