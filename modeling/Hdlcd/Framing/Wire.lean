import Hdlcd.Framing.Delivery

/-! The generator and the parser over the wire: the round trip of one frame, the
irrelevance of the chunks, and synchronisation from any state of the parser. -/

namespace Hdlcd.Framing
open FrameGenerator FrameParser Reactive

/-- The frames of the types that survive the wire, with three-bit sequence numbers and
a payload only where one is transmitted. -/
structure Transmissible (f : HdlcFrame) : Prop where
  frameType : f.hdlcFrameType ∈ [FrameType.i, .sRR, .sRNR, .sREJ, .sSREJ, .uUI, .uSABM, .uDISC,
    .uUA, .uTEST]
  sSeq_lt : f.sSeq < 8
  rSeq_lt : f.rSeq < 8
  no_payload : f.isIFrame = false → f.hdlcFrameType ≠ .uUI → f.payload = []

/-- Equal in type, address, PF, payload and the sequence numbers that the type carries. -/
structure SameFrame (f g : HdlcFrame) : Prop where
  frameType : g.hdlcFrameType = f.hdlcFrameType
  address : g.address = f.address
  pf : g.pf = f.pf
  payload : g.payload = f.payload
  sSeq : f.isIFrame = true → g.sSeq = f.sSeq
  rSeq : f.isIFrame = true ∨ f.isSFrame = true → g.rSeq = f.rSeq

theorem Transmissible.serializes {f : HdlcFrame} (h : Transmissible f) :
    ∃ buffer, serializeFrame f = some buffer := by
  have hsome : (controlField f).isSome = true := by
    have ht := h.frameType
    simp only [List.mem_cons, List.not_mem_nil, or_false] at ht
    rcases ht with ht | ht | ht | ht | ht | ht | ht | ht | ht | ht <;>
      simp only [controlField, ht, Option.isSome_some]
  obtain ⟨⟨c, appendPayload⟩, hc⟩ := Option.isSome_iff_exists.mp hsome
  exact ⟨_, serializeFrame_eq hc⟩

theorem Transmissible.payload_onWire {f : HdlcFrame} (h : Transmissible f) :
    f.onWire.payload = f.payload := by
  have hno := h.no_payload
  by_cases hi : f.isIFrame = true
  · simp [HdlcFrame.onWire, hi]
  · by_cases hu : f.hdlcFrameType = .uUI
    · simp [HdlcFrame.onWire, hu]
    · simp [HdlcFrame.onWire, hno (Bool.eq_false_of_not_eq_true hi) hu]

theorem Transmissible.sameFrame {f : HdlcFrame} (h : Transmissible f) : SameFrame f f.onWire where
  frameType := by
    have hne : f.hdlcFrameType ≠ .uCMDR := by
      intro hcmdr
      have ht := h.frameType
      rw [hcmdr] at ht
      exact absurd ht (by decide)
    exact if_neg hne
  address := rfl
  pf := rfl
  payload := h.payload_onWire
  sSeq hi := by
    simp only [HdlcFrame.onWire, hi, if_true]
    exact and_seven_eq_self h.sSeq_lt
  rSeq hi := by
    simp only [HdlcFrame.onWire, Bool.or_eq_true, hi, if_true]
    exact and_seven_eq_self h.rSeq_lt

/-- Escaped, cut into any chunks and parsed, a frame arrives exactly once as it was, or
not at all when its payload is too long. -/
theorem wire_round_trip {f : HdlcFrame} (h : Transmissible f) :
    ∃ buffer, serializeFrame f = some buffer ∧
      ∀ chunks : List (List UInt8), chunks.flatten = escapeFrame buffer →
        (f.payload.length ≤ 1018 → ∃ g, SameFrame f g ∧
          (FrameParser.reset.addReceivedChunks chunks).2 = [⟨buffer, g, false⟩]) ∧
        (1018 < f.payload.length → (FrameParser.reset.addReceivedChunks chunks).2 = []) := by
  obtain ⟨buffer, hbuffer⟩ := h.serializes
  refine ⟨buffer, hbuffer, fun chunks hchunks => ?_⟩
  have hlen : buffer.length = f.payload.length + 6 := by
    rw [serializeFrame_length hbuffer, h.payload_onWire]
  have hcalls : (FrameParser.reset.addReceivedChunks chunks).2 =
      (feed (escapeFrame buffer) .hunting).2 := by
    rw [← parser_hunting, addReceivedChunks_phase, hchunks]
  rw [hcalls, feed_escapeFrame_idle hbuffer idle_hunting]
  constructor
  · intro hshort
    have hfit : buffer.length ≤ maxLength := by
      rw [hlen]
      exact Nat.add_le_add_right hshort 6
    refine ⟨f.onWire, h.sameFrame, ?_⟩
    rw [if_pos hfit, validCall, deserializeFrame_serializeFrame hbuffer]
  · intro hlong
    have hfit : ¬ buffer.length ≤ maxLength := by
      rw [hlen, maxLength]
      omega
    rw [if_neg hfit]

def stuffedFrame : HdlcFrame :=
  { address := 0x30, hdlcFrameType := .i, pf := true, rSeq := 5, sSeq := 3, payload := [0x7E, 0x7D] }

theorem stuffedFrame_round_trip :
    ∃ buffer, serializeFrame stuffedFrame = some buffer ∧
      ∀ chunks : List (List UInt8), chunks.flatten = escapeFrame buffer →
        (stuffedFrame.payload.length ≤ 1018 → ∃ g, SameFrame stuffedFrame g ∧
          (FrameParser.reset.addReceivedChunks chunks).2 = [⟨buffer, g, false⟩]) ∧
        (1018 < stuffedFrame.payload.length →
          (FrameParser.reset.addReceivedChunks chunks).2 = []) :=
  wire_round_trip ⟨by decide, by decide, by decide, by decide⟩

/-- From every reachable state the calls and the final state depend on the bytes alone,
not on how they are cut. -/
theorem chunking_irrelevant {p : FrameParser} (hp : Reachable p) {cut cut' : List (List UInt8)}
    (h : cut.flatten = cut'.flatten) : p.addReceivedChunks cut = p.addReceivedChunks cut' := by
  obtain ⟨ph, rfl⟩ := hp.exists_phase
  rw [addReceivedChunks_phase, addReceivedChunks_phase, h]

theorem chunking_irrelevant_flags :
    FrameParser.reset.addReceivedChunks [[0x00, 0x7E], [0x7E, 0x01]] =
      FrameParser.reset.addReceivedChunks [[0x00], [0x7E, 0x7E, 0x01]] :=
  chunking_irrelevant ⟨[], rfl⟩ (by decide)

structure SentFrame where
  frame : HdlcFrame
  buffer : List UInt8
  serialized : serializeFrame frame = some buffer
  fits : buffer.length ≤ maxLength

def stream (frames : List (Nat × SentFrame)) : List UInt8 :=
  frames.flatMap fun f => List.replicate f.1 0x7E ++ escapeFrame f.2.buffer

theorem feed_stream_idle {ph : Phase} (h : ph.Idle) (frames : List (Nat × SentFrame)) :
    (feed (stream frames) ph).1.Idle ∧
      (feed (stream frames) ph).2 = frames.map fun f => validCall f.2.buffer := by
  induction frames generalizing ph with
  | nil => exact ⟨h, rfl⟩
  | cons f fs ih =>
    have hflags := feed_flags_idle h f.1
    have hframe := feed_escapeFrame_idle f.2.serialized hflags.1
    rw [if_pos f.2.fits] at hframe
    have hrest := ih idle_hunting
    rw [stream, List.flatMap_cons, feed_append, feed_append]
    simp only [Action.andThen_apply, hflags.2, hframe, List.nil_append, List.map_cons]
    exact ⟨hrest.1, congrArg (validCall f.2.buffer :: ·) hrest.2⟩

theorem SentFrame.exists_body (f : SentFrame) : ∃ body : List UInt8,
    escapeFrame f.buffer = 0x7E :: (body.flatMap escapeByte ++ [0x7E]) ∧
      feed (body.flatMap escapeByte ++ [0x7E]) (.collecting .empty) =
        (.hunting, [validCall f.buffer]) := by
  obtain ⟨body, hbuffer, h4, hfcs, hesc⟩ := escapeFrame_serialized f.serialized
  have hfit : body.length + 2 ≤ maxLength := by
    have hsize : (0x7E :: (body ++ [0x7E])).length = body.length + 2 := by simp
    rw [← hsize, ← hbuffer]
    exact f.fits
  refine ⟨body, hesc, ?_⟩
  rw [feed_content h4 hfcs, if_pos hfit, hbuffer]

/-- The first frame after anything: either the pending bytes and the opening flag form a
valid frame, or the first frame itself is delivered. The parser is idle afterwards. -/
theorem feed_first_frame (ph : Phase) (f : SentFrame) :
    (feed (escapeFrame f.buffer) ph).1.Idle ∧
      ((∃ c ∈ (feed [0x7E] ph).2, c.messageInvalid = false) ∨
        (feed (escapeFrame f.buffer) ph).2 = (feed [0x7E] ph).2 ++ [validCall f.buffer]) := by
  obtain ⟨body, hesc, hdelivered⟩ := f.exists_body
  rw [hesc, feed_cons, Action.andThen_apply]
  cases ph with
  | hunting =>
    rw [feed_singleton, feedByte_flag_hunting, hdelivered]
    exact ⟨idle_hunting, .inr rfl⟩
  | collecting o =>
    -- the opening flag closes what is pending
    rw [feed_singleton]
    by_cases hroom : o.body.length + 2 ≤ 2 * maxLength
    · rw [feedByte_flag_fits hroom]
      cases hvalid : (closeFrame o.body).2 with
      | true =>
        rw [afterClose, feed_content_hunting]
        exact ⟨idle_empty, .inl (closeFrame_valid hvalid)⟩
      | false =>
        rw [afterClose, hdelivered]
        exact ⟨idle_hunting, .inr rfl⟩
    · rw [feedByte_flag_full hroom, hdelivered]
      exact ⟨idle_hunting, .inr rfl⟩

/-- From every reachable state, the calls after the first frame of a stream are exactly
one valid call for each further frame; the first frame is delivered too unless what was
pending forms a valid frame with its opening flag. -/
theorem self_synchronisation {p : FrameParser} (hp : Reachable p) (first : SentFrame)
    (rest : List (Nat × SentFrame)) {cut : List (List UInt8)}
    (hcut : cut.flatten = escapeFrame first.buffer ++ stream rest) :
    (p.addReceivedChunks cut).2 = (p.addReceivedRawBytes (escapeFrame first.buffer)).2 ++
        (rest.map fun f => validCall f.2.buffer) ∧
      ((∃ c ∈ (p.addReceivedRawBytes [0x7E]).2, c.messageInvalid = false) ∨
        (p.addReceivedRawBytes (escapeFrame first.buffer)).2 =
          (p.addReceivedRawBytes [0x7E]).2 ++ [validCall first.buffer]) := by
  obtain ⟨ph, rfl⟩ := hp.exists_phase
  have hfirst := feed_first_frame ph first
  rw [addReceivedChunks_phase, hcut]
  simp only [addReceivedRawBytes_phase, feed_append, Action.andThen_apply]
  refine ⟨?_, hfirst.2⟩
  rw [(feed_stream_idle hfirst.1 rest).2]

def testFrame : SentFrame where
  frame := { address := 0x30, hdlcFrameType := .uTEST }
  buffer := [0x7E, 0x30, 0xE3, 0x70, 0x6C, 0x7E]
  serialized := by decide +kernel
  fits := by decide

theorem self_synchronisation_testFrame :
    (FrameParser.reset.addReceivedChunks [escapeFrame testFrame.buffer, stream [(2, testFrame)]]).2 =
        (FrameParser.reset.addReceivedRawBytes (escapeFrame testFrame.buffer)).2 ++
          [validCall testFrame.buffer] ∧
      ((∃ c ∈ (FrameParser.reset.addReceivedRawBytes [0x7E]).2, c.messageInvalid = false) ∨
        (FrameParser.reset.addReceivedRawBytes (escapeFrame testFrame.buffer)).2 =
          (FrameParser.reset.addReceivedRawBytes [0x7E]).2 ++ [validCall testFrame.buffer]) :=
  self_synchronisation ⟨[], rfl⟩ testFrame [(2, testFrame)] (by simp)

/-- Each flag closes a frame and opens the next one. -/
def singleFlagStream (frames : List SentFrame) : List UInt8 :=
  0x7E :: frames.flatMap fun f => (escapeFrame f.buffer).drop 1

def everyOther {α : Type*} : List α → List α
  | [] => []
  | [a] => [a]
  | a :: _ :: rest => a :: everyOther rest

theorem length_everyOther {α : Type*} (as : List α) :
    2 * (everyOther as).length ≤ as.length + 1 := by
  fun_induction everyOther as with
  | case1 => exact Nat.zero_le _
  | case2 => exact le_refl _
  | case3 a b rest ih =>
    simp only [List.length_cons]
    omega

theorem everyOther_of_length_le {α : Type*} {as : List α} (h : as.length ≤ 1) :
    everyOther as = as := by
  match as, h with
  | [], _ => rfl
  | [_], _ => rfl

/-- A valid frame takes its closing flag with it, so the next one has no opening flag and
its own closing flag opens the frame after it. -/
theorem feed_singleFlags (frames : List SentFrame) :
    (feed (frames.flatMap fun f => (escapeFrame f.buffer).drop 1) (.collecting .empty)).2 =
      (everyOther frames).map fun f => validCall f.buffer := by
  fun_induction everyOther frames with
  | case1 => rfl
  | case2 f =>
    obtain ⟨body, hbody, hfeed⟩ := f.exists_body
    rw [List.flatMap_singleton, hbody, List.drop_succ_cons, List.drop_zero, hfeed]
    rfl
  | case3 f g rest ih =>
    obtain ⟨body, hbody, hfeed⟩ := f.exists_body
    obtain ⟨skipped, hskipped, _⟩ := g.exists_body
    rw [List.flatMap_cons, List.flatMap_cons, feed_append, feed_append]
    simp only [Action.andThen_apply, hbody, hskipped, List.drop_succ_cons, List.drop_zero, hfeed,
      feed_content_hunting, ih, List.nil_append, List.singleton_append, List.map_cons]

/-- Frames that share their flags are all delivered exactly when there is at most one. -/
theorem single_flags_iff (frames : List SentFrame) {cut : List (List UInt8)}
    (hcut : cut.flatten = singleFlagStream frames) :
    (FrameParser.reset.addReceivedChunks cut).2 = (frames.map fun f => validCall f.buffer) ↔
      frames.length ≤ 1 := by
  have hcalls : (FrameParser.reset.addReceivedChunks cut).2 =
      (everyOther frames).map fun f => validCall f.buffer := by
    rw [← parser_hunting, addReceivedChunks_phase, hcut, singleFlagStream, feed_cons,
      Action.andThen_apply, feedByte_flag_hunting, feed_singleFlags, List.nil_append]
  rw [hcalls]
  constructor
  · intro h
    have hlen := congrArg List.length h
    rw [List.length_map, List.length_map] at hlen
    have hhalf := length_everyOther frames
    omega
  · intro h
    rw [everyOther_of_length_le h]

theorem single_flags_iff_testFrame :
    (FrameParser.reset.addReceivedChunks [singleFlagStream [testFrame, testFrame]]).2 =
        ([testFrame, testFrame].map fun f => validCall f.buffer) ↔
      [testFrame, testFrame].length ≤ 1 :=
  single_flags_iff [testFrame, testFrame] (by simp)

/-- Of two frames with a common flag the second one is lost. -/
theorem second_of_two_lost :
    (FrameParser.reset.addReceivedChunks
        [[0x7E, 0x30, 0xE3, 0x70, 0x6C, 0x7E, 0x30, 0xE3, 0x70, 0x6C, 0x7E]]).2 ≠
      ([testFrame, testFrame].map fun f => validCall f.buffer) := by
  have hphase := addReceivedChunks_phase .hunting
    [[0x7E, 0x30, 0xE3, 0x70, 0x6C, 0x7E, 0x30, 0xE3, 0x70, 0x6C, 0x7E]]
  have hstream : [[0x7E, 0x30, 0xE3, 0x70, 0x6C, 0x7E, 0x30, 0xE3, 0x70, 0x6C, 0x7E]].flatten =
      0x7E :: [testFrame, testFrame].flatMap fun f => (escapeFrame f.buffer).drop 1 := by decide
  rw [← parser_hunting, hphase, hstream, feed_cons, Action.andThen_apply, feedByte_flag_hunting,
    feed_singleFlags]
  decide

end Hdlcd.Framing
