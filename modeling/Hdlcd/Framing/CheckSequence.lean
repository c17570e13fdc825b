import Hdlcd.Hdlc.FrameParser

/-! What the check sequence is worth: the table computes CRC-16/X.25, and no frame that is
admitted is long enough for two damaged bits to cancel. -/

namespace Hdlcd.Framing
open FrameGenerator FrameParser FCS16 ShiftRegister

theorem reflectedPoly_taps : ∀ k < 16, reflectedPoly.getLsbD (15 - k) = decide (k ∈ [0, 5, 12]) := by
  decide

theorem applyFCS_good (first : UInt8) (m : List UInt8) :
    ∃ low high, applyFCS (first :: m) = first :: (m ++ [low, high]) ∧
      pppfcs16 pppInitFcs16 (m ++ [low, high]) = pppGoodFcs16 := by
  refine ⟨lowByte (pppfcs16 pppInitFcs16 m ^^^ 0xffff),
    highByte (pppfcs16 pppInitFcs16 m ^^^ 0xffff), rfl, ?_⟩
  rw [pppfcs16_append]
  exact pppfcs16_complement _

/-- The table steps the shift register eight bits at a time, and the bytes that are appended
lead to the good check value. -/
theorem pppfcs16_isCrc16X25 :
    (∀ (fcs : UInt16) (message : List UInt8),
      (pppfcs16 fcs message).toBitVec = feed reflectedPoly fcs.toBitVec (message.flatMap bits)) ∧
    (∀ k < 16, reflectedPoly.getLsbD (15 - k) = decide (k ∈ [0, 5, 12])) ∧
    ∀ (first : UInt8) (m : List UInt8), ∃ low high,
      applyFCS (first :: m) = first :: (m ++ [low, high]) ∧
        pppfcs16 pppInitFcs16 (m ++ [low, high]) = pppGoodFcs16 :=
  ⟨pppfcs16_toBitVec, reflectedPoly_taps, applyFCS_good⟩

def betweenFlags (buffer : List UInt8) : List UInt8 := (buffer.drop 1).dropLast

def PassesFcsTest (buffer : List UInt8) : Prop :=
  pppfcs16 pppInitFcs16 (betweenFlags buffer) = pppGoodFcs16

instance (buffer : List UInt8) : Decidable (PassesFcsTest buffer) :=
  inferInstanceAs (Decidable (_ = _))

/-- Which bits were changed, bytes in order and least significant bit first. -/
def damage (buffer received : List UInt8) : List Bool :=
  difference ((betweenFlags buffer).flatMap bits) ((betweenFlags received).flatMap bits)

inductive Guaranteed (changed : List Bool) : Prop
  | few (h : changed.count true ∈ [1, 2, 3])
  | odd (h : changed.count true % 2 = 1)
  | window (first : Nat) (hwindow : ∀ k, changed[k]? = some true → first ≤ k ∧ k < first + 16)
      (hne : true ∈ changed)

theorem flatMap_bits_length (message : List UInt8) :
    (message.flatMap bits).length = 8 * message.length := by
  induction message with
  | nil => rfl
  | cons b message ih =>
    rw [List.flatMap_cons, List.length_append, bits_length, ih, List.length_cons]
    omega

theorem betweenFlags_length (buffer : List UInt8) :
    (betweenFlags buffer).length = buffer.length - 2 := by
  rw [betweenFlags, List.length_dropLast, List.length_drop]
  omega

theorem betweenFlags_bits_length {buffer received : List UInt8}
    (hlen : received.length = buffer.length) :
    ((betweenFlags buffer).flatMap bits).length = ((betweenFlags received).flatMap bits).length := by
  rw [flatMap_bits_length, flatMap_bits_length, betweenFlags_length, betweenFlags_length, hlen]

theorem damage_length {buffer received : List UInt8} (hlen : received.length = buffer.length) :
    (damage buffer received).length = 8 * (buffer.length - 2) := by
  rw [damage, difference_length (betweenFlags_bits_length hlen), flatMap_bits_length,
    betweenFlags_length]

theorem reflectedPoly_staysAway :
    staysAway reflectedPoly reflectedPoly (8 * (maxLength - 2)) reflectedPoly = true := by
  decide +kernel

theorem Guaranteed.leaves_trace {changed : List Bool} (h : Guaranteed changed)
    (hlen : changed.length ≤ 8 * (maxLength - 2)) : feed reflectedPoly 0#16 changed ≠ 0#16 := by
  have hhighest : reflectedPoly.getLsbD (16 - 1) = true := by decide
  have htaps : parity (contents reflectedPoly) = true := by decide
  cases h with
  | few h =>
    rw [List.mem_cons, List.mem_cons, List.mem_singleton] at h
    rcases h with h | h | h
    · exact feed_ne_zero_of_odd _ htaps (by omega)
    · exact feed_ne_zero_of_two hhighest reflectedPoly_staysAway hlen h
    · exact feed_ne_zero_of_odd _ htaps (by omega)
  | odd h => exact feed_ne_zero_of_odd _ htaps h
  | window first hwindow hne => exact feed_ne_zero_of_burst hhighest hwindow hne

/-- What the check sequence guarantees: damage of these kinds never goes unnoticed. -/
theorem damaged_fails {buffer received : List UInt8} (hpass : PassesFcsTest buffer)
    (hlen : received.length = buffer.length) (hmax : buffer.length ≤ maxLength)
    (hdamage : Guaranteed (damage buffer received)) : ¬ PassesFcsTest received := by
  intro hreceived
  have hbits : (damage buffer received).length ≤ 8 * (maxLength - 2) := by
    rw [damage_length hlen]
    omega
  apply hdamage.leaves_trace hbits
  have hsame : (pppfcs16 pppInitFcs16 (betweenFlags buffer)).toBitVec =
      (pppfcs16 pppInitFcs16 (betweenFlags received)).toBitVec :=
    congrArg UInt16.toBitVec (hpass.trans hreceived.symm)
  rw [pppfcs16_toBitVec, pppfcs16_toBitVec] at hsame
  exact (feed_eq_iff_difference _ _ (betweenFlags_bits_length hlen)).mp hsame

/-- An RR frame, and what is left of it after two bits were changed. -/
theorem damaged_fails_readyFrame :
    PassesFcsTest [0x7E, 0x30, 0x11, 0xED, 0xB8, 0x7E] ∧
      ¬ PassesFcsTest [0x7E, 0x30, 0x31, 0xED, 0x38, 0x7E] :=
  have hpass : PassesFcsTest [0x7E, 0x30, 0x11, 0xED, 0xB8, 0x7E] := by decide +kernel
  ⟨hpass, damaged_fails hpass rfl (by decide) (.few (by decide))⟩

theorem removeEscapeCharacters_of_fails {buffer : List UInt8}
    (hfails : ¬ PassesFcsTest (unescapeBuffer buffer).1) :
    (∀ interpretation ∈ (removeEscapeCharacters buffer).2.1, interpretation.messageInvalid = true) ∧
      (removeEscapeCharacters buffer).2.2 = false := by
  have hbad : (pppfcs16 pppInitFcs16 (((unescapeBuffer buffer).1.drop 1).dropLast) != pppGoodFcs16)
      = true := bne_iff_ne.mpr hfails
  unfold removeEscapeCharacters
  by_cases htwo : buffer.length = 2
  · rw [if_pos htwo]
    exact ⟨fun _ hmem => absurd hmem List.not_mem_nil, rfl⟩
  · rw [if_neg htwo]
    dsimp only
    by_cases hlength : (unescapeBuffer buffer).1.length < 6 ∨ (unescapeBuffer buffer).1.length > maxLength
    · rw [if_pos hlength]
      exact ⟨fun _ hmem => absurd hmem List.not_mem_nil, rfl⟩
    · rw [if_neg hlength, hbad, Bool.or_true]
      refine ⟨fun interpretation hmem => ?_, rfl⟩
      rw [List.mem_singleton.mp hmem]

end Hdlcd.Framing
