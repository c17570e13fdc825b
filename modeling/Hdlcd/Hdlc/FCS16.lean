import Hdlcd.Library.ShiftRegister
import Mathlib.Tactic.IntervalCases

/-! The table-driven frame check sequence of FCS16.cpp. The two bytes a sender
appends are the complement of the check value, low byte first, and drive every
start value to the same residue. -/

namespace Hdlcd.FCS16
open ShiftRegister

def pppInitFcs16 : UInt16 := 0xffff

def pppGoodFcs16 : UInt16 := 0xf0b8

def fcstab : List UInt16 :=
  [0x0000, 0x1189, 0x2312, 0x329b, 0x4624, 0x57ad, 0x6536, 0x74bf,
   0x8c48, 0x9dc1, 0xaf5a, 0xbed3, 0xca6c, 0xdbe5, 0xe97e, 0xf8f7,
   0x1081, 0x0108, 0x3393, 0x221a, 0x56a5, 0x472c, 0x75b7, 0x643e,
   0x9cc9, 0x8d40, 0xbfdb, 0xae52, 0xdaed, 0xcb64, 0xf9ff, 0xe876,
   0x2102, 0x308b, 0x0210, 0x1399, 0x6726, 0x76af, 0x4434, 0x55bd,
   0xad4a, 0xbcc3, 0x8e58, 0x9fd1, 0xeb6e, 0xfae7, 0xc87c, 0xd9f5,
   0x3183, 0x200a, 0x1291, 0x0318, 0x77a7, 0x662e, 0x54b5, 0x453c,
   0xbdcb, 0xac42, 0x9ed9, 0x8f50, 0xfbef, 0xea66, 0xd8fd, 0xc974,
   0x4204, 0x538d, 0x6116, 0x709f, 0x0420, 0x15a9, 0x2732, 0x36bb,
   0xce4c, 0xdfc5, 0xed5e, 0xfcd7, 0x8868, 0x99e1, 0xab7a, 0xbaf3,
   0x5285, 0x430c, 0x7197, 0x601e, 0x14a1, 0x0528, 0x37b3, 0x263a,
   0xdecd, 0xcf44, 0xfddf, 0xec56, 0x98e9, 0x8960, 0xbbfb, 0xaa72,
   0x6306, 0x728f, 0x4014, 0x519d, 0x2522, 0x34ab, 0x0630, 0x17b9,
   0xef4e, 0xfec7, 0xcc5c, 0xddd5, 0xa96a, 0xb8e3, 0x8a78, 0x9bf1,
   0x7387, 0x620e, 0x5095, 0x411c, 0x35a3, 0x242a, 0x16b1, 0x0738,
   0xffcf, 0xee46, 0xdcdd, 0xcd54, 0xb9eb, 0xa862, 0x9af9, 0x8b70,
   0x8408, 0x9581, 0xa71a, 0xb693, 0xc22c, 0xd3a5, 0xe13e, 0xf0b7,
   0x0840, 0x19c9, 0x2b52, 0x3adb, 0x4e64, 0x5fed, 0x6d76, 0x7cff,
   0x9489, 0x8500, 0xb79b, 0xa612, 0xd2ad, 0xc324, 0xf1bf, 0xe036,
   0x18c1, 0x0948, 0x3bd3, 0x2a5a, 0x5ee5, 0x4f6c, 0x7df7, 0x6c7e,
   0xa50a, 0xb483, 0x8618, 0x9791, 0xe32e, 0xf2a7, 0xc03c, 0xd1b5,
   0x2942, 0x38cb, 0x0a50, 0x1bd9, 0x6f66, 0x7eef, 0x4c74, 0x5dfd,
   0xb58b, 0xa402, 0x9699, 0x8710, 0xf3af, 0xe226, 0xd0bd, 0xc134,
   0x39c3, 0x284a, 0x1ad1, 0x0b58, 0x7fe7, 0x6e6e, 0x5cf5, 0x4d7c,
   0xc60c, 0xd785, 0xe51e, 0xf497, 0x8028, 0x91a1, 0xa33a, 0xb2b3,
   0x4a44, 0x5bcd, 0x6956, 0x78df, 0x0c60, 0x1de9, 0x2f72, 0x3efb,
   0xd68d, 0xc704, 0xf59f, 0xe416, 0x90a9, 0x8120, 0xb3bb, 0xa232,
   0x5ac5, 0x4b4c, 0x79d7, 0x685e, 0x1ce1, 0x0d68, 0x3ff3, 0x2e7a,
   0xe70e, 0xf687, 0xc41c, 0xd595, 0xa12a, 0xb0a3, 0x8238, 0x93b1,
   0x6b46, 0x7acf, 0x4854, 0x59dd, 0x2d62, 0x3ceb, 0x0e70, 0x1ff9,
   0xf78f, 0xe606, 0xd49d, 0xc514, 0xb1ab, 0xa022, 0x92b9, 0x8330,
   0x7bc7, 0x6a4e, 0x58d5, 0x495c, 0x3de3, 0x2c6a, 0x1ef1, 0x0f78]

def pppfcs16 (fcs : UInt16) : List UInt8 → UInt16
  | [] => fcs
  | b :: bs => pppfcs16 ((fcs >>> 8) ^^^ fcstab.getD ((fcs ^^^ b.toUInt16) &&& 0xff).toNat 0) bs

theorem pppfcs16_append (fcs : UInt16) (as bs : List UInt8) :
    pppfcs16 fcs (as ++ bs) = pppfcs16 (pppfcs16 fcs as) bs := by
  induction as generalizing fcs with
  | nil => rfl
  | cons a as ih => simpa only [List.cons_append, pppfcs16] using ih _

def lowByte (trialfcs : UInt16) : UInt8 := (trialfcs &&& 0x00ff).toUInt8

def highByte (trialfcs : UInt16) : UInt8 := ((trialfcs >>> 8) &&& 0x00ff).toUInt8

theorem index_lowByte (fcs : UInt16) :
    (fcs ^^^ (lowByte (fcs ^^^ 0xffff)).toUInt16) &&& 0xff = 0xff := by
  apply UInt16.toBitVec_inj.mp
  ext i hi
  unfold lowByte
  interval_cases i <;> simp [-UInt16.toUInt16_toUInt8]

theorem index_highByte (fcs : UInt16) :
    (((fcs >>> 8) ^^^ (0x0f78 : UInt16)) ^^^ (highByte (fcs ^^^ 0xffff)).toUInt16) &&& 0xff
      = 0x87 := by
  apply UInt16.toBitVec_inj.mp
  ext i hi
  unfold highByte
  interval_cases i <;> simp [-UInt16.toUInt16_toUInt8]

theorem residue_of_entries (fcs : UInt16) :
    (((fcs >>> 8) ^^^ (0x0f78 : UInt16)) >>> 8) ^^^ (0xf0b7 : UInt16) = pppGoodFcs16 := by
  apply UInt16.toBitVec_inj.mp
  ext i hi
  unfold pppGoodFcs16
  interval_cases i <;> simp

theorem pppfcs16_complement (fcs : UInt16) :
    pppfcs16 fcs [lowByte (fcs ^^^ 0xffff), highByte (fcs ^^^ 0xffff)] = pppGoodFcs16 := by
  have hlow : fcstab.getD ((0xff : UInt16)).toNat 0 = 0x0f78 := by decide +kernel
  have hhigh : fcstab.getD ((0x87 : UInt16)).toNat 0 = 0xf0b7 := by decide +kernel
  simp only [pppfcs16, index_lowByte, hlow, index_highByte, hhigh, residue_of_entries]

def reflectedPoly : BitVec 16 := 0x8408#16

/-- The bits of a byte in the order in which they are sent. -/
def bits (b : UInt8) : List Bool := (List.range 8).map fun i => b.toBitVec.getLsbD i

theorem bits_length (b : UInt8) : (bits b).length = 8 := rfl

theorem bits_injective {x y : UInt8} (h : bits x = bits y) : x = y := by
  apply UInt8.toBitVec_inj.mp
  apply BitVec.eq_of_getLsbD_eq
  intro i hi
  exact (List.map_inj_left.mp h) i (List.mem_range.mpr hi)

theorem fcstab_entries : ∀ i < 256,
    (fcstab.getD i 0).toBitVec = feed reflectedPoly (BitVec.ofNat 16 i) (List.replicate 8 false) ∧
      (fcstab.getD i 0).toBitVec = feed reflectedPoly 0#16 (bits (UInt8.ofNat i)) := by
  decide +kernel

theorem start_of_entry (fcs : UInt16) :
    (fcstab.getD (fcs &&& 0xff).toNat 0).toBitVec =
      feed reflectedPoly (fcs &&& 0xff).toBitVec (List.replicate 8 false) := by
  have hlt : (fcs &&& 0xff).toNat < 256 :=
    Nat.lt_succ_of_le (UInt16.le_iff_toNat_le.mp UInt16.and_le_right)
  have hindex : BitVec.ofNat 16 (fcs &&& 0xff).toNat = (fcs &&& 0xff).toBitVec := by
    apply BitVec.eq_of_toNat_eq
    rw [BitVec.toNat_ofNat]
    exact Nat.mod_eq_of_lt (UInt16.toNat_lt _)
  rw [(fcstab_entries _ hlt).1, hindex]

theorem message_eq_start (b : UInt8) :
    feed reflectedPoly 0#16 (bits b) =
      feed reflectedPoly b.toUInt16.toBitVec (List.replicate 8 false) := by
  have hentry := fcstab_entries b.toNat b.toNat_lt
  have hindex : BitVec.ofNat 16 b.toNat = b.toUInt16.toBitVec := by
    apply BitVec.eq_of_toNat_eq
    rw [BitVec.toNat_ofNat]
    exact Nat.mod_eq_of_lt (b.toNat_lt.trans (by decide))
  rw [UInt8.ofNat_toNat, hindex] at hentry
  rw [← hentry.1, ← hentry.2]

theorem low_xor (fcs : UInt16) (b : UInt8) :
    ((fcs ^^^ b.toUInt16) &&& 0xff).toBitVec = (fcs &&& 0xff).toBitVec ^^^ b.toUInt16.toBitVec := by
  ext i hi
  interval_cases i <;> simp

theorem low_xor_high (fcs : UInt16) :
    fcs.toBitVec = (fcs &&& 0xff).toBitVec ^^^ (fcs &&& 0xff00).toBitVec := by
  ext i hi
  interval_cases i <;> simp

theorem high_shiftRight (fcs : UInt16) :
    (fcs &&& 0xff00).toBitVec >>> 8 = (fcs >>> 8).toBitVec := by
  ext i hi
  interval_cases i <;> simp

theorem high_clear (fcs : UInt16) (i : Nat) (hi : i < 8) :
    (fcs &&& 0xff00).toBitVec.getLsbD i = false := by
  interval_cases i <;> simp

theorem start_split (fcs : UInt16) :
    feed reflectedPoly fcs.toBitVec (List.replicate 8 false) =
      feed reflectedPoly (fcs &&& 0xff).toBitVec (List.replicate 8 false) ^^^
        (fcs >>> 8).toBitVec := by
  calc feed reflectedPoly fcs.toBitVec (List.replicate 8 false)
      = feed reflectedPoly ((fcs &&& 0xff).toBitVec ^^^ (fcs &&& 0xff00).toBitVec)
          (List.replicate 8 false) := by rw [← low_xor_high]
    _ = feed reflectedPoly (fcs &&& 0xff).toBitVec (List.replicate 8 false) ^^^
          feed reflectedPoly (fcs &&& 0xff00).toBitVec (List.replicate 8 false) :=
        feed_replicate_xor _ _ _ _
    _ = _ := by
        rw [feed_replicate_of_clear reflectedPoly (fcs &&& 0xff00).toBitVec (high_clear fcs),
          high_shiftRight]

def nextFcs (fcs : UInt16) (b : UInt8) : UInt16 :=
  (fcs >>> 8) ^^^ fcstab.getD ((fcs ^^^ b.toUInt16) &&& 0xff).toNat 0

theorem nextFcs_toBitVec (fcs : UInt16) (b : UInt8) :
    (nextFcs fcs b).toBitVec = feed reflectedPoly fcs.toBitVec (bits b) := by
  rw [nextFcs, UInt16.toBitVec_xor, start_of_entry, low_xor, feed_replicate_xor,
    feed_split _ _ (bits b), bits_length, message_eq_start, start_split fcs]
  ac_rfl

theorem pppfcs16_toBitVec (fcs : UInt16) (bs : List UInt8) :
    (pppfcs16 fcs bs).toBitVec = feed reflectedPoly fcs.toBitVec (bs.flatMap bits) := by
  induction bs generalizing fcs with
  | nil => rfl
  | cons b bs ih =>
    rw [List.flatMap_cons, feed_append, ← nextFcs_toBitVec]
    exact ih (nextFcs fcs b)

theorem pppfcs16_pair_injective {fcs : UInt16} {x y x' y' : UInt8}
    (h : pppfcs16 fcs [x, y] = pppfcs16 fcs [x', y']) : x = x' ∧ y = y' := by
  have hfeed := congrArg UInt16.toBitVec h
  rw [pppfcs16_toBitVec, pppfcs16_toBitVec] at hfeed
  -- sixteen bits fill the register
  have hbits : bits x ++ (bits y ++ []) = bits x' ++ (bits y' ++ []) :=
    feed_injective (by decide) rfl (by decide : 16 ≤ 16) hfeed
  simp only [List.append_nil] at hbits
  obtain ⟨hx, hy⟩ := List.append_inj hbits rfl
  exact ⟨bits_injective hx, bits_injective hy⟩

/-- The check succeeds exactly when the last two bytes are the complement of the check
value before them. -/
theorem pppfcs16_eq_good_iff (fcs : UInt16) (x y : UInt8) :
    pppfcs16 fcs [x, y] = pppGoodFcs16 ↔
      x = lowByte (fcs ^^^ 0xffff) ∧ y = highByte (fcs ^^^ 0xffff) := by
  constructor
  · intro h
    exact pppfcs16_pair_injective (h.trans (pppfcs16_complement fcs).symm)
  · rintro ⟨rfl, rfl⟩
    exact pppfcs16_complement fcs

end Hdlcd.FCS16
