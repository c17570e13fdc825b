import Mathlib.Data.List.Basic

/-! Shift registers with feedback that take in a message bit by bit, the least
significant bit of the register first. What they hold is linear in the register and
the message, and a message as long as the register can be told from every other one.
For longer messages, three kinds of damage are noticed: a burst no longer than the
register, an odd number of bits, and two bits that are not a period apart. -/

namespace ShiftRegister

variable {w : Nat}

def feedBit (poly c : BitVec w) (b : Bool) : BitVec w :=
  if c.getLsbD 0 ^^ b then (c >>> 1) ^^^ poly else c >>> 1

def feed (poly c : BitVec w) (bits : List Bool) : BitVec w := bits.foldl (feedBit poly) c

variable (poly c c' : BitVec w)

theorem feed_cons (b : Bool) (bits : List Bool) :
    feed poly c (b :: bits) = feed poly (feedBit poly c b) bits := rfl

theorem feed_append (bits bits' : List Bool) :
    feed poly c (bits ++ bits') = feed poly (feed poly c bits) bits' := List.foldl_append

def feedback (f : Bool) : BitVec w := if f then poly else 0#w

theorem feedback_xor (f f' : Bool) :
    feedback poly (f ^^ f') = feedback poly f ^^^ feedback poly f' := by
  cases f <;> cases f' <;> simp [feedback]

theorem feedBit_eq (b : Bool) : feedBit poly c b = c >>> 1 ^^^ feedback poly (c.getLsbD 0 ^^ b) := by
  unfold feedBit feedback
  split_ifs with h
  · rfl
  · exact (BitVec.xor_zero).symm

theorem feedBit_xor (b b' : Bool) :
    feedBit poly (c ^^^ c') (b ^^ b') = feedBit poly c b ^^^ feedBit poly c' b' := by
  have hbits : ((c.getLsbD 0 ^^ c'.getLsbD 0) ^^ (b ^^ b')) =
      ((c.getLsbD 0 ^^ b) ^^ (c'.getLsbD 0 ^^ b')) := by
    cases c.getLsbD 0 <;> cases c'.getLsbD 0 <;> simp
  simp only [feedBit_eq, BitVec.getLsbD_xor, BitVec.ushiftRight_xor_distrib, hbits, feedback_xor]
  ac_rfl

theorem feed_split (bits : List Bool) :
    feed poly c bits =
      feed poly c (List.replicate bits.length false) ^^^ feed poly 0#w bits := by
  have hxor (c c' : BitVec w) : feed poly (c ^^^ c') bits =
      feed poly c (List.replicate bits.length false) ^^^ feed poly c' bits := by
    induction bits generalizing c c' with
    | nil => rfl
    | cons b bits ih =>
      rw [feed_cons, List.length_cons, List.replicate_succ, feed_cons, feed_cons, ← ih,
        ← feedBit_xor, Bool.false_xor]
  have hzero := hxor c 0#w
  rwa [BitVec.xor_zero] at hzero

theorem feed_replicate_xor (n : Nat) :
    feed poly (c ^^^ c') (List.replicate n false) =
      feed poly c (List.replicate n false) ^^^ feed poly c' (List.replicate n false) := by
  induction n generalizing c c' with
  | zero => rfl
  | succ n ih =>
    have hbit := feedBit_xor poly c c' false false
    rw [Bool.xor_self] at hbit
    rw [List.replicate_succ, feed_cons, feed_cons, feed_cons, hbit, ih]

theorem feed_replicate_of_clear {n : Nat} (h : ∀ i < n, c.getLsbD i = false) :
    feed poly c (List.replicate n false) = c >>> n := by
  induction n generalizing c with
  | zero => exact (BitVec.ushiftRight_zero c).symm
  | succ n ih =>
    have hbit : feedBit poly c false = c >>> 1 := by
      rw [feedBit, h 0 (Nat.succ_pos n), Bool.xor_self, if_neg Bool.false_ne_true]
    have hclear (i : Nat) (hi : i < n) : (c >>> 1).getLsbD i = false := by
      rw [BitVec.getLsbD_ushiftRight]
      exact h (1 + i) (by omega)
    rw [List.replicate_succ, feed_cons, hbit, ih _ hclear, ← BitVec.shiftRight_add, Nat.add_comm]

section
variable {poly c c'}

theorem feedBit_highest (hpoly : poly.getLsbD (w - 1) = true) (b : Bool) :
    (feedBit poly c b).getLsbD (w - 1) = (c.getLsbD 0 ^^ b) := by
  have hw : w - 1 < w := BitVec.lt_of_getLsbD hpoly
  have hshift : (c >>> 1).getLsbD (w - 1) = false := by
    rw [BitVec.getLsbD_ushiftRight]
    exact BitVec.getLsbD_of_ge c _ (by omega)
  unfold feedBit
  cases c.getLsbD 0 ^^ b with
  | true => rw [if_pos rfl, BitVec.getLsbD_xor, hshift, hpoly, Bool.false_xor]
  | false => rw [if_neg Bool.false_ne_true, hshift]

theorem getLsbD_eq_of_feed (hpoly : poly.getLsbD (w - 1) = true) {bits bits' : List Bool}
    (hlen : bits.length = bits'.length) (h : feed poly c bits = feed poly c' bits') {i : Nat}
    (hi : bits.length ≤ i) : c.getLsbD i = c'.getLsbD i := by
  induction bits generalizing bits' c c' i with
  | nil =>
    have hnil : bits' = [] := List.length_eq_zero_iff.mp hlen.symm
    rw [hnil] at h
    exact congrArg (·.getLsbD i) h
  | cons b bits ih =>
    obtain ⟨b', bits', rfl⟩ : ∃ b' bs', bits' = b' :: bs' := by
      cases bits' with
      | nil => exact absurd hlen (Nat.succ_ne_zero _)
      | cons b' bits' => exact ⟨b', bits', rfl⟩
    rw [List.length_cons, List.length_cons, Nat.add_right_cancel_iff] at hlen
    rw [List.length_cons] at hi
    by_cases hiw : i < w
    · have hfeedback : (c.getLsbD 0 ^^ b) = (c'.getLsbD 0 ^^ b') := by
        rw [← feedBit_highest hpoly b, ← feedBit_highest hpoly b']
        exact ih hlen h (by omega)
      have hbit := ih hlen h (Nat.le_sub_one_of_lt hi)
      have hone : 1 + (i - 1) = i := by omega
      simp only [feedBit, hfeedback] at hbit
      split_ifs at hbit <;>
        simpa only [BitVec.getLsbD_xor, BitVec.getLsbD_ushiftRight, hone, Bool.xor_left_inj] using hbit
    · rw [BitVec.getLsbD_of_ge c i (by omega), BitVec.getLsbD_of_ge c' i (by omega)]

theorem feed_injective (hpoly : poly.getLsbD (w - 1) = true) {bits bits' : List Bool}
    (hlen : bits.length = bits'.length) (hw : bits.length ≤ w)
    (h : feed poly c bits = feed poly c bits') : bits = bits' := by
  induction bits generalizing bits' c with
  | nil => exact (List.length_eq_zero_iff.mp hlen.symm).symm
  | cons b bits ih =>
    obtain ⟨b', bits', rfl⟩ : ∃ b' bs', bits' = b' :: bs' := by
      cases bits' with
      | nil => exact absurd hlen (Nat.succ_ne_zero _)
      | cons b' bits' => exact ⟨b', bits', rfl⟩
    rw [List.length_cons, List.length_cons, Nat.add_right_cancel_iff] at hlen
    rw [List.length_cons] at hw
    have hfeedback : (c.getLsbD 0 ^^ b) = (c.getLsbD 0 ^^ b') := by
      rw [← feedBit_highest hpoly b, ← feedBit_highest hpoly b']
      exact getLsbD_eq_of_feed hpoly hlen h (by omega)
    obtain rfl : b = b' := Bool.xor_right_inj.mp hfeedback
    rw [ih hlen (by omega) h]

theorem feedBit_injective (hpoly : poly.getLsbD (w - 1) = true) {b : Bool}
    (h : feedBit poly c b = feedBit poly c' b) : c = c' := by
  have hfeedback : (c.getLsbD 0 ^^ b) = (c'.getLsbD 0 ^^ b) := by
    rw [← feedBit_highest hpoly b, ← feedBit_highest hpoly b, h]
  apply BitVec.eq_of_getLsbD_eq
  intro i _
  cases i with
  | zero => exact Bool.xor_left_inj.mp hfeedback
  | succ i =>
    have hsame : feed poly c [b] = feed poly c' [b] := h
    exact getLsbD_eq_of_feed hpoly rfl hsame (Nat.le_add_left 1 i)

theorem start_injective (hpoly : poly.getLsbD (w - 1) = true) {bits : List Bool}
    (h : feed poly c bits = feed poly c' bits) : c = c' := by
  induction bits generalizing c c' with
  | nil => exact h
  | cons b bits ih => exact feedBit_injective hpoly (ih h)

end

def difference (bits bits' : List Bool) : List Bool := List.zipWith (· ^^ ·) bits bits'

theorem difference_length {bits bits' : List Bool} (hlen : bits.length = bits'.length) :
    (difference bits bits').length = bits.length := by
  rw [difference, List.length_zipWith, ← hlen, Nat.min_self]

theorem feed_difference {bits bits' : List Bool} (hlen : bits.length = bits'.length) :
    feed poly (c ^^^ c') (difference bits bits') = feed poly c bits ^^^ feed poly c' bits' := by
  induction bits generalizing bits' c c' with
  | nil =>
    have hnil : bits' = [] := List.length_eq_zero_iff.mp hlen.symm
    rw [hnil]
    rfl
  | cons b bits ih =>
    cases bits' with
    | nil => exact absurd hlen (Nat.succ_ne_zero _)
    | cons b' bits' =>
      rw [List.length_cons, List.length_cons, Nat.add_right_cancel_iff] at hlen
      rw [feed_cons, feed_cons, ← ih _ _ hlen, ← feedBit_xor]
      rfl

theorem feed_eq_iff_difference {bits bits' : List Bool} (hlen : bits.length = bits'.length) :
    feed poly c bits = feed poly c bits' ↔ feed poly 0#w (difference bits bits') = 0#w := by
  have hxor := feed_difference poly c c hlen
  rw [BitVec.xor_self] at hxor
  rw [hxor]
  constructor
  · intro h
    rw [h, BitVec.xor_self]
  · intro h
    exact BitVec.xor_eq_zero_iff.mp h

theorem feed_zero_replicate (n : Nat) : feed poly 0#w (List.replicate n false) = 0#w := by
  rw [feed_replicate_of_clear poly 0#w (fun i _ => BitVec.getLsbD_zero), BitVec.zero_ushiftRight]

def parity (bits : List Bool) : Bool := bits.foldr (· ^^ ·) false

theorem parity_cons (b : Bool) (bits : List Bool) : parity (b :: bits) = (b ^^ parity bits) := rfl

theorem parity_eq_count (bits : List Bool) : parity bits = decide (bits.count true % 2 = 1) := by
  induction bits with
  | nil => rfl
  | cons b bits ih =>
    rw [parity_cons, ih]
    cases b with
    | false => rw [Bool.false_xor, List.count_cons_of_ne Bool.false_ne_true]
    | true =>
      rw [Bool.true_xor, List.count_cons_self, ← decide_not, decide_eq_decide]
      omega

def contents (c : BitVec w) : List Bool := (List.range w).map c.getLsbD

theorem parity_map_xor (ks : List Nat) (f g : Nat → Bool) :
    parity (ks.map fun k => f k ^^ g k) = (parity (ks.map f) ^^ parity (ks.map g)) := by
  induction ks with
  | nil => rfl
  | cons k ks ih =>
    rw [List.map_cons, List.map_cons, List.map_cons, parity_cons, parity_cons, parity_cons, ih]
    cases f k <;> cases g k <;> simp

theorem parity_contents_xor :
    parity (contents (c ^^^ c')) = (parity (contents c) ^^ parity (contents c')) := by
  have hbits : contents (c ^^^ c') = (List.range w).map fun k => c.getLsbD k ^^ c'.getLsbD k :=
    List.map_congr_left fun k _ => BitVec.getLsbD_xor
  rw [hbits, parity_map_xor]
  rfl

theorem parity_contents_shift :
    parity (contents c) = (c.getLsbD 0 ^^ parity (contents (c >>> 1))) := by
  -- one position more holds no bit
  have hmore : parity ((List.range (w + 1)).map c.getLsbD) = parity (contents c) := by
    rw [List.range_succ, List.map_append, List.map_singleton, BitVec.getLsbD_of_ge c w (Nat.le_refl w)]
    unfold parity contents
    rw [List.foldr_append]
    rfl
  have hshift : contents (c >>> 1) = (List.range w).map (c.getLsbD ∘ Nat.succ) :=
    List.map_congr_left fun k _ => by
      rw [BitVec.getLsbD_ushiftRight, Nat.add_comm]
      rfl
  rw [← hmore, List.range_succ_eq_map, List.map_cons, List.map_map, hshift]
  rfl

theorem parity_feedBit (hodd : parity (contents poly) = true) (b : Bool) :
    parity (contents (feedBit poly c b)) = (parity (contents c) ^^ b) := by
  rw [parity_contents_shift c]
  unfold feedBit
  cases c.getLsbD 0 <;> cases b <;> simp [parity_contents_xor, hodd]

theorem parity_feed (hodd : parity (contents poly) = true) (bits : List Bool) :
    parity (contents (feed poly c bits)) = (parity (contents c) ^^ parity bits) := by
  induction bits generalizing c with
  | nil => exact (Bool.xor_false _).symm
  | cons b bits ih =>
    rw [feed_cons, ih, parity_feedBit poly c hodd, parity_cons, Bool.xor_assoc]

theorem feed_ne_zero_of_odd (hodd : parity (contents poly) = true) {damage : List Bool}
    (h : damage.count true % 2 = 1) : feed poly 0#w damage ≠ 0#w := by
  intro hzero
  have hempty : parity (contents (0#w)) = false := by
    have hsame := parity_contents_xor (0#w) (0#w)
    rwa [BitVec.xor_self, Bool.xor_self] at hsame
  have hparity := parity_feed poly 0#w hodd damage
  rw [hzero, hempty, Bool.false_xor, parity_eq_count, decide_eq_true h] at hparity
  exact Bool.false_ne_true hparity

section
variable {poly c c'}

theorem eq_replicate_of_notMem {bits : List Bool} (h : true ∉ bits) :
    bits = List.replicate bits.length false := by
  rw [List.eq_replicate_iff]
  refine ⟨rfl, fun b hb => ?_⟩
  cases b with
  | false => rfl
  | true => exact absurd hb h

theorem feed_ne_zero_of_burst (hpoly : poly.getLsbD (w - 1) = true) {damage : List Bool} {first : Nat}
    (hwindow : ∀ k, damage[k]? = some true → first ≤ k ∧ k < first + w) (hne : true ∈ damage) :
    feed poly 0#w damage ≠ 0#w := by
  intro hzero
  have hbefore : damage.take first = List.replicate (damage.take first).length false := by
    apply eq_replicate_of_notMem
    intro hmem
    obtain ⟨k, hk⟩ := List.mem_iff_getElem?.mp hmem
    rw [List.getElem?_take] at hk
    split_ifs at hk with hlt
    exact absurd (hwindow k hk).1 (Nat.not_le.mpr hlt)
  have hafter : (damage.drop first).drop w =
      List.replicate ((damage.drop first).drop w).length false := by
    apply eq_replicate_of_notMem
    intro hmem
    obtain ⟨k, hk⟩ := List.mem_iff_getElem?.mp hmem
    rw [List.drop_drop, List.getElem?_drop] at hk
    exact absurd (hwindow _ hk).2 (by omega)
  have hsplit : damage = damage.take first ++
      ((damage.drop first).take w ++ (damage.drop first).drop w) := by
    rw [List.take_append_drop, List.take_append_drop]
  -- the bits after the burst cannot undo what the burst leaves
  have hburst : feed poly 0#w ((damage.drop first).take w) = 0#w := by
    have hfeed := hzero
    rw [hsplit, feed_append, feed_append, hbefore, feed_zero_replicate, hafter] at hfeed
    exact start_injective hpoly (hfeed.trans (feed_zero_replicate poly _).symm)
  have hclear : (damage.drop first).take w =
      List.replicate ((damage.drop first).take w).length false := by
    apply feed_injective hpoly List.length_replicate.symm (List.length_take_le _ _)
    rw [hburst, feed_zero_replicate]
  rw [hsplit, hbefore, hclear, hafter] at hne
  simp only [List.mem_append, List.mem_replicate] at hne
  obtain ⟨_, h⟩ | ⟨_, h⟩ | ⟨_, h⟩ := hne <;> exact absurd h.symm Bool.false_ne_true

def staysAway (poly start : BitVec w) : Nat → BitVec w → Bool
  | 0, _ => true
  | n + 1, c => feedBit poly c false != start && staysAway poly start n (feedBit poly c false)

theorem staysAway_spec {start : BitVec w} {n : Nat} (h : staysAway poly start n c = true) {d : Nat}
    (hd : d < n) : feed poly c (List.replicate (d + 1) false) ≠ start := by
  induction n generalizing c d with
  | zero => exact absurd hd (Nat.not_lt_zero d)
  | succ n ih =>
    rw [staysAway, Bool.and_eq_true, bne_iff_ne] at h
    cases d with
    | zero => exact h.1
    | succ d =>
      rw [List.replicate_succ, feed_cons]
      exact ih h.2 (Nat.lt_of_succ_lt_succ hd)

theorem exists_leading {bits : List Bool} (h : true ∈ bits) :
    ∃ n rest, bits = List.replicate n false ++ true :: rest := by
  induction bits with
  | nil => exact absurd h List.not_mem_nil
  | cons b bits ih =>
    cases b with
    | true => exact ⟨0, bits, rfl⟩
    | false =>
      obtain ⟨n, rest, hrest⟩ := ih ((List.mem_cons.mp h).resolve_left Bool.false_ne_true.symm)
      exact ⟨n + 1, rest, by rw [hrest, List.replicate_succ, List.cons_append]⟩

theorem exists_two {bits : List Bool} (h : bits.count true = 2) :
    ∃ n d m, bits = List.replicate n false ++
      true :: (List.replicate d false ++ true :: List.replicate m false) := by
  obtain ⟨n, rest, rfl⟩ := exists_leading (List.count_pos_iff.mp (by omega : 0 < bits.count true))
  rw [List.count_append, List.count_replicate, List.count_cons_self] at h
  have hrest : rest.count true = 1 := by simpa using h
  obtain ⟨d, last, rfl⟩ := exists_leading (List.count_pos_iff.mp (by omega : 0 < rest.count true))
  rw [List.count_append, List.count_replicate, List.count_cons_self] at hrest
  have hlast : last.count true = 0 := by simpa using hrest
  exact ⟨n, d, last.length, by rw [← eq_replicate_of_notMem (List.count_eq_zero.mp hlast)]⟩

theorem feedBit_zero_true : feedBit poly 0#w true = poly := by
  rw [feedBit_eq, BitVec.getLsbD_zero, BitVec.zero_ushiftRight, Bool.false_xor, BitVec.zero_xor]
  rfl

theorem feed_ne_zero_of_two (hpoly : poly.getLsbD (w - 1) = true) {n : Nat}
    (haway : staysAway poly poly n poly = true) {damage : List Bool} (hlen : damage.length ≤ n)
    (h : damage.count true = 2) : feed poly 0#w damage ≠ 0#w := by
  intro hzero
  obtain ⟨k, d, m, rfl⟩ := exists_two h
  rw [feed_append, feed_zero_replicate, feed_cons, feedBit_zero_true, feed_append, feed_cons] at hzero
  have hsecond : feedBit poly (feed poly poly (List.replicate d false)) true = 0#w :=
    start_injective hpoly (hzero.trans (feed_zero_replicate poly m).symm)
  have hmoved : feed poly poly (List.replicate (d + 1) false) = poly := by
    rw [List.replicate_succ', feed_append]
    have hsplit := feedBit_xor poly (feed poly poly (List.replicate d false)) 0#w false true
    rw [BitVec.xor_zero, Bool.false_xor, hsecond, feedBit_zero_true] at hsplit
    exact BitVec.xor_eq_zero_iff.mp hsplit.symm
  have hd : d < n := by
    simp only [List.length_append, List.length_cons, List.length_replicate] at hlen
    omega
  exact staysAway_spec haway hd hmoved

end

end ShiftRegister
