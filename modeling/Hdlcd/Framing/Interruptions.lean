import Mathlib.Data.List.Infix
import Hdlcd.Framing.Delivery

/-! A parser that is reset while it reads: of the frames of a stream it makes valid calls for
some of them, in order, each at most once and no other call. -/

namespace Hdlcd.Framing
open FrameGenerator FrameParser Reactive

/-- What a deframer has read, its phase, and the calls it has made, if it may be reset after
any byte. -/
inductive Interrupted : List UInt8 → Phase → List Interpretation → Prop
  | start : Interrupted [] .hunting []
  | feed {read : List UInt8} {ph : Phase} {cs : List Interpretation} (h : Interrupted read ph cs)
    (b : UInt8) : Interrupted (read ++ [b]) (feedByte b ph).1 (cs ++ (feedByte b ph).2)
  | reset {read : List UInt8} {ph : Phase} {cs : List Interpretation} (h : Interrupted read ph cs) :
    Interrupted read .hunting cs

/-- The buffers back to back, as the generator escapes them. -/
def escapedStream (buffers : List (List UInt8)) : List UInt8 := buffers.flatMap escapeFrame

def Serialized (buffers : List (List UInt8)) : Prop := ∀ b ∈ buffers, ∃ f, serializeFrame f = some b

namespace Interrupted

variable {read : List UInt8} {ph : Phase} {cs : List Interpretation}

theorem feeds (h : Interrupted read ph cs) (bytes : List UInt8) :
    Interrupted (read ++ bytes) (Framing.feed bytes ph).1 (cs ++ (Framing.feed bytes ph).2) := by
  induction bytes generalizing read ph cs with
  | nil => simpa only [Framing.feed, run, Action.skip, List.append_nil] using h
  | cons b bytes ih =>
    have hrest := ih (h.feed b)
    rw [feed_cons, Action.andThen_apply, ← List.append_assoc]
    rwa [List.append_assoc, List.singleton_append] at hrest

theorem skip (h : Interrupted read ph cs) (bytes : List UInt8) :
    Interrupted (read ++ bytes) .hunting cs := by
  induction bytes generalizing read ph with
  | nil =>
    rw [List.append_nil]
    exact h.reset
  | cons b bytes ih =>
    have hone := h.reset.feed b
    have hsilent : (feedByte b .hunting).2 = [] := rfl
    rw [hsilent, List.append_nil] at hone
    have hrest := ih hone
    rwa [List.append_assoc, List.singleton_append] at hrest

end Interrupted

/-- Whole frames were read, and a part of the next one behind its opening flag. -/
inductive Located (buffers : List (List UInt8)) : List UInt8 → Phase → List Interpretation → Prop
  | between (done : List (List UInt8)) {ph : Phase} {cs : List Interpretation}
    (hdone : done <+: buffers) (hidle : ph.Idle) (hcalls : cs.Sublist (done.map validCall)) :
    Located buffers (escapedStream done) ph cs
  | within (done : List (List UInt8)) (body part rest : List UInt8) {ph : Phase}
    {cs : List Interpretation} (hdone : done ++ [0x7E :: (body ++ [0x7E])] <+: buffers)
    (hpart : body.flatMap escapeByte = part ++ rest)
    (hphase : ph = .hunting ∨ ∃ o, ph = .collecting o ∧ o.body = part)
    (hcalls : cs.Sublist (done.map validCall)) :
    Located buffers (escapedStream done ++ 0x7E :: part) ph cs

section
variable {buffers : List (List UInt8)} {read : List UInt8} {ph : Phase} {cs : List Interpretation}

theorem escapedStream_append (bs bs' : List (List UInt8)) :
    escapedStream (bs ++ bs') = escapedStream bs ++ escapedStream bs' := List.flatMap_append

theorem escapedStream_singleton (body : List UInt8) :
    escapedStream [0x7E :: (body ++ [0x7E])] = 0x7E :: (body.flatMap escapeByte ++ [0x7E]) := by
  rw [escapedStream, List.flatMap_singleton, escapeFrame_delimited]

theorem Serialized.body (h : Serialized buffers) {buffer : List UInt8} (hmem : buffer ∈ buffers) :
    ∃ body, buffer = 0x7E :: (body ++ [0x7E]) ∧ 4 ≤ body.length ∧
      FCS16.pppfcs16 FCS16.pppInitFcs16 body = FCS16.pppGoodFcs16 := by
  obtain ⟨f, hf⟩ := h buffer hmem
  obtain ⟨body, hbody, h4, hfcs, -⟩ := escapeFrame_serialized hf
  exact ⟨body, hbody, h4, hfcs⟩

namespace Located

theorem reset (h : Located buffers read ph cs) : Located buffers read .hunting cs := by
  cases h with
  | between done hdone _ hcalls => exact .between done hdone idle_hunting hcalls
  | within done body part rest hdone hpart _ hcalls =>
    exact .within done body part rest hdone hpart (.inl rfl) hcalls

theorem sublist (h : Located buffers read ph cs) : cs.Sublist (buffers.map validCall) := by
  cases h with
  | between done hdone _ hcalls => exact hcalls.trans (hdone.sublist.map _)
  | within done body part rest hdone _ _ hcalls =>
    have hstart := (List.prefix_append done _).trans hdone
    exact hcalls.trans (hstart.sublist.map _)

theorem open_frame (hserialized : Serialized buffers) {done : List (List UInt8)}
    (hdone : done <+: buffers) (hidle : ph.Idle) (hcalls : cs.Sublist (done.map validCall)) {b : UInt8}
    (hnext : escapedStream done ++ [b] <+: escapedStream buffers) :
    Located buffers (escapedStream done ++ [b]) (feedByte b ph).1 (cs ++ (feedByte b ph).2) := by
  obtain ⟨rest, rfl⟩ := hdone
  rw [escapedStream_append, List.prefix_append_right_inj] at hnext
  cases rest with
  | nil => exact absurd (List.eq_nil_of_prefix_nil hnext) (List.cons_ne_nil _ _)
  | cons buffer rest =>
    obtain ⟨body, rfl, -⟩ := hserialized.body (List.mem_append_right _ (List.mem_cons_self ..))
    rw [← List.singleton_append (l := rest), escapedStream_append, escapedStream_singleton] at hnext
    obtain rfl := (List.cons_prefix_cons.mp hnext).1
    rw [feedByte_flag_idle hidle, List.append_nil]
    refine .within done body [] (body.flatMap escapeByte) ?_ rfl (.inr ⟨.empty, rfl, rfl⟩) hcalls
    rw [← List.singleton_append (l := rest), ← List.append_assoc]
    exact List.prefix_append _ _

theorem close_frame {body : List UInt8} (h4 : 4 ≤ body.length)
    (hfcs : FCS16.pppfcs16 FCS16.pppInitFcs16 body = FCS16.pppGoodFcs16)
    (hphase : ph = .hunting ∨ ∃ o, ph = .collecting o ∧ o.body = body.flatMap escapeByte) :
    (feedByte 0x7E ph).1.Idle ∧
      (feedByte 0x7E ph).2.Sublist [validCall (0x7E :: (body ++ [0x7E]))] := by
  rcases hphase with rfl | ⟨o, rfl, hbody⟩
  · exact ⟨idle_empty, List.nil_sublist _⟩
  · by_cases hroom : o.body.length + 2 ≤ 2 * maxLength
    · rw [feedByte_flag_fits hroom, hbody, closeFrame_escaped h4 hfcs]
      split_ifs
      · exact ⟨idle_hunting, List.Sublist.refl _⟩
      · exact ⟨idle_empty, List.nil_sublist _⟩
    · rw [feedByte_flag_full hroom]
      exact ⟨idle_empty, List.nil_sublist _⟩

theorem collect {b : UInt8} {part : List UInt8} (hb : b ≠ 0x7E)
    (hphase : ph = .hunting ∨ ∃ o, ph = .collecting o ∧ o.body = part) :
    ((feedByte b ph).1 = .hunting ∨ ∃ o, (feedByte b ph).1 = .collecting o ∧ o.body = part ++ [b]) ∧
      (feedByte b ph).2 = [] := by
  rcases hphase with rfl | ⟨o, rfl, rfl⟩
  · exact ⟨.inl (if_neg hb), rfl⟩
  · unfold feedByte
    dsimp only
    rw [dif_neg hb]
    split_ifs with hroom
    · exact ⟨.inr ⟨_, rfl, rfl⟩, rfl⟩
    · exact ⟨.inl rfl, rfl⟩

theorem feedByte (hserialized : Serialized buffers) (h : Located buffers read ph cs) {b : UInt8}
    (hnext : read ++ [b] <+: escapedStream buffers) :
    Located buffers (read ++ [b]) (feedByte b ph).1 (cs ++ (feedByte b ph).2) := by
  cases h with
  | between done hdone hidle hcalls => exact open_frame hserialized hdone hidle hcalls hnext
  | within done body part rest hdone hpart hphase hcalls =>
    obtain ⟨later, hlater⟩ := id hdone
    have hwhole : escapedStream buffers = escapedStream done ++
        (0x7E :: part ++ (rest ++ [0x7E] ++ escapedStream later)) := by
      rw [← hlater, escapedStream_append, escapedStream_append, escapedStream_singleton, hpart]
      simp only [List.append_assoc, List.cons_append]
    rw [hwhole, List.append_assoc, List.prefix_append_right_inj, List.prefix_append_right_inj] at hnext
    cases rest with
    | nil =>
      obtain rfl := (List.cons_prefix_cons.mp hnext).1
      rw [List.append_nil] at hpart
      subst hpart
      obtain ⟨body', hbody, h4, hfcs⟩ := hserialized.body
        (hdone.subset (List.mem_append_right _ (List.mem_singleton_self _)))
      obtain rfl : body = body' := by simpa using hbody
      obtain ⟨hidle, hcall⟩ := close_frame h4 hfcs hphase
      have hread : escapedStream done ++ 0x7E :: body.flatMap escapeByte ++ [0x7E] =
          escapedStream (done ++ [0x7E :: (body ++ [0x7E])]) := by
        rw [escapedStream_append, escapedStream_singleton, List.append_assoc, List.cons_append]
      rw [hread]
      refine .between _ hdone hidle ?_
      rw [List.map_append]
      exact hcalls.append hcall
    | cons b' rest =>
      obtain rfl := (List.cons_prefix_cons.mp hnext).1
      have hb : b ≠ 0x7E := by
        rintro rfl
        refine flag_notMem_escaped body ?_
        rw [hpart]
        exact List.mem_append_right _ (List.mem_cons_self ..)
      obtain ⟨hphase', hsilent⟩ := collect hb hphase
      rw [hsilent, List.append_nil, List.append_assoc, List.cons_append]
      refine .within done body (part ++ [b]) rest hdone ?_ hphase' hcalls
      rw [hpart, List.append_assoc, List.singleton_append]

end Located

theorem Interrupted.located (hserialized : Serialized buffers) (h : Interrupted read ph cs)
    (hread : read <+: escapedStream buffers) : Located buffers read ph cs := by
  induction h with
  | start => exact .between [] List.nil_prefix idle_hunting (List.Sublist.refl _)
  | @feed read ph cs h b ih =>
    exact (ih ((List.prefix_append read [b]).trans hread)).feedByte hserialized hread
  | reset h ih => exact (ih hread).reset

end

end Hdlcd.Framing
