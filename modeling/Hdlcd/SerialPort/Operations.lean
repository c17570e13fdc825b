import Mathlib.Data.List.Forall2
import Hdlcd.SerialPort.SerialPort

/-! The reads and writes of a serial port: which of them belong to the current opening, and
what is left of them when they complete. -/

namespace Hdlcd
namespace SerialPort

def currentWrites (p : SerialPort) : List WriteOperation := p.writes.filter (·.opening == p.openings)

def currentReads (p : SerialPort) : List ReadOperation := p.reads.filter (·.opening == p.openings)

def Reading (p : SerialPort) : Prop := ∃ r ∈ p.reads, r.opening = p.openings

def isUnderway (p : SerialPort) (w : WriteOperation) : Bool :=
  w.opening == p.openings && w.result != some .error

def underway (p : SerialPort) : List (List UInt8) := (p.writes.filter p.isUnderway).map (·.buffer)

structure Truthful (p : SerialPort) : Prop where
  opened : ∀ w ∈ p.writes, w.opening ≤ p.openings
  written : ∀ w ∈ p.writes, ∀ n, w.result = some (.success n) → 1 ≤ n ∧ n ≤ w.buffer.length

def Credible (result : WriteResult) (w : WriteOperation) : Prop :=
  ∀ n, result = .success n → 1 ≤ n ∧ n ≤ w.buffer.length

def Completes (result : WriteResult) (w w' : WriteOperation) : Prop :=
  w' = w ∨ w' = w.complete result ∧ Credible result w

section
variable {p : SerialPort} {result : WriteResult} {w w' : WriteOperation} {writes : List WriteOperation}

theorem complete_cases (result : WriteResult) (w : WriteOperation) :
    w.complete result = w ∨ w.result = none ∧ w.complete result = { w with result := some result } := by
  unfold WriteOperation.complete
  cases h : w.result with
  | none => exact .inr ⟨rfl, rfl⟩
  | some => exact .inl rfl

theorem Completes.members (h : Completes result w w') : w'.opening = w.opening ∧ w'.buffer = w.buffer := by
  rcases h with rfl | ⟨rfl, _⟩
  · exact ⟨rfl, rfl⟩
  · rcases complete_cases result w with hsame | ⟨_, hsame⟩ <;> rw [hsame] <;> exact ⟨rfl, rfl⟩

theorem Completes.isUnderway (h : Completes result w w') (hw : p.isUnderway w' = true) : p.isUnderway w = true := by
  rcases h with rfl | ⟨rfl, _⟩
  · exact hw
  · rcases complete_cases result w with hsame | ⟨hnone, hsame⟩
    · rwa [hsame] at hw
    · rw [hsame] at hw
      unfold SerialPort.isUnderway at hw ⊢
      rw [hnone]
      exact Bool.and_eq_true_iff.mpr ⟨(Bool.and_eq_true_iff.mp hw).1, rfl⟩

theorem underway_completes {l l' : List WriteOperation} (h : List.Forall₂ (Completes result) l l') :
    ((l'.filter p.isUnderway).map (·.buffer)).Sublist ((l.filter p.isUnderway).map (·.buffer)) := by
  induction h with
  | nil => exact List.Sublist.refl _
  | @cons w w' l l' hw hl ih =>
    by_cases hlate : p.isUnderway w' = true
    · rw [List.filter_cons_of_pos hlate, List.filter_cons_of_pos (hw.isUnderway hlate), List.map_cons,
        List.map_cons, hw.members.2]
      exact ih.cons_cons _
    · rw [List.filter_cons_of_neg hlate, List.filter_cons]
      split_ifs
      · exact ih.cons _
      · exact ih

theorem completes_map {l : List WriteOperation} (hl : ∀ w ∈ l, Credible result w) :
    List.Forall₂ (Completes result) l (l.map (.complete result)) := by
  induction l with
  | nil => exact .nil
  | cons w l ih =>
    exact .cons (.inr ⟨rfl, hl w (List.mem_cons_self ..)⟩) (ih fun w' hw' => hl w' (List.mem_cons_of_mem _ hw'))

theorem completes_modify {l : List WriteOperation} {i : Nat} (hl : ∀ w, l[i]? = some w → Credible result w) :
    List.Forall₂ (Completes result) l (l.modify i (.complete result)) := by
  induction l generalizing i with
  | nil =>
    rw [List.modify_nil]
    exact .nil
  | cons w l ih =>
    cases i with
    | zero =>
      rw [List.modify_zero_cons]
      exact .cons (.inr ⟨rfl, hl w rfl⟩) (List.forall₂_same.mpr fun _ _ => .inl rfl)
    | succ i =>
      rw [List.modify_succ_cons]
      exact .cons (.inl rfl) (ih hl)

theorem credible_error (w : WriteOperation) : Credible .error w := fun _ herror => nomatch herror

namespace Truthful

theorem completes (h : Truthful p) (hwrites : List.Forall₂ (Completes result) p.writes writes) :
    Truthful { p with writes := writes } := by
  have hbefore {w' : WriteOperation} (hw' : w' ∈ writes) : ∃ w ∈ p.writes, Completes result w w' := by
    obtain ⟨i, hi, rfl⟩ := List.getElem_of_mem hw'
    have hlength := hwrites.length_eq
    exact ⟨p.writes[i], List.getElem_mem _, (List.forall₂_iff_get.mp hwrites).2 i (hlength ▸ hi) hi⟩
  refine ⟨fun w' hw' => ?_, fun w' hw' n hn => ?_⟩
  · obtain ⟨w, hw, hcompletes⟩ := hbefore hw'
    rw [hcompletes.members.1]
    exact h.opened w hw
  · obtain ⟨w, hw, hcompletes⟩ := hbefore hw'
    rw [hcompletes.members.2]
    rcases hcompletes with rfl | ⟨rfl, hcredible⟩
    · exact h.written w' hw n hn
    · rcases complete_cases result w with hsame | ⟨_, hsame⟩
      · exact h.written w hw n (hsame ▸ hn)
      · rw [hsame] at hn
        exact hcredible n (Option.some.inj hn)

theorem openPort (h : Truthful p) : Truthful p.openPort :=
  ⟨fun w hw => Nat.le_succ_of_le (h.opened w hw), h.written⟩

theorem close (h : Truthful p) : Truthful p.close := by
  have hcompleted := h.completes (completes_map fun w _ => credible_error w)
  exact ⟨hcompleted.opened, hcompleted.written⟩

theorem writeCompletes (h : Truthful p) {i : Nat} (hi : ∀ w, p.writes[i]? = some w → Credible result w) :
    Truthful (p.writeCompletes i result) := h.completes (completes_modify hi)

theorem asyncWriteSome (h : Truthful p) (buffer : List UInt8) : Truthful (p.asyncWriteSome buffer) := by
  have hnew (n : Nat) : (if p.isOpen then none else some WriteResult.error) ≠ some (.success n) := by
    split_ifs <;> simp
  refine ⟨fun w hw => ?_, fun w hw n hn => ?_⟩
  · rcases List.mem_append.mp hw with hold | hlast
    · exact h.opened w hold
    · rw [List.mem_singleton.mp hlast]
      exact Nat.le_refl _
  · rcases List.mem_append.mp hw with hold | hlast
    · exact h.written w hold n hn
    · rw [List.mem_singleton.mp hlast] at hn
      exact absurd hn (hnew n)

theorem sublist (h : Truthful p) (hwrites : writes.Sublist p.writes) : Truthful { p with writes := writes } :=
  ⟨fun w hw => h.opened w (hwrites.subset hw), fun w hw => h.written w (hwrites.subset hw)⟩

end Truthful

theorem underway_openPort (h : Truthful p) : p.openPort.underway = [] := by
  refine List.map_eq_nil_iff.mpr (List.filter_eq_nil_iff.mpr fun w hw hopening => ?_)
  have hcurrent : w.opening = p.openings + 1 := by
    unfold isUnderway at hopening
    exact beq_iff_eq.mp (Bool.and_eq_true_iff.mp hopening).1
  have hold := h.opened w hw
  omega

theorem underway_close (p : SerialPort) : p.close.underway.Sublist p.underway :=
  underway_completes (p := p) (completes_map fun w _ => credible_error w)

theorem underway_writeCompletes {i : Nat} (hi : ∀ w, p.writes[i]? = some w → Credible result w) :
    (p.writeCompletes i result).underway.Sublist p.underway :=
  underway_completes (p := p) (completes_modify hi)

theorem underway_asyncWriteSome (p : SerialPort) (buffer : List UInt8) :
    (p.asyncWriteSome buffer).underway = p.underway ∨
      (p.asyncWriteSome buffer).underway = p.underway ++ [buffer] := by
  have hsame : (p.asyncWriteSome buffer).isUnderway = p.isUnderway := rfl
  unfold underway
  rw [hsame]
  unfold asyncWriteSome
  dsimp only
  rw [List.filter_append, List.map_append]
  cases p.isOpen with
  | true => exact .inr (congrArg (_ ++ ·) (by simp [isUnderway]))
  | false => exact .inl (by simp [isUnderway])

theorem underway_eraseIdx {i : Nat} (hw : p.writes[i]? = some w) :
    ({ p with writes := p.writes.eraseIdx i } : SerialPort).underway.Sublist p.underway ∧
      (p.isUnderway w = true → p.underway.length =
        ({ p with writes := p.writes.eraseIdx i } : SerialPort).underway.length + 1 ∧ w.buffer ∈ p.underway) := by
  have hsub : (p.writes.eraseIdx i).Sublist p.writes := List.eraseIdx_sublist ..
  refine ⟨(hsub.filter _).map _, fun hunderway => ⟨?_, ?_⟩⟩
  · obtain ⟨hi, rfl⟩ := List.getElem?_eq_some_iff.mp hw
    have hsplit : p.writes = p.writes.take i ++ p.writes[i] :: p.writes.drop (i + 1) := by
      rw [List.getElem_cons_drop, List.take_append_drop]
    have hbefore : p.underway.length = ((p.writes.take i ++ p.writes[i] :: p.writes.drop (i + 1)).filter
        p.isUnderway).length := by
      rw [← hsplit]
      exact List.length_map _
    rw [hbefore, List.filter_append, List.filter_cons_of_pos hunderway]
    unfold underway
    dsimp only
    rw [List.length_map, List.eraseIdx_eq_take_drop_succ, List.filter_append, List.length_append,
      List.length_append, List.length_cons]
    rfl
  · exact List.mem_map_of_mem (List.mem_filter.mpr ⟨List.mem_of_getElem? hw, hunderway⟩)

theorem currentWrites_openPort (h : Truthful p) : p.openPort.currentWrites = [] := by
  refine List.filter_eq_nil_iff.mpr fun w hw hcurrent => ?_
  have hlate : w.opening = p.openings + 1 := beq_iff_eq.mp hcurrent
  have hold := h.opened w hw
  omega

theorem currentWrites_asyncWriteSome (p : SerialPort) (buffer : List UInt8) :
    (p.asyncWriteSome buffer).currentWrites.length = p.currentWrites.length + 1 := by
  unfold currentWrites asyncWriteSome
  rw [List.filter_append, List.length_append]
  simp

theorem currentWrites_completes {l l' : List WriteOperation} (h : List.Forall₂ (Completes result) l l') :
    (l'.filter (·.opening == p.openings)).length = (l.filter (·.opening == p.openings)).length := by
  induction h with
  | nil => rfl
  | @cons w w' l l' hw hl ih =>
    rw [List.filter_cons, List.filter_cons, hw.members.1]
    split_ifs
    · rw [List.length_cons, List.length_cons, ih]
    · exact ih

theorem currentWrites_eraseIdx {i : Nat} (hw : p.writes[i]? = some w) :
    p.currentWrites.length = ({ p with writes := p.writes.eraseIdx i } : SerialPort).currentWrites.length +
      if w.opening = p.openings then 1 else 0 := by
  obtain ⟨hi, rfl⟩ := List.getElem?_eq_some_iff.mp hw
  have hsplit : p.writes = p.writes.take i ++ p.writes[i] :: p.writes.drop (i + 1) := by
    rw [List.getElem_cons_drop, List.take_append_drop]
  unfold currentWrites
  dsimp only
  rw [List.eraseIdx_eq_take_drop_succ, List.filter_append, List.length_append]
  conv_lhs => rw [hsplit]
  rw [List.filter_append, List.length_append, List.filter_cons]
  split_ifs with hpos hcurrent hcurrent
  · rw [List.length_cons]
    rfl
  · exact absurd (beq_iff_eq.mp hpos) hcurrent
  · exact absurd (beq_iff_eq.mpr hcurrent) hpos
  · rfl

theorem read_complete_opening (result : ReadResult) (r : ReadOperation) :
    (r.complete result).opening = r.opening := by
  unfold ReadOperation.complete
  split <;> rfl

theorem Reading.currentReads (h : p.Reading) : 1 ≤ p.currentReads.length := by
  obtain ⟨r, hr, hopening⟩ := h
  exact List.length_pos_of_mem (List.mem_filter.mpr ⟨hr, beq_iff_eq.mpr hopening⟩)

theorem currentReads_asyncReadSome (p : SerialPort) :
    p.asyncReadSome.currentReads.length = p.currentReads.length + 1 := by
  unfold SerialPort.currentReads asyncReadSome
  rw [List.filter_append, List.length_append]
  simp

theorem Reading.eraseIdx {i : Nat} {r : ReadOperation} (h : p.Reading) (hr : p.reads[i]? = some r)
    (hold : r.opening ≠ p.openings) : ({ p with reads := p.reads.eraseIdx i } : SerialPort).Reading := by
  obtain ⟨q, hq, hopening⟩ := h
  refine ⟨q, List.mem_eraseIdx_iff_getElem?.mpr ?_, hopening⟩
  obtain ⟨j, hj⟩ := List.mem_iff_getElem?.mp hq
  refine ⟨j, fun hji => hold ?_, hj⟩
  rw [hji, hr] at hj
  rw [Option.some.inj hj, hopening]

theorem Reading.close (h : p.Reading) : p.close.Reading := by
  obtain ⟨r, hr, hopening⟩ := h
  exact ⟨r.complete .error, List.mem_map_of_mem hr, (read_complete_opening .error r).trans hopening⟩

theorem readCompletes_of_not_pending {i : Nat} (h : p.readPending i = false) (result : ReadResult) :
    p.readCompletes i result = p := by
  have hsame : p.reads.modify i (.complete result) = p.reads := by
    refine List.ext_getElem? fun j => ?_
    rw [List.getElem?_modify]
    split_ifs with hij
    · subst hij
      cases hr : p.reads[i]? with
      | none => rfl
      | some r =>
        have hdone : r.result ≠ none := by
          intro hnone
          rw [readPending, hr, Option.any_some, hnone] at h
          exact Bool.noConfusion h
        obtain ⟨x, hx⟩ := Option.ne_none_iff_exists'.mp hdone
        show some (r.complete result) = some r
        rw [ReadOperation.complete, hx]
    · exact id_map' _
  rw [SerialPort.readCompletes, hsame]

theorem Reading.readCompletes (h : p.Reading) (i : Nat) (result : ReadResult) : (p.readCompletes i result).Reading := by
  obtain ⟨r, hr, hopening⟩ := h
  obtain ⟨j, hj⟩ := List.mem_iff_getElem?.mp hr
  have hsame : (p.readCompletes i result).reads[j]? = some (if i = j then r.complete result else r) := by
    unfold SerialPort.readCompletes
    rw [List.getElem?_modify, hj]
    split_ifs <;> rfl
  refine ⟨_, List.mem_of_getElem? hsame, ?_⟩
  split_ifs
  · exact (read_complete_opening result r).trans hopening
  · exact hopening

end
end SerialPort
end Hdlcd
