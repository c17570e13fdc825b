import Mathlib.Data.List.Basic
import Mathlib.Order.Nat

/-! Lists that run through another list in order and may repeat each of its elements in
succession or leave it out. -/

namespace Replay

variable {α β : Type*}

/-- Each element as often as its count says; what has no count is left out. -/
def replay : List ℕ → List α → List α
  | n :: counts, x :: xs => List.replicate n x ++ replay counts xs
  | _, _ => []

@[simp] theorem replay_cons (n : ℕ) (counts : List ℕ) (x : α) (xs : List α) :
    replay (n :: counts) (x :: xs) = List.replicate n x ++ replay counts xs := rfl

theorem replay_concat {counts : List ℕ} {xs : List α} {x : α} (h : xs[counts.length]? = some x)
    (n : ℕ) : replay (counts ++ [n]) xs = replay counts xs ++ List.replicate n x := by
  induction counts generalizing xs with
  | nil =>
    cases xs with
    | nil => exact absurd h (Option.some_ne_none x).symm
    | cons y xs =>
      obtain rfl := Option.some.inj h
      cases xs <;> simp [replay]
  | cons m counts ih =>
    cases xs with
    | nil => exact absurd h (Option.some_ne_none x).symm
    | cons y xs =>
      have htail : xs[counts.length]? = some x := h
      rw [List.cons_append, replay_cons, replay_cons, ih htail, List.append_assoc]

theorem replay_zeros (n : ℕ) (xs : List α) : replay (List.replicate n 0) xs = [] := by
  induction n generalizing xs with
  | zero => cases xs <;> rfl
  | succ n ih =>
    cases xs with
    | nil => rfl
    | cons x xs => rw [List.replicate_succ, replay_cons, ih, List.replicate_zero, List.nil_append]

theorem replay_append_zeros (counts : List ℕ) (n : ℕ) (xs : List α) :
    replay (counts ++ List.replicate n 0) xs = replay counts xs := by
  induction counts generalizing xs with
  | nil =>
    rw [List.nil_append, replay_zeros]
    cases xs <;> rfl
  | cons m counts ih =>
    cases xs with
    | nil => rfl
    | cons x xs => rw [List.cons_append, replay_cons, replay_cons, ih]

theorem exists_replay_of_sublist {counts : List ℕ} {xs l : List α}
    (h : l.Sublist (replay counts xs)) :
    ∃ counts', counts'.length = counts.length ∧ l = replay counts' xs := by
  induction counts generalizing xs l with
  | nil =>
    refine ⟨[], rfl, ?_⟩
    cases xs <;> exact List.sublist_nil.mp h
  | cons n counts ih =>
    cases xs with
    | nil => exact ⟨n :: counts, rfl, List.sublist_nil.mp h⟩
    | cons x xs =>
      rw [replay_cons] at h
      obtain ⟨l₁, l₂, rfl, hhead, htail⟩ := List.sublist_append_iff.mp h
      obtain ⟨m, -, rfl⟩ := List.sublist_replicate_iff.mp hhead
      obtain ⟨counts', hlength, rfl⟩ := ih htail
      exact ⟨m :: counts', congrArg Nat.succ hlength, rfl⟩

def Replays (n : ℕ) (out xs : List α) : Prop :=
  ∃ counts : List ℕ, counts.length ≤ n ∧ counts.length ≤ xs.length ∧ out = replay counts xs

namespace Replays

variable {n m : ℕ} {out xs : List α}

theorem nil : Replays n [] xs := ⟨[], Nat.zero_le _, Nat.zero_le _, by cases xs <;> rfl⟩

theorem mono (h : Replays n out xs) (hnm : n ≤ m) : Replays m out xs := by
  obtain ⟨counts, hn, hxs, hout⟩ := h
  exact ⟨counts, hn.trans hnm, hxs, hout⟩

theorem sublist (h : Replays n out xs) {l : List α} (hl : l.Sublist out) : Replays n l xs := by
  obtain ⟨counts, hn, hxs, rfl⟩ := h
  obtain ⟨counts', hlength, hout⟩ := exists_replay_of_sublist hl
  exact ⟨counts', hlength.symm ▸ hn, hlength.symm ▸ hxs, hout⟩

theorem next (h : Replays (n + 1) out xs) {x : α} (hx : xs[n]? = some x) :
    Replays (n + 1) (out ++ [x]) xs := by
  obtain ⟨counts, hn, hxs, rfl⟩ := h
  have hlt : n < xs.length := (List.getElem?_eq_some_iff.mp hx).1
  rcases Nat.lt_or_eq_of_le hn with hbefore | hat
  · -- the elements that were skipped have the count zero
    obtain ⟨k, hk⟩ := Nat.exists_eq_add_of_le (Nat.le_of_lt_succ hbefore)
    have hlength : (counts ++ List.replicate k 0).length = n := by
      rw [List.length_append, List.length_replicate, hk]
    refine ⟨(counts ++ List.replicate k 0) ++ [1], ?_, ?_, ?_⟩
    · rw [List.length_append, hlength, List.length_singleton]
    · rw [List.length_append, hlength, List.length_singleton]
      exact hlt
    · rw [replay_concat (hlength.symm ▸ hx), replay_append_zeros, List.replicate_one]
  · obtain ⟨counts, m, rfl⟩ : ∃ before m, counts = before ++ [m] := by
      rcases List.eq_nil_or_concat counts with rfl | ⟨before, m, h⟩
      · exact absurd hat (Nat.succ_ne_zero n).symm
      · exact ⟨before, m, by rw [h, List.concat_eq_append]⟩
    have hlength : counts.length = n := by
      rw [List.length_append, List.length_singleton] at hat
      exact Nat.succ.inj hat
    have hx' : xs[counts.length]? = some x := hlength.symm ▸ hx
    refine ⟨counts ++ [m + 1], ?_, ?_, ?_⟩
    · rw [List.length_append, hlength, List.length_singleton]
    · rw [List.length_append, hlength, List.length_singleton]
      exact hlt
    · rw [replay_concat hx', replay_concat hx', List.replicate_succ', List.append_assoc]

end Replays
end Replay
