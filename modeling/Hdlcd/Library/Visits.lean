import Mathlib.Data.List.Basic

/-! Calls that go through the entries of a list, some of them inside others. A call that has not
returned is a task: its number, and the entries that it has before it. The list may grow and
shrink in the meantime; what was in it when a call began is reached once. -/

namespace Visits

variable {α : Type*}

inductive Mark (α : Type*)
  | begun (call : Nat) (entries : List α)
  | reached (call : Nat) (entry : α)
  | returned (call : Nat)

def Mark.call : Mark α → Nat
  | .begun call _ | .reached call _ | .returned call => call

abbrev Task (α : Type*) := Nat × List α

def visit (call : Nat) : Mark α → Option α
  | .reached call' a => if call' = call then some a else none
  | _ => none

def reached (call : Nat) (marks : List (Mark α)) : List α := marks.filterMap (visit call)

theorem visit_other {call call' : Nat} (h : call' ≠ call) (a : α) : visit call (.reached call' a) = none :=
  if_neg h

theorem reached_append (call : Nat) (marks marks' : List (Mark α)) :
    reached call (marks ++ marks') = reached call marks ++ reached call marks' := List.filterMap_append

theorem reached_of_other {call : Nat} {marks : List (Mark α)} (h : ∀ m ∈ marks, m.call ≠ call) :
    reached call marks = [] := by
  apply List.filterMap_eq_nil_iff.mpr
  intro m hm
  have hcall := h m hm
  cases m with
  | reached call' a => exact visit_other hcall a
  | begun | returned => rfl

theorem reached_reach (call : Nat) (marks : List (Mark α)) (a : α) :
    reached call (marks ++ [.reached call a]) = reached call marks ++ [a] := by
  rw [reached_append, reached, reached, List.filterMap_cons, visit, if_pos rfl]
  rfl

theorem reached_concat {call : Nat} {m : Mark α} (h : visit call m = none) (marks : List (Mark α)) :
    reached call (marks ++ [m]) = reached call marks := by
  rw [reached_append, reached, reached, List.filterMap_cons, h]
  exact List.append_nil _

theorem fresh_concat {n : Nat} {marks : List (Mark α)} {m : Mark α}
    (h : ∀ m ∈ marks, m.call < n) (hm : m.call < n) :
    ∀ m' ∈ marks ++ [m], m'.call < n := by
  intro m' hm'
  rcases List.mem_append.mp hm' with hold | hnew
  · exact h m' hold
  · rwa [List.mem_singleton.mp hnew]

variable [DecidableEq α] {n call : Nat} {a : α} {rest entries : List α} {tasks : List (Task α)}
  {marks : List (Mark α)}

/-- Calls below `n` have begun. Those among the tasks still have their entries before them, and
the others have reached theirs and returned. -/
structure Kept (n : Nat) (tasks : List (Task α)) (marks : List (Mark α)) : Prop where
  fresh : ∀ m ∈ marks, m.call < n
  tasksFresh : ∀ t ∈ tasks, t.1 < n
  distinct : (tasks.map Prod.fst).Nodup
  running : ∀ t ∈ tasks, ∀ entries, .begun t.1 entries ∈ marks →
    (reached t.1 marks ++ t.2).filter (· ∈ entries) = entries
  finished : ∀ call entries, .begun call entries ∈ marks → call ∉ tasks.map Prod.fst →
    (reached call marks).filter (· ∈ entries) = entries ∧ .returned call ∈ marks
  returned : ∀ call, .returned call ∈ marks → call ∉ tasks.map Prod.fst

theorem Kept.initial : Kept (α := α) 0 [] [] where
  fresh := by simp
  tasksFresh := by simp
  distinct := List.nodup_nil
  running := by simp
  finished := by simp
  returned := by simp

namespace Kept

theorem enter (h : Kept n tasks marks) (entries : List α) :
    Kept (n + 1) ((n, entries) :: tasks) (marks ++ [.begun n entries]) where
  fresh := fresh_concat (fun m hm => Nat.lt_succ_of_lt (h.fresh m hm)) (Nat.lt_succ_self n)
  tasksFresh := by
    intro t ht
    rcases List.mem_cons.mp ht with rfl | ht
    · exact Nat.lt_succ_self n
    · exact Nat.lt_succ_of_lt (h.tasksFresh t ht)
  distinct := by
    apply List.nodup_cons.mpr ⟨_, h.distinct⟩
    intro hmem
    obtain ⟨t, ht, heq⟩ := List.mem_map.mp hmem
    exact absurd heq (Nat.ne_of_lt (h.tasksFresh t ht))
  running := by
    intro t ht entries' hbegun
    rw [reached_concat rfl]
    rcases List.mem_cons.mp ht with rfl | ht
    · rcases List.mem_append.mp hbegun with hold | hnew
      · exact absurd (h.fresh _ hold) (Nat.lt_irrefl n)
      · obtain rfl : entries' = entries := by simpa using hnew
        rw [reached_of_other fun m hm => Nat.ne_of_lt (h.fresh m hm), List.nil_append]
        exact List.filter_eq_self.mpr fun a ha => decide_eq_true ha
    · rcases List.mem_append.mp hbegun with hold | hnew
      · exact h.running t ht entries' hold
      · have heq : t.1 = n := (Mark.begun.inj (List.mem_singleton.mp hnew)).1
        exact absurd heq (Nat.ne_of_lt (h.tasksFresh t ht))
  finished := by
    intro call entries' hbegun hidle
    rw [List.map_cons, List.mem_cons, not_or] at hidle
    rw [reached_concat rfl]
    rcases List.mem_append.mp hbegun with hold | hnew
    · obtain ⟨hreached, hreturned⟩ := h.finished call entries' hold hidle.2
      exact ⟨hreached, List.mem_append_left _ hreturned⟩
    · exact absurd (Mark.begun.inj (List.mem_singleton.mp hnew)).1 hidle.1
  returned := by
    intro call hreturned
    have hold : Mark.returned call ∈ marks := by simpa using hreturned
    rw [List.map_cons, List.mem_cons, not_or]
    exact ⟨Nat.ne_of_lt (h.fresh _ hold), h.returned call hold⟩

theorem reach (h : Kept n ((call, a :: rest) :: tasks) marks) :
    Kept n ((call, rest) :: tasks) (marks ++ [.reached call a]) where
  fresh := fresh_concat h.fresh (h.tasksFresh (call, a :: rest) (List.mem_cons_self ..))
  tasksFresh := by
    intro t ht
    rcases List.mem_cons.mp ht with rfl | ht
    · exact h.tasksFresh (call, a :: rest) (List.mem_cons_self ..)
    · exact h.tasksFresh t (List.mem_cons_of_mem _ ht)
  distinct := h.distinct
  running := by
    intro t ht entries hbegun
    have hold : Mark.begun t.1 entries ∈ marks := by simpa using hbegun
    rcases List.mem_cons.mp ht with rfl | htail
    · rw [reached_reach, List.append_assoc]
      exact h.running (call, a :: rest) (List.mem_cons_self ..) entries hold
    · have hother : call ≠ t.1 := by
        rintro rfl
        have hmem : t.1 ∈ tasks.map Prod.fst := List.mem_map_of_mem htail
        exact (List.nodup_cons.mp h.distinct).1 hmem
      rw [reached_concat (visit_other hother a)]
      exact h.running t (List.mem_cons_of_mem _ htail) entries hold
  finished := by
    intro call' entries hbegun hidle
    have hold : Mark.begun call' entries ∈ marks := by simpa using hbegun
    have hother : call ≠ call' := by
      rintro rfl
      exact hidle (List.mem_cons_self ..)
    obtain ⟨hreached, hreturned⟩ := h.finished call' entries hold hidle
    rw [reached_concat (visit_other hother a)]
    exact ⟨hreached, List.mem_append_left _ hreturned⟩
  returned := by
    intro call' hreturned
    exact h.returned call' (by simpa using hreturned)

theorem leave (h : Kept n ((call, []) :: tasks) marks) : Kept n tasks (marks ++ [.returned call]) where
  fresh := fresh_concat h.fresh (h.tasksFresh (call, []) (List.mem_cons_self ..))
  tasksFresh := fun t ht => h.tasksFresh t (List.mem_cons_of_mem _ ht)
  distinct := (List.nodup_cons.mp h.distinct).2
  running := by
    intro t ht entries hbegun
    rw [reached_concat rfl]
    exact h.running t (List.mem_cons_of_mem _ ht) entries (by simpa using hbegun)
  finished := by
    intro call' entries hbegun hidle
    have hold : Mark.begun call' entries ∈ marks := by simpa using hbegun
    rw [reached_concat rfl]
    by_cases hcall : call' = call
    · subst hcall
      have hall := h.running (call', []) (List.mem_cons_self ..) entries hold
      rw [List.append_nil] at hall
      exact ⟨hall, List.mem_append_right _ (List.mem_singleton_self _)⟩
    · obtain ⟨hreached, hreturned⟩ := h.finished call' entries hold (by simp [hcall, hidle])
      exact ⟨hreached, List.mem_append_left _ hreturned⟩
  returned := by
    intro call' hreturned
    rcases List.mem_append.mp hreturned with hold | hnew
    · exact fun hmem => h.returned call' hold (List.mem_cons_of_mem _ hmem)
    · rw [Mark.returned.inj (List.mem_singleton.mp hnew)]
      exact (List.nodup_cons.mp h.distinct).1

theorem extend (h : Kept n tasks marks) {f : List α → List α}
    (hf : ∀ call entries, .begun call entries ∈ marks →
      ∀ rest, (f rest).filter (· ∈ entries) = rest.filter (· ∈ entries)) :
    Kept n (tasks.map fun t => (t.1, f t.2)) marks := by
  have hcalls : (tasks.map fun t => (t.1, f t.2)).map Prod.fst = tasks.map Prod.fst := by
    rw [List.map_map]
    rfl
  constructor
  · exact h.fresh
  · intro t' ht'
    obtain ⟨t, ht, rfl⟩ := List.mem_map.mp ht'
    exact h.tasksFresh t ht
  · rw [hcalls]
    exact h.distinct
  · intro t' ht' entries hbegun
    obtain ⟨t, ht, rfl⟩ := List.mem_map.mp ht'
    rw [List.filter_append, hf t.1 entries hbegun, ← List.filter_append]
    exact h.running t ht entries hbegun
  · rw [hcalls]
    exact h.finished
  · rw [hcalls]
    exact h.returned

/-- What was in the list when the call began is reached at most once, and once when the call has
returned. -/
theorem count_reached (h : Kept n tasks marks) (hbegun : .begun call entries ∈ marks)
    (hnodup : entries.Nodup) (ha : a ∈ entries) :
    (reached call marks).count a ≤ 1 ∧
      (.returned call ∈ marks → (reached call marks).count a = 1) := by
  have hone : entries.count a = 1 := by rw [hnodup.count, if_pos ha]
  have hcount : ∀ l : List α, (l.filter (· ∈ entries)).count a = l.count a :=
    fun l => List.count_filter (decide_eq_true ha)
  constructor
  · by_cases hidle : call ∈ tasks.map Prod.fst
    · obtain ⟨t, ht, rfl⟩ := List.mem_map.mp hidle
      rw [← h.running t ht entries hbegun, hcount, List.count_append] at hone
      omega
    · rw [← (h.finished call entries hbegun hidle).1, hcount] at hone
      exact Nat.le_of_eq hone
  · intro hreturned
    rw [← hcount, (h.finished call entries hbegun (h.returned call hreturned)).1, hone]

end Kept
end Visits
