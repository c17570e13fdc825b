import Hdlcd.Library.Reactive

/-! A monitor reads a history entry by entry. What it knows after a history permits the next
entry or not. -/

namespace Monitor

variable {α μ : Type*} (next : α → μ → μ)

/-- What the monitor knows after the entries. -/
def after (m : μ) (entries : List α) : μ := entries.foldl (fun m x => next x m) m

theorem after_append (m : μ) (xs ys : List α) :
    after next m (xs ++ ys) = after next (after next m xs) ys := List.foldl_append

@[simp] theorem after_concat (m : μ) (xs : List α) (x : α) :
    after next m (xs ++ [x]) = next x (after next m xs) := after_append next m xs [x]

theorem after_ignored {xs : List α} (h : ∀ x ∈ xs, ∀ m, next x m = m) (m : μ) : after next m xs = m := by
  induction xs generalizing m with
  | nil => rfl
  | cons x xs ih =>
    show after next (next x m) xs = m
    rw [h x (List.mem_cons_self ..), ih fun y hy => h y (List.mem_cons_of_mem _ hy)]

end Monitor
