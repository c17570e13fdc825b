import Mathlib.Data.List.Basic

/-! A deadline timer with asynchronous waits. A handler whose deadline has passed is
queued with a success code and runs later; cancelling the timer no longer reaches it. -/

structure DeadlineTimer (η : Type*) where
  pending : Option η := none
  queued : List η := []
  deriving DecidableEq, Repr

namespace DeadlineTimer

variable {η : Type*}

def cancel (t : DeadlineTimer η) : DeadlineTimer η := { t with pending := none }

def asyncWait (t : DeadlineTimer η) (handler : η) : DeadlineTimer η :=
  { t with pending := some handler }

def expire (t : DeadlineTimer η) : DeadlineTimer η :=
  match t.pending with
  | some handler => { pending := none, queued := t.queued ++ [handler] }
  | none => t

def complete [DecidableEq η] (t : DeadlineTimer η) (handler : η) : DeadlineTimer η :=
  { t with queued := t.queued.erase handler }

def Armed (t : DeadlineTimer η) (handler : η) : Prop :=
  t.pending = some handler ∨ handler ∈ t.queued

instance [DecidableEq η] (t : DeadlineTimer η) (handler : η) : Decidable (t.Armed handler) :=
  inferInstanceAs (Decidable (_ ∨ _))

theorem armed_asyncWait (t : DeadlineTimer η) (handler : η) : (t.asyncWait handler).Armed handler :=
  .inl rfl

theorem Armed.expire {t : DeadlineTimer η} {handler : η} (h : t.Armed handler) :
    t.expire.Armed handler := by
  rcases h with h | h
  · exact .inr (by simp [DeadlineTimer.expire, h])
  · cases hp : t.pending with
    | none => exact .inr (by simpa [DeadlineTimer.expire, hp] using h)
    | some handler' => exact .inr (by simp [DeadlineTimer.expire, hp, h])

theorem Armed.of_expire {t : DeadlineTimer η} {handler : η} (h : t.expire.Armed handler) :
    t.Armed handler := by
  cases hp : t.pending with
  | none =>
    rw [DeadlineTimer.expire, hp] at h
    exact h
  | some handler' =>
    rcases h with h | h
    · simp [DeadlineTimer.expire, hp] at h
    · simp only [DeadlineTimer.expire, hp, List.mem_append, List.mem_singleton] at h
      rcases h with h | rfl
      · exact .inr h
      · exact .inl hp

theorem Armed.queued_expire {t : DeadlineTimer η} {handler : η} (h : t.Armed handler) :
    handler ∈ t.expire.queued := by
  rcases h with h | h
  · simp [DeadlineTimer.expire, h]
  · unfold DeadlineTimer.expire
    split
    · exact List.mem_append_left _ h
    · exact h

theorem Armed.complete [DecidableEq η] {t : DeadlineTimer η} {handler handler' : η}
    (h : t.Armed handler) (hne : handler ≠ handler') : (t.complete handler').Armed handler := by
  rcases h with h | h
  · exact .inl h
  · exact .inr ((List.mem_erase_of_ne hne).mpr h)

end DeadlineTimer
