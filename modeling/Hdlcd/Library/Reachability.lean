import Hdlcd.Library.Reactive

/-! What a run can still reach from a state while each of its steps meets a condition: the
rules for composing such runs, for invariants along them, and for descending measures. -/

namespace Reactive

variable {σ ε ω : Type*}

def CanReach (handler : ε → Action σ ω) (C : σ → ε → Prop) (G : σ → Prop) (s : σ) : Prop :=
  ∃ es, Along handler C s es ∧ G (run handler es s).1

namespace CanReach

variable {handler : ε → Action σ ω} {C : σ → ε → Prop} {G G' I : σ → Prop} {s : σ}

theorem here (h : G s) : CanReach handler C G s := ⟨[], trivial, h⟩

theorem step {e : ε} (he : C s e) (h : CanReach handler C G (handler e s).1) : CanReach handler C G s := by
  obtain ⟨es, hes, hG⟩ := h
  exact ⟨e :: es, ⟨he, hes⟩, hG⟩

theorem mono (h : CanReach handler C G s) (hG : ∀ t, G t → G' t) : CanReach handler C G' s := by
  obtain ⟨es, hes, ht⟩ := h
  exact ⟨es, hes, hG _ ht⟩

theorem trans (h : CanReach handler C G s) (hnext : ∀ t, G t → CanReach handler C G' t) :
    CanReach handler C G' s := by
  obtain ⟨es, hes, ht⟩ := h
  obtain ⟨es', hes', ht'⟩ := hnext _ ht
  refine ⟨es ++ es', (along_append handler C s es es').mpr ⟨hes, hes'⟩, ?_⟩
  rw [run_append]
  exact ht'

theorem keeps (hstep : ∀ s e, C s e → I s → I (handler e s).1) (hs : I s)
    (h : CanReach handler C G s) : CanReach handler C (fun t => I t ∧ G t) s := by
  obtain ⟨es, hes, ht⟩ := h
  exact ⟨es, hes, run_invariant handler hstep hs hes, ht⟩

theorem of_measure (m : σ → ℕ) (hless : ∀ s, I s → ¬ G s → CanReach handler C (fun t => I t ∧ m t < m s) s)
    (hs : I s) : CanReach handler C G s := by
  induction hm : m s using Nat.strongRecOn generalizing s with
  | ind n ih =>
    subst hm
    by_cases hG : G s
    · exact here hG
    · exact (hless s hs hG).trans fun t ht => ih (m t) ht.2 ht.1 rfl

end CanReach
end Reactive
