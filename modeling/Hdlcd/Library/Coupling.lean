import Hdlcd.Library.Reactive

/-! Two runs side by side: actions that keep a relation of the states and look the same
outside, and the events under which a run looks the same as one that leaves some of them out. -/

namespace Reactive

variable {σ ε ω : Type*}

/-- A relation of outputs that is decided piece by piece. -/
structure Piecewise (E : List ω → List ω → Prop) : Prop where
  nil : E [] []
  append : ∀ {o o' x x'}, E o o' → (E (o ++ x) (o' ++ x') ↔ E x x')

def Coupled (E : List ω → List ω → Prop) (R : σ → σ → Prop) (a b : Action σ ω) (s t : σ) : Prop :=
  R (a s).1 (b t).1 ∧ E (a s).2 (b t).2

namespace Coupled

open Reactive.Action
variable {E : List ω → List ω → Prop} {P R : σ → σ → Prop} {a a' b b' : Action σ ω} {s t : σ}

theorem update {f g : σ → σ} (hE : Piecewise E) (h : R (f s) (g t)) : Coupled E R (update f) (update g) s t :=
  ⟨h, hE.nil⟩

theorem skip (hE : Piecewise E) (h : R s t) : Coupled E R skip skip s t := ⟨h, hE.nil⟩

theorem emit {o o' : List ω} (ho : E o o') (h : R s t) : Coupled E R (emit o) (emit o') s t := ⟨h, ho⟩

theorem andThen (hE : Piecewise E) (h : Coupled E P a b s t) (h' : ∀ s t, P s t → Coupled E R a' b' s t) :
    Coupled E R (a.andThen a') (b.andThen b') s t := by
  obtain ⟨hrest, ho⟩ := h' _ _ h.1
  exact ⟨hrest, (hE.append h.2).mpr ho⟩

theorem update_andThen (hE : Piecewise E) {f g : σ → σ} (h : Coupled E R a b (f s) (g t)) :
    Coupled E R ((Action.update f).andThen a) ((Action.update g).andThen b) s t :=
  ⟨h.1, (hE.append hE.nil).mpr h.2⟩

theorem branch {c d : σ → Bool} (hcd : c s = d t) (ha : c s = true → Coupled E R a b s t)
    (hb : c s = false → Coupled E R a' b' s t) : Coupled E R (branch c a a') (branch d b b') s t := by
  cases hc : c s with
  | true =>
    have hs : Action.branch c a a' s = a s := if_pos hc
    have ht : Action.branch d b b' t = b t := if_pos (hcd.symm.trans hc)
    unfold Coupled
    rw [hs, ht]
    exact ha hc
  | false =>
    have hs : Action.branch c a a' s = a' s := if_neg (by simp [hc])
    have ht : Action.branch d b b' t = b' t := if_neg (by simp [← hcd, hc])
    unfold Coupled
    rw [hs, ht]
    exact hb hc

end Coupled

def Respects (E : List ω → List ω → Prop) (R : σ → σ → Prop) (a : Action σ ω) : Prop :=
  ∀ s t, R s t → Coupled E R a a s t

namespace Respects

open Reactive.Action
variable {E : List ω → List ω → Prop} {R : σ → σ → Prop} {a b : Action σ ω}

theorem skip (hE : Piecewise E) : Respects E R skip := fun _ _ h => .skip hE h

theorem update (hE : Piecewise E) {f : σ → σ} (hf : ∀ s t, R s t → R (f s) (f t)) : Respects E R (update f) :=
  fun s t h => .update hE (hf s t h)

theorem emit {o : List ω} (ho : E o o) : Respects E R (emit o) := fun _ _ h => .emit ho h

theorem andThen (hE : Piecewise E) (ha : Respects E R a) (hb : Respects E R b) : Respects E R (a.andThen b) :=
  fun s t h => .andThen hE (ha s t h) hb

theorem branch {c : σ → Bool} (hc : ∀ s t, R s t → c s = c t) (ha : Respects E R a) (hb : Respects E R b) :
    Respects E R (branch c a b) :=
  fun s t h => .branch (hc s t h) (fun _ => ha s t h) fun _ => hb s t h

theorem ite {p : Prop} [Decidable p] (ha : Respects E R a) (hb : Respects E R b) :
    Respects E R (if p then a else b) := by
  split_ifs
  · exact ha
  · exact hb

theorem run (hE : Piecewise E) {handler : ε → Action σ ω} (h : ∀ e, Respects E R (handler e)) (es : List ε) :
    Respects E R (run handler es) := by
  induction es with
  | nil => exact skip hE
  | cons e es ih => exact (h e).andThen hE ih

end Respects

theorem run_filter (handler : ε → Action σ ω) (keep : ε → Bool) (es : List ε) :
    run handler (es.filter keep) = run (fun e => if keep e then handler e else Action.skip) es := by
  induction es with
  | nil => rfl
  | cons e es ih =>
    by_cases hkeep : keep e = true
    · rw [List.filter_cons_of_pos hkeep, run, run, if_pos hkeep, ih]
    · rw [List.filter_cons_of_neg hkeep, run, if_neg hkeep, Action.skip_andThen, ih]

/-- If exactly the steps that meet `C` look the same in both runs, two runs look the same up to
every point exactly if all steps meet `C`. -/
theorem coupled_iff {E : List ω → List ω → Prop} (hE : Piecewise E) {handler handler' : ε → Action σ ω}
    {C : σ → ε → Prop} {R : σ → σ → Prop}
    (hstep : ∀ s t e, C s e → R s t → Coupled E R (handler e) (handler' e) s t)
    (hexact : ∀ s t e, ¬ C s e → R s t → ¬ E (handler e s).2 (handler' e t).2) {s t : σ} {es : List ε} (h : R s t) :
    (∀ pre, pre <+: es → E (run handler pre s).2 (run handler' pre t).2) ↔ Along handler C s es := by
  constructor
  · intro hall
    induction es generalizing s t with
    | nil => trivial
    | cons e es ih =>
      have hC : C s e := by
        by_contra hC
        have hfirst := hall [e] (List.prefix_append [e] es)
        rw [run_singleton, run_singleton] at hfirst
        exact hexact s t e hC h hfirst
      obtain ⟨hrelated, hsame⟩ := hstep s t e hC h
      refine ⟨hC, ih hrelated fun pre hpre => ?_⟩
      have hlater := hall (e :: pre) (List.cons_prefix_cons.mpr ⟨rfl, hpre⟩)
      exact (hE.append hsame).mp hlater
  · intro hC pre hpre
    induction es generalizing s t pre with
    | nil =>
      rw [List.prefix_nil.mp hpre]
      exact hE.nil
    | cons e es ih =>
      cases pre with
      | nil => exact hE.nil
      | cons e' pre =>
        obtain ⟨rfl, hrest⟩ := List.cons_prefix_cons.mp hpre
        obtain ⟨hrelated, hsame⟩ := hstep s t e' hC.1 h
        exact (hE.append hsame).mpr (ih hrelated hC.2 pre hrest)

end Reactive
