import Mathlib.Data.List.Basic

/-! Event handlers as actions that update a state and emit outputs, their runs over
lists of events, weakest preconditions, and the invariant rules for runs with and without a
history. -/

namespace Reactive

variable {σ ε ω τ : Type*}

abbrev Action (σ ω : Type*) := σ → σ × List ω

namespace Action

def skip : Action σ ω := fun s => (s, [])

def emit (outputs : List ω) : Action σ ω := fun s => (s, outputs)

def update (f : σ → σ) : Action σ ω := fun s => (f s, [])

def andThen (a b : Action σ ω) : Action σ ω := fun s =>
  ((b (a s).1).1, (a s).2 ++ (b (a s).1).2)

def branch (c : σ → Bool) (a b : Action σ ω) : Action σ ω := fun s => if c s then a s else b s

@[simp] theorem andThen_apply (a b : Action σ ω) (s : σ) :
    a.andThen b s = ((b (a s).1).1, (a s).2 ++ (b (a s).1).2) := rfl

theorem andThen_assoc (a b c : Action σ ω) :
    (a.andThen b).andThen c = a.andThen (b.andThen c) := by
  funext s
  simp only [andThen_apply, List.append_assoc]

theorem skip_andThen (a : Action σ ω) : skip.andThen a = a := by
  funext s
  simp only [andThen_apply, skip, List.nil_append]

theorem andThen_skip (a : Action σ ω) : a.andThen skip = a := by
  funext s
  simp only [andThen_apply, skip, List.append_nil]

end Action

def run (handler : ε → Action σ ω) : List ε → Action σ ω
  | [] => Action.skip
  | e :: es => (handler e).andThen (run handler es)

/-- Events and outputs in the order in which they occur. -/
def log (handler : ε → Action σ ω) : σ → List ε → List (ε ⊕ ω)
  | _, [] => []
  | s, e :: es =>
    .inl e :: ((handler e s).2.map .inr ++ log handler (handler e s).1 es)

/-- Every event meets `C` in the state in which it occurs. -/
def Along (handler : ε → Action σ ω) (C : σ → ε → Prop) : σ → List ε → Prop
  | _, [] => True
  | s, e :: es => C s e ∧ Along handler C (handler e s).1 es

instance instDecidableAlong (handler : ε → Action σ ω) (C : σ → ε → Prop) [∀ s e, Decidable (C s e)] :
    ∀ s es, Decidable (Along handler C s es)
  | _, [] => isTrue trivial
  | s, e :: es =>
    have := instDecidableAlong handler C (handler e s).1 es
    inferInstanceAs (Decidable (C s e ∧ Along handler C (handler e s).1 es))

variable (handler : ε → Action σ ω)

theorem run_append (as bs : List ε) :
    run handler (as ++ bs) = (run handler as).andThen (run handler bs) := by
  induction as with
  | nil => rw [List.nil_append, run, Action.skip_andThen]
  | cons a as ih => rw [List.cons_append, run, run, ih, Action.andThen_assoc]

theorem run_singleton (e : ε) : run handler [e] = handler e := by
  rw [run, run, Action.andThen_skip]

theorem log_concat (s : σ) (es : List ε) (e : ε) : log handler s (es ++ [e]) =
    log handler s es ++ .inl e :: (handler e (run handler es s).1).2.map .inr := by
  induction es generalizing s with
  | nil => simp only [List.nil_append, log, List.append_nil, run, Action.skip]
  | cons e' es ih =>
    simp only [List.cons_append, log, ih, List.append_assoc, run, Action.andThen_apply]

theorem log_append (s : σ) (as bs : List ε) :
    log handler s (as ++ bs) = log handler s as ++ log handler (run handler as s).1 bs := by
  induction as generalizing s with
  | nil => rfl
  | cons a as ih =>
    rw [List.cons_append, log, log, ih, List.cons_append, List.append_assoc]
    rfl

theorem run_map {δ : Type*} (f : δ → ε) (ds : List δ) :
    run handler (ds.map f) = run (fun d => handler (f d)) ds := by
  induction ds with
  | nil => rfl
  | cons d ds ih => rw [List.map_cons, run, run, ih]

theorem run_congr {handler' : ε → Action σ ω} {es : List ε} (h : ∀ e ∈ es, handler e = handler' e) :
    run handler es = run handler' es := by
  induction es with
  | nil => rfl
  | cons e es ih =>
    rw [run, run, h e (List.mem_cons_self ..), ih fun e' he' => h e' (List.mem_cons_of_mem _ he')]

theorem along_append (C : σ → ε → Prop) (s : σ) (as bs : List ε) :
    Along handler C s (as ++ bs) ↔
      Along handler C s as ∧ Along handler C (run handler as s).1 bs := by
  induction as generalizing s with
  | nil => simp only [List.nil_append, Along, run, Action.skip, true_and]
  | cons a as ih => simp only [List.cons_append, Along, ih, run, Action.andThen_apply, and_assoc]

theorem along_of_forall {C : σ → ε → Prop} {es : List ε} (h : ∀ e ∈ es, ∀ s, C s e) (s : σ) :
    Along handler C s es := by
  induction es generalizing s with
  | nil => trivial
  | cons e es ih =>
    exact ⟨h e (List.mem_cons_self ..) s, ih (fun e' he' => h e' (List.mem_cons_of_mem _ he')) _⟩

theorem Along.and {C D : σ → ε → Prop} {s : σ} {es : List ε} (hC : Along handler C s es)
    (hD : Along handler D s es) : Along handler (fun s e => C s e ∧ D s e) s es := by
  induction es generalizing s with
  | nil => trivial
  | cons e es ih => exact ⟨⟨hC.1, hD.1⟩, ih hC.2 hD.2⟩

theorem Along.mono {C D : σ → ε → Prop} (hCD : ∀ s e, C s e → D s e) {s : σ} {es : List ε}
    (hC : Along handler C s es) : Along handler D s es := by
  induction es generalizing s with
  | nil => trivial
  | cons e es ih => exact ⟨hCD s e hC.1, ih hC.2⟩

theorem run_invariant {C : σ → ε → Prop} {I : σ → Prop}
    (hstep : ∀ s e, C s e → I s → I (handler e s).1) {s : σ} {es : List ε}
    (hs : I s) (hC : Along handler C s es) : I (run handler es s).1 := by
  induction es generalizing s with
  | nil => exact hs
  | cons e es ih => exact ih (hstep s e hC.1 hs) hC.2

theorem along_iff {C D : σ → ε → Prop} {I : σ → Prop} (hiff : ∀ s e, I s → (C s e ↔ D s e))
    (hstep : ∀ s e, D s e → I s → I (handler e s).1) {s : σ} {es : List ε} (hs : I s) :
    Along handler C s es ↔ Along handler D s es := by
  induction es generalizing s with
  | nil => exact Iff.rfl
  | cons e es ih =>
    constructor
    · rintro ⟨hC, hrest⟩
      have hD := (hiff s e hs).mp hC
      exact ⟨hD, (ih (hstep s e hD hs)).mp hrest⟩
    · rintro ⟨hD, hrest⟩
      exact ⟨(hiff s e hs).mpr hD, (ih (hstep s e hD hs)).mpr hrest⟩

/-- If every step that misses `C` leads out of `G`, a run stays in `G` exactly if all its
steps meet `C`. -/
theorem reached_iff_along {C : σ → ε → Prop} {I G : σ → Prop}
    (hstep : ∀ s e, C s e → I s → I (handler e s).1) (hgood : ∀ s, I s → G s)
    (hbad : ∀ s e, ¬ C s e → I s → ¬ G (handler e s).1) {s : σ} {es : List ε} (hs : I s) :
    (∀ pre, pre <+: es → G (run handler pre s).1) ↔ Along handler C s es := by
  constructor
  · intro hall
    induction es generalizing s with
    | nil => trivial
    | cons e es ih =>
      have hC : C s e := by
        by_contra hC
        have hfirst := hall [e] (List.prefix_append [e] es)
        rw [run_singleton] at hfirst
        exact hbad s e hC hs hfirst
      refine ⟨hC, ih (hstep s e hC hs) fun pre hpre => ?_⟩
      exact hall (e :: pre) (List.cons_prefix_cons.mpr ⟨rfl, hpre⟩)
  · rintro hC pre ⟨post, rfl⟩
    exact hgood _ (run_invariant handler hstep hs ((along_append handler C s pre post).mp hC).1)

abbrev Assertion (σ ω : Type*) := σ → List ω → Prop

namespace Action

variable {a b : Action σ ω} {P Q : Assertion σ ω} {s : σ} {o : List ω}

def wp (a : Action σ ω) (Q : Assertion σ ω) : Assertion σ ω := fun s o => Q (a s).1 (o ++ (a s).2)

@[simp] theorem wp_skip : (skip : Action σ ω).wp Q s o ↔ Q s o := by
  simp only [wp, skip, List.append_nil]

@[simp] theorem wp_emit {outputs : List ω} : (emit outputs).wp Q s o ↔ Q s (o ++ outputs) := by
  simp only [wp, emit]

@[simp] theorem wp_update {f : σ → σ} : (update f : Action σ ω).wp Q s o ↔ Q (f s) o := by
  simp only [wp, update, List.append_nil]

@[simp] theorem wp_andThen : (a.andThen b).wp Q s o ↔ a.wp (b.wp Q) s o := by
  simp only [wp, andThen_apply, List.append_assoc]

theorem wp_branch {c : σ → Bool} (ha : c s = true → a.wp Q s o) (hb : c s = false → b.wp Q s o) :
    (branch c a b).wp Q s o := by
  cases hc : c s with
  | true => simpa only [wp, branch, hc, if_true] using ha hc
  | false => simpa only [wp, branch, hc, Bool.false_eq_true, if_false] using hb hc

theorem wp_of_eq {s' : σ} (h : a s = b s') (hb : b.wp Q s' o) : a.wp Q s o := by
  unfold wp
  rw [h]
  exact hb

theorem wp_mono (h : a.wp P s o) (hPQ : ∀ s o, P s o → Q s o) : a.wp Q s o := hPQ _ _ h

theorem wp_run {handler : ε → Action σ ω} {es : List ε}
    (h : ∀ e ∈ es, ∀ s o, P s o → (handler e).wp P s o) (hs : P s o) : (run handler es).wp P s o := by
  induction es generalizing s o with
  | nil => exact wp_skip.mpr hs
  | cons e es ih =>
    have htail : ∀ s o, P s o → (run handler es).wp P s o :=
      fun s o hP => ih (fun e' he' => h e' (List.mem_cons_of_mem _ he')) hP
    exact wp_andThen.mpr (wp_mono (h e (List.mem_cons_self ..) s o hs) htail)

theorem wp_along {handler : ε → Action σ ω} {C : σ → ε → Prop} {es : List ε}
    (h : ∀ s o e, C s e → P s o → (handler e).wp P s o) (hs : P s o) (hC : Along handler C s es) :
    (run handler es).wp P s o := by
  induction es generalizing s o with
  | nil => exact wp_skip.mpr hs
  | cons e es ih => exact wp_andThen.mpr (ih (h s o e hC.1 hs) hC.2)

def Maintains (Q : Assertion σ ω) (a : Action σ ω) : Prop := ∀ s o, Q s o → a.wp Q s o

namespace Maintains

theorem skip : Maintains Q skip := fun _ _ hs => wp_skip.mpr hs

theorem emit {outputs : List ω} (h : ∀ s o, Q s o → Q s (o ++ outputs)) : Maintains Q (emit outputs) :=
  fun s o hs => wp_emit.mpr (h s o hs)

theorem update {f : σ → σ} (h : ∀ s o, Q s o → Q (f s) o) : Maintains Q (update f) :=
  fun s o hs => wp_update.mpr (h s o hs)

theorem andThen (ha : Maintains Q a) (hb : Maintains Q b) : Maintains Q (a.andThen b) :=
  fun s o hs => wp_andThen.mpr (wp_mono (ha s o hs) hb)

theorem branch {c : σ → Bool} (ha : Maintains Q a) (hb : Maintains Q b) : Maintains Q (branch c a b) :=
  fun s o hs => wp_branch (fun _ => ha s o hs) fun _ => hb s o hs

theorem ite {p : Prop} [Decidable p] (ha : Maintains Q a) (hb : Maintains Q b) :
    Maintains Q (if p then a else b) := by
  split_ifs
  · exact ha
  · exact hb

theorem run {handler : ε → Action σ ω} {es : List ε} (h : ∀ e ∈ es, Maintains Q (handler e)) :
    Maintains Q (run handler es) := fun _ _ hs => wp_run h hs

end Maintains
end Action

def recorded (I : σ → List (ε ⊕ ω) → Prop) (h : List (ε ⊕ ω)) : Assertion σ ω :=
  fun s o => I s (h ++ o.map .inr)

theorem recorded_nil {I : σ → List (ε ⊕ ω) → Prop} {h : List (ε ⊕ ω)} {s : σ} :
    recorded I h s [] ↔ I s h := by
  rw [recorded, List.map_nil, List.append_nil]

theorem recorded_concat {I : σ → List (ε ⊕ ω) → Prop} {h : List (ε ⊕ ω)} {s : σ} {o : List ω}
    {x : ω} : recorded I h s (o ++ [x]) ↔ I s (h ++ o.map .inr ++ [.inr x]) := by
  simp only [recorded, List.map_append, List.map_cons, List.map_nil, List.append_assoc]

theorem wp_recorded {I : σ → List (ε ⊕ ω) → Prop} {a : Action σ ω} {h : List (ε ⊕ ω)} {s : σ}
    {x : ω} : a.wp (recorded I h) s [x] ↔ a.wp (recorded I (h ++ [.inr x])) s [] := by
  simp only [Action.wp, recorded, List.map_append, List.map_cons, List.map_nil, List.nil_append,
    List.append_assoc]

/-- A relation between state and history that every step keeps holds after every run
whose steps meet `C`. -/
theorem history_invariant {C : σ → ε → Prop} {I : σ → List (ε ⊕ ω) → Prop}
    (hstep : ∀ s h e, C s e → I s h → (handler e).wp (recorded I (h ++ [.inl e])) s [])
    {s : σ} {h : List (ε ⊕ ω)} {es : List ε} (hs : I s h) (hC : Along handler C s es) :
    I (run handler es s).1 (h ++ log handler s es) := by
  induction es generalizing s h with
  | nil => simpa only [log, List.append_nil, run, Action.skip] using hs
  | cons e es ih =>
    have hr := ih (hstep s h e hC.1 hs) hC.2
    simpa only [log, run, Action.andThen_apply, List.append_assoc, List.cons_append,
      List.nil_append] using hr

def Justified {β : Type*} (J : List β → β → Prop) (l : List β) : Prop :=
  ∀ pre x post, l = pre ++ x :: post → J pre x

theorem Justified.nil {β : Type*} {J : List β → β → Prop} : Justified J [] := by
  intro pre x post h
  simp at h

theorem Justified.concat {β : Type*} {J : List β → β → Prop} {l : List β} {x : β}
    (hl : Justified J l) (hx : J l x) : Justified J (l ++ [x]) := by
  intro pre y post h
  rcases List.eq_nil_or_concat post with rfl | ⟨post', z, rfl⟩
  · obtain ⟨rfl, hxy⟩ := List.append_inj' h rfl
    obtain ⟨rfl, _⟩ := List.cons.inj hxy
    exact hx
  · rw [List.concat_eq_append, ← List.cons_append, ← List.append_assoc] at h
    exact hl pre y post' (List.append_inj' h rfl).1

end Reactive
