import Mathlib.Data.Fintype.Pi
import Mathlib.Data.List.Chain

/-! Acknowledgement numbers under way to a sender that sends one payload at a time. The
sender takes over every number it receives, and counts the successor of its current number
as the acknowledgement of the payload at hand. A number under way may be tagged with the payload
that has arrived when it is sent. Numbers may be lost and repeated. -/

namespace AckTrail

variable {ν τ : Type*} {next : ν → ν}

def Clean (next : ν → ν) (ns : List ν) : Prop := ns.Pairwise fun m n => n ≠ next m

instance [DecidableEq ν] (next : ν → ν) (ns : List ν) : Decidable (Clean next ns) :=
  inferInstanceAs (Decidable (List.Pairwise _ _))

/-- When a number comes before its successor, no number does so from there on, and none of those
that came up to it comes again. -/
structure Once (next : ν → ν) (ns : List ν) : Prop where
  onward : ∀ m, ¬ [m, next m, next (next m)].Sublist ns
  later : ∀ m n, ¬ [m, next m, n, next n].Sublist ns
  back : ∀ m, ¬ [m, next m, m].Sublist ns
  ahead : ∀ m, ¬ [next m, m, next m].Sublist ns
  around : ∀ m n, ¬ [n, m, next m, n].Sublist ns

instance [DecidableEq ν] [Fintype ν] (next : ν → ν) (ns : List ν) : Decidable (Once next ns) :=
  decidable_of_iff ((∀ m, ¬ [m, next m, next (next m)].Sublist ns) ∧
      (∀ m n, ¬ [m, next m, n, next n].Sublist ns) ∧ (∀ m, ¬ [m, next m, m].Sublist ns) ∧
      (∀ m, ¬ [next m, m, next m].Sublist ns) ∧ ∀ m n, ¬ [n, m, next m, n].Sublist ns)
    ⟨fun ⟨h, h', h'', h''', h''''⟩ => ⟨h, h', h'', h''', h''''⟩,
      fun h => ⟨h.onward, h.later, h.back, h.ahead, h.around⟩⟩

section
variable {s n : ν} {ns ms : List ν}

theorem Clean.sublist (h : Clean next ms) (hs : ns.Sublist ms) : Clean next ns := List.Pairwise.sublist hs h

theorem Clean.not_sublist (h : Clean next ns) (m : ν) : ¬ [m, next m].Sublist ns := fun hs =>
  List.rel_of_pairwise_cons (h.sublist hs) (List.mem_singleton_self _) rfl

theorem clean_of_not_sublist (h : ∀ m, ¬ [m, next m].Sublist ns) : Clean next ns := by
  refine List.pairwise_iff_forall_sublist.mpr fun {m n} hs hn => ?_
  rw [hn] at hs
  exact h m hs

theorem Clean.once (h : Clean next ns) : Once next ns where
  onward m hs := h.not_sublist m ((List.prefix_append [m, next m] [_]).sublist.trans hs)
  later m n hs := h.not_sublist m ((List.prefix_append [m, next m] [n, next n]).sublist.trans hs)
  back m hs := h.not_sublist m ((List.prefix_append [m, next m] [m]).sublist.trans hs)
  ahead m hs := h.not_sublist m ((List.sublist_cons_self (next m) [m, next m]).trans hs)
  around m n hs := h.not_sublist m
    (((List.prefix_append [m, next m] [n]).sublist.trans (List.sublist_cons_self n _)).trans hs)

theorem Once.sublist (h : Once next ms) (hs : ns.Sublist ms) : Once next ns where
  onward m hm := h.onward m (hm.trans hs)
  later m n hm := h.later m n (hm.trans hs)
  back m hm := h.back m (hm.trans hs)
  ahead m hm := h.ahead m (hm.trans hs)
  around m n hm := h.around m n (hm.trans hs)

theorem sublist_stutter {α : Type*} {ks xs ys : List α} {n : α} (hks : ks.IsChain (· ≠ ·))
    (h : ks.Sublist (xs ++ n :: n :: ys)) : ks.Sublist (xs ++ n :: ys) := by
  obtain ⟨as, bs, rfl, has, hbs⟩ := List.sublist_append_iff.mp h
  refine has.append ?_
  cases bs with
  | nil => exact List.nil_sublist _
  | cons b bs =>
    rcases List.sublist_cons_iff.mp hbs with hskip | ⟨r, hr, hrest⟩
    · exact hskip
    · obtain ⟨rfl, rfl⟩ := List.cons.inj hr
      rcases List.sublist_cons_iff.mp hrest with hskip | ⟨r, rfl, _⟩
      · exact hskip.cons_cons b
      · have hne := (List.isChain_append.mp hks).2.1
        exact absurd rfl (List.isChain_cons_cons.mp hne).1

theorem Clean.stutter (hne : ∀ n, n ≠ next n) (ms : List ν) (h : Clean next (ms ++ n :: ns)) :
    Clean next (ms ++ n :: n :: ns) :=
  clean_of_not_sublist fun m hs => h.not_sublist m (sublist_stutter (by simp [hne]) hs)

theorem Once.stutter (hne : ∀ n, n ≠ next n) (ms : List ν) (h : Once next (ms ++ n :: ns)) :
    Once next (ms ++ n :: n :: ns) where
  onward m hs := h.onward m (sublist_stutter (by simp [hne]) hs)
  later m k hs := by
    by_cases hk : next m = k
    · subst hk
      refine h.onward m (sublist_stutter (by simp [hne]) (.trans ?_ hs))
      exact ((List.sublist_cons_self _ _).cons_cons _).cons_cons m
    · exact h.later m k (sublist_stutter (by simp [hne, hk]) hs)
  back m hs := h.back m (sublist_stutter (by simp [hne, (hne m).symm]) hs)
  ahead m hs := h.ahead m (sublist_stutter (by simp [hne, (hne m).symm]) hs)
  around m k hs := by
    by_cases hk : k = m
    · subst hk
      exact h.back k (sublist_stutter (by simp [hne, (hne k).symm]) ((List.sublist_cons_self k _).trans hs))
    by_cases hk' : next m = k
    · subst hk'
      refine h.ahead m (sublist_stutter (by simp [hne, (hne m).symm]) (.trans ?_ hs))
      exact (List.prefix_append [next m, m, next m] [next m]).sublist
    · exact h.around m k (sublist_stutter (by simp [hne, hk, hk']) hs)

theorem Once.acknowledged (h : Once next (s :: next s :: ns)) : Clean next (next s :: ns) := by
  refine clean_of_not_sublist fun m hs => ?_
  rcases List.sublist_cons_iff.mp hs with hskip | ⟨r, hr, hrest⟩
  · exact h.later s m ((hskip.cons_cons _).cons_cons s)
  · obtain ⟨rfl, rfl⟩ := List.cons.inj hr
    exact h.onward s ((hrest.cons_cons _).cons_cons s)

theorem Once.send (hne : ∀ n, n ≠ next n) (hinj : Function.Injective next) (h : Once next (s :: ns)) :
    Once next (s :: (ns ++ [next s])) := by
  -- a pattern that ends with the new number, and one that does not begin with `s`
  have hlast (ks : List ν) {k : ν} (hks : (ks ++ [k]).Sublist (s :: (ns ++ [next s])))
      (hold : ¬ (ks ++ [k]).Sublist (s :: ns)) : k = next s ∧ ks.Sublist (s :: ns) := by
    rw [← List.cons_append] at hks
    obtain ⟨as, bs, heq, has, hbs⟩ := List.sublist_append_iff.mp hks
    rcases List.sublist_singleton.mp hbs with rfl | rfl
    · rw [List.append_nil] at heq
      exact absurd (heq ▸ has) hold
    · obtain ⟨rfl, hk⟩ := List.append_inj' heq rfl
      exact ⟨List.singleton_injective hk, has⟩
  have hcons {ks : List ν} {k : ν} (hks : (k :: ks).Sublist (s :: ns)) (hk : k ≠ s) :
      (s :: k :: ks).Sublist (s :: ns) := by
    rcases List.sublist_cons_iff.mp hks with hskip | ⟨r, hr, _⟩
    · exact hskip.cons_cons s
    · exact absurd (List.cons.inj hr).1 hk
  constructor
  · intro m hs
    obtain ⟨hk, hks⟩ := hlast [m, next m] hs (h.onward m)
    obtain rfl := hinj hk
    exact h.ahead m (hcons hks (hne m))
  · intro m k hs
    obtain ⟨hk, hks⟩ := hlast [m, next m, k] hs (h.later m k)
    obtain rfl := hinj hk
    by_cases hm : m = k
    · subst hm
      exact h.back m hks
    · exact h.around m k (hcons hks hm)
  · intro m hs
    obtain ⟨rfl, hks⟩ := hlast [m, next m] hs (h.back m)
    exact h.onward s (hcons hks (hne s).symm)
  · intro m hs
    obtain ⟨hk, hks⟩ := hlast [next m, m] hs (h.ahead m)
    obtain rfl := hinj hk
    exact h.back m (hcons hks (hne m).symm)
  · intro m k hs
    obtain ⟨rfl, hks⟩ := hlast [k, m, next m] hs (h.around m k)
    exact h.later s m (hcons hks (hne s).symm)

end

/-- The numbers that do not answer the payload at the head of the queue. -/
def others [DecidableEq τ] (queue : List τ) (entries : List (ν × Option τ)) : List ν :=
  (entries.filter fun e => e.2.isNone || e.2 != queue.head?).map Prod.fst

/-- The numbers under way to a sender with number `s`, none of which counts wrongly for one of the
first `k` payloads that leave its queue. -/
structure Trail [DecidableEq τ] (next : ν → ν) (k : ℕ) (s : ν) (queue : List τ) (known : τ → Prop)
    (entries : List (ν × Option τ)) : Prop where
  first : 0 < k → (∃ p ∈ queue.head?, known p) ∨ Clean next (s :: others queue entries)
  second : 1 < k → (k ≤ queue.length ∧ ∀ q ∈ queue.take k, known q ∨ q ∈ queue.head?) ∨
    Once next (s :: entries.map Prod.fst)

instance [DecidableEq τ] [DecidableEq ν] [Fintype ν] (next : ν → ν) (k : ℕ) (s : ν) (queue : List τ)
    (known : τ → Prop) [DecidablePred known] (entries : List (ν × Option τ)) :
    Decidable (Trail next k s queue known entries) :=
  decidable_of_iff ((0 < k → (∃ p ∈ queue.head?, known p) ∨ Clean next (s :: others queue entries)) ∧
      (1 < k → (k ≤ queue.length ∧ ∀ q ∈ queue.take k, known q ∨ q ∈ queue.head?) ∨
        Once next (s :: entries.map Prod.fst)))
    ⟨fun ⟨h, h'⟩ => ⟨h, h'⟩, fun h => ⟨h.first, h.second⟩⟩

section
variable [DecidableEq τ] {k : ℕ} {s n : ν} {p : τ} {queue : List τ} {known known' : τ → Prop}
  {entries rest xs ys : List (ν × Option τ)}

theorem others_sublist (queue : List τ) (entries : List (ν × Option τ)) :
    (others queue entries).Sublist (entries.map Prod.fst) := List.filter_sublist.map _

theorem others_append (queue : List τ) (xs ys : List (ν × Option τ)) :
    others queue (xs ++ ys) = others queue xs ++ others queue ys := by
  unfold others
  rw [List.filter_append, List.map_append]

theorem others_untagged (queue : List τ) (n : ν) (ys : List (ν × Option τ)) :
    others queue ((n, none) :: ys) = n :: others queue ys := rfl

namespace Trail

theorem of_clean (h : Clean next (s :: entries.map Prod.fst)) : Trail next k s queue known entries where
  first _ := .inr (h.sublist ((others_sublist queue entries).cons_cons s))
  second _ := .inr h.once

theorem zero : Trail next 0 s queue known entries where
  first h := absurd h (Nat.lt_irrefl 0)
  second h := absurd h (Nat.not_lt_zero 1)

theorem mono (h : Trail next k s queue known entries) (hknown : ∀ q, known q → known' q) :
    Trail next k s queue known' entries where
  first hk := (h.first hk).imp_left fun ⟨p, hp, hknows⟩ => ⟨p, hp, hknown p hknows⟩
  second hk := (h.second hk).imp_left fun ⟨hlen, hall⟩ => ⟨hlen, fun q hq => (hall q hq).imp_left (hknown q)⟩

theorem sublist (h : Trail next k s queue known entries) (hs : rest.Sublist entries) :
    Trail next k s queue known rest where
  first hk := (h.first hk).imp_right fun hclean => hclean.sublist (((hs.filter _).map _).cons_cons s)
  second hk := (h.second hk).imp_right fun honce => honce.sublist ((hs.map _).cons_cons s)

theorem stutter (hne : ∀ n, n ≠ next n) (h : Trail next k s queue known (xs ++ (n, none) :: ys)) :
    Trail next k s queue known (xs ++ (n, none) :: (n, none) :: ys) where
  first hk := (h.first hk).imp_right fun hclean => by
    rw [others_append, others_untagged] at hclean
    rw [others_append, others_untagged, others_untagged]
    exact Clean.stutter hne (s :: others queue xs) hclean
  second hk := (h.second hk).imp_right fun honce => by
    rw [List.map_append, List.map_cons] at honce
    rw [List.map_append, List.map_cons, List.map_cons]
    exact Once.stutter hne (s :: xs.map Prod.fst) honce

theorem send (hne : ∀ n, n ≠ next n) (hinj : Function.Injective next)
    (h : Trail next k s (p :: queue) known entries) :
    Trail next k s (p :: queue) known (entries ++ [(next s, some p)]) where
  first hk := (h.first hk).imp_right fun hclean => by
    rw [others_append]
    simpa [others] using hclean
  second hk := (h.second hk).imp_right fun honce => by
    rw [List.map_append]
    exact honce.send hne hinj

theorem enqueue (h : Trail next k s queue known entries) (p : τ) :
    Trail next k s (queue ++ [p]) known entries where
  first hk := by
    cases queue with
    | nil =>
      rcases h.first hk with ⟨q, hq, _⟩ | hclean
      · exact absurd hq (Option.not_mem_none q)
      · refine .inr (hclean.sublist (List.Sublist.cons_cons s (List.Sublist.map _ ?_)))
        refine List.monotone_filter_right _ fun e he => ?_
        cases he' : e.2 <;> simp_all
    | cons q queue => exact h.first hk
  second hk := (h.second hk).imp_left fun ⟨hlen, hall⟩ => by
    refine ⟨hlen.trans (by simp), fun q hq => ?_⟩
    rw [List.take_append_of_le_length hlen] at hq
    refine (hall q hq).imp_right fun hhead => ?_
    rw [List.head?_append, Option.mem_def.mp hhead]
    rfl

theorem receive (h : Trail next k s queue known (xs ++ (n, some p) :: ys)) (hp : known p) :
    Trail next k s queue known (xs ++ (n, none) :: ys) where
  first hk := by
    refine (h.first hk).elim .inl fun hclean => ?_
    by_cases hhead : queue.head? = some p
    · exact .inl ⟨p, hhead, hp⟩
    · refine .inr ?_
      rw [others_append] at hclean ⊢
      rwa [others_untagged, ← show others queue ((n, some p) :: ys) = n :: others queue ys by
        unfold others
        rw [List.filter_cons_of_pos (by simp [Ne.symm hhead]), List.map_cons]]
  second hk := by simpa using h.second hk

theorem advance (h : Trail next k s queue known ((n, none) :: rest)) : Trail next k n queue known rest where
  first hk := (h.first hk).imp_right fun hclean => hclean.sublist (List.sublist_cons_self ..)
  second hk := (h.second hk).imp_right fun honce => honce.sublist (List.sublist_cons_self ..)

/-- A number that is counted answers the payload at hand, and nothing under way behind it counts
for one that is not known. -/
theorem acknowledged (h : Trail next k s (p :: queue) known ((next s, none) :: rest)) (hk : 0 < k) :
    known p ∧ Trail next (k - 1) (next s) queue known rest := by
  have hknown : known p := by
    rcases h.first hk with ⟨q, hq, hknown⟩ | hclean
    · rwa [Option.some.inj hq]
    · rw [others_untagged] at hclean
      exact absurd rfl (List.rel_of_pairwise_cons hclean (List.mem_cons_self ..))
  refine ⟨hknown, ?_⟩
  by_cases hlast : k = 1
  · rw [hlast]
    exact .zero
  rcases h.second (by omega) with ⟨hlen, hall⟩ | honce
  · have hrest : ∀ q ∈ queue.take (k - 1), known q := by
      intro q hq
      have hmem : q ∈ (p :: queue).take k := by
        rw [show k = k - 1 + 1 by omega, List.take_succ_cons]
        exact List.mem_cons_of_mem _ hq
      rcases hall q hmem with hq | hq
      · exact hq
      · rwa [← Option.some.inj hq]
    rw [List.length_cons] at hlen
    refine ⟨fun hk' => .inl ?_, fun _ => .inl ⟨by omega, fun q hq => .inl (hrest q hq)⟩⟩
    cases queue with
    | nil => rw [List.length_nil] at hlen; omega
    | cons q queue =>
      refine ⟨q, rfl, hrest q ?_⟩
      rw [show k - 1 = k - 2 + 1 by omega, List.take_succ_cons]
      exact List.mem_cons_self ..
  · exact .of_clean honce.acknowledged

end Trail
end

/-- The numbers under way between a sender with number `s` and a receiver that accepts only
the number that it expects: first `s` itself, then its successor. -/
structure Window (next : ν → ν) (s : ν) (ns : List ν) : Prop where
  values : ∀ n ∈ ns, n = s ∨ n = next s
  ordered : ns.Pairwise fun m n => m = next s → n = next s

section
variable {s : ν} {ms ns : List ν}

theorem pairwise_stutter {α : Type*} {R : α → α → Prop} {n : α} (hn : R n n) {ms ns : List α}
    (h : (ms ++ n :: ns).Pairwise R) : (ms ++ n :: n :: ns).Pairwise R := by
  obtain ⟨hms, hns, hcross⟩ := List.pairwise_append.mp h
  refine List.pairwise_append.mpr ⟨hms, List.pairwise_cons.mpr ⟨?_, hns⟩, ?_⟩
  · intro m hm
    rcases List.mem_cons.mp hm with rfl | hm
    · exact hn
    · exact List.rel_of_pairwise_cons hns hm
  · intro m hm k hk
    rcases List.mem_cons.mp hk with rfl | hk
    · exact hcross m hm k (List.mem_cons_self ..)
    · exact hcross m hm k hk

theorem Window.sublist (h : Window next s ns) (hs : ms.Sublist ns) : Window next s ms :=
  ⟨fun n hn => h.values n (hs.subset hn), h.ordered.sublist hs⟩

theorem Window.stutter {n : ν} (h : Window next s (ms ++ n :: ns)) :
    Window next s (ms ++ n :: n :: ns) := by
  refine ⟨fun m hm => h.values m (by simpa using hm), pairwise_stutter (fun hn => hn) h.ordered⟩

theorem Window.send (h : Window next s ns) : Window next s (ns ++ [next s]) := by
  refine ⟨?_, List.pairwise_append.mpr ⟨h.ordered, List.pairwise_singleton _ _, ?_⟩⟩
  · intro n hn
    rcases List.mem_append.mp hn with hn | hn
    · exact h.values n hn
    · exact .inr (List.mem_singleton.mp hn)
  · intro m _ n hn _
    exact List.mem_singleton.mp hn

theorem Window.acknowledged (h : Window next s (next s :: ns)) : ∀ n ∈ ns, n = next s :=
  fun _ hn => List.rel_of_pairwise_cons h.ordered hn rfl

theorem Window.of_forall (h : ∀ n ∈ ns, n = s) : Window next s ns := by
  refine ⟨fun n hn => .inl (h n hn),
    List.Pairwise.imp_of_mem ?_ (List.pairwise_of_forall fun _ _ => trivial)⟩
  intro m k hm hk _ hnext
  exact (h k hk).trans ((h m hm).symm.trans hnext)

theorem Window.expected {n : ν} (hne : ∀ n, n ≠ next n) (h : Window next s (ms ++ n :: next n :: ns)) :
    n = s := by
  have hordered := (List.pairwise_append.mp h.ordered).2.1
  rcases h.values n (by simp) with hn | hn
  · exact hn
  · have hnext := List.rel_of_pairwise_cons hordered (List.mem_cons_self ..) hn
    exact absurd (hn.trans hnext.symm) (hne n)

end
end AckTrail
