import Hdlcd.SerialPort.ClientList

/-! Every run of the client list: no type of a live client is ever counted as unused, and each
call reaches each entry that it began with once. -/

namespace Hdlcd.ClientList
open Reactive Action

section
variable (bufferType : ClientId → BufferType)

def Nested : List Frame → Prop
  | [] => True
  | f :: frames => f.guardLocked = frames.isEmpty ∧ Nested frames

/-- No client is forgotten, none is counted too low, and no iterator dangles. -/
structure Intact (s : ClientList) : Prop where
  nodup : s.handlerList.Nodup
  known : ∀ c ∈ s.handlerList, c ∈ s.attached
  listed : ∀ c ∈ s.attached, s.live c = true → c ∈ s.handlerList
  counted : ∀ t, subscribed bufferType s s.handlerList t ≤ s.bufferTypeSubscribers t
  guard : s.cyclicCallGuard = !s.frames.isEmpty
  outermost : Nested s.frames
  valid : ∀ l, .loop l ∈ s.frames → ∀ c, l.next = some c → c ∈ s.handlerList

theorem Intact.initial : Intact bufferType initial where
  nodup := List.nodup_nil
  known := fun _ hc => absurd hc List.not_mem_nil
  listed := fun _ hc => absurd hc List.not_mem_nil
  counted := fun _ => le_rfl
  guard := rfl
  outermost := trivial
  valid := fun _ hl => absurd hl List.not_mem_nil

variable {bufferType} {s t : ClientList} {c : ClientId}

theorem subscribed_mono (h : ∀ c, t.live c = true → s.live c = true) (entries : List ClientId)
    (b : BufferType) : subscribed bufferType t entries b ≤ subscribed bufferType s entries b := by
  apply List.countP_mono_left
  intro c _ hc
  rw [Bool.and_eq_true] at hc ⊢
  exact ⟨h c hc.1, hc.2⟩

theorem Intact.idle (h : Intact bufferType s) (hguard : s.cyclicCallGuard = false) : s.frames = [] := by
  have hempty := h.guard
  rw [hguard] at hempty
  simpa using hempty

theorem Intact.required (h : Intact bufferType s) (hc : c ∈ s.attached) (hlive : s.live c = true) :
    s.requiresBufferType (bufferType c) = true := by
  have hone : 0 < subscribed bufferType s s.handlerList (bufferType c) :=
    List.countP_pos_iff.mpr ⟨c, h.listed c hc hlive, by simp [hlive]⟩
  have hcounted := h.counted (bufferType c)
  exact bne_iff_ne.mpr (by omega)

theorem Intact.eraseEntry (h : Intact bufferType s) (hguard : s.cyclicCallGuard = false)
    (hlive : s.live c = false) : Intact bufferType (eraseEntry c s) where
  nodup := h.nodup.erase c
  known := fun d hd => h.known d (List.mem_of_mem_erase hd)
  listed := by
    intro d hd hdlive
    have hne : d ≠ c := by
      rintro rfl
      exact Bool.false_ne_true (hlive.symm.trans hdlive)
    exact (List.mem_erase_of_ne hne).mpr (h.listed d hd hdlive)
  counted := fun b => (List.Sublist.countP_le (List.erase_sublist ..)).trans (h.counted b)
  guard := h.guard
  outermost := h.outermost
  valid := by
    intro l hl
    have hframes : (ClientList.eraseEntry c s).frames = [] := h.idle hguard
    rw [hframes] at hl
    exact absurd hl List.not_mem_nil

theorem Intact.rebuildSubscriptions (h : Intact bufferType s) :
    Intact bufferType (rebuildSubscriptions bufferType s) := by
  rw [rebuildSubscriptions_eq bufferType h.nodup]
  cases hguard : s.cyclicCallGuard with
  | true =>
    exact ⟨h.nodup, h.known, h.listed, fun _ => le_rfl, hguard ▸ h.guard, h.outermost, h.valid⟩
  | false =>
    have hframes := h.idle hguard
    constructor
    · exact h.nodup.filter _
    · exact fun d hd => h.known d (List.mem_of_mem_filter hd)
    · exact fun d hd hdlive => List.mem_filter.mpr ⟨h.listed d hd hdlive, hdlive⟩
    · exact fun b => (subscribed_live bufferType s b).le
    · exact hguard ▸ h.guard
    · exact h.outermost
    · intro l hl
      rw [hframes] at hl
      exact absurd hl List.not_mem_nil

theorem live_push {f : Frame} (hf : ∀ d, f.holds d = true → s.live d = true) (g : Bool) :
    live { s with cyclicCallGuard := g, frames := f :: s.frames } = s.live := by
  funext d
  cases hd : f.holds d with
  | false => simp [live, hd]
  | true =>
    rw [hf d hd]
    simp [live, hd]

theorem Intact.push (h : Intact bufferType s) {f : Frame} (hf : ∀ d, f.holds d = true → s.live d = true)
    (hlocked : f.guardLocked = !s.cyclicCallGuard)
    (hnext : ∀ l, f = .loop l → ∀ d, l.next = some d → d ∈ s.handlerList) :
    Intact bufferType { s with cyclicCallGuard := true, frames := f :: s.frames } := by
  have hlive := live_push hf true
  constructor
  · exact h.nodup
  · exact h.known
  · intro d hd hdlive
    rw [hlive] at hdlive
    exact h.listed d hd hdlive
  · intro b
    refine le_trans (subscribed_mono ?_ _ b) (h.counted b)
    intro d hd
    rwa [hlive] at hd
  · rfl
  · exact ⟨by rw [hlocked, h.guard, Bool.not_not], h.outermost⟩
  · intro l hl
    rcases List.mem_cons.mp hl with hl | hl
    · exact hnext l hl.symm
    · exact h.valid l hl

theorem Intact.left (h : Intact bufferType s) {f : Frame} {frames : List Frame}
    (hframes : s.frames = f :: frames) : Intact bufferType (left f frames s) := by
  have hlive : ∀ d, (ClientList.left f frames s).live d = true → s.live d = true := by
    intro d hd
    simp only [live, ClientList.left, hframes, List.any_cons, Bool.or_eq_true] at hd ⊢
    exact hd.imp_right .inr
  have houter := h.outermost
  rw [hframes] at houter
  constructor
  · exact h.nodup
  · exact h.known
  · exact fun d hd hdlive => h.listed d hd (hlive d hdlive)
  · exact fun b => (subscribed_mono hlive _ b).trans (h.counted b)
  · have hguard := h.guard
    rw [hframes] at hguard
    simp only [ClientList.left, houter.1, hguard]
    cases frames <;> rfl
  · exact houter.2
  · intro l hl
    apply h.valid l
    rw [hframes]
    exact List.mem_cons_of_mem f hl

def Output.mark : Output → Option (Visits.Mark ClientId)
  | .begun call handlerList => some (.begun call handlerList)
  | .applied call c | .outdated call c => some (.reached call c)
  | .returned call => some (.returned call)
  | .danglingIterator => none

def marks (outs : List Output) : List (Visits.Mark ClientId) := outs.filterMap Output.mark

def ahead (handlerList : List ClientId) (next : Option ClientId) : List ClientId :=
  (entriesFrom handlerList next).getD []

def Frame.task (handlerList : List ClientId) : Frame → Option (Visits.Task ClientId)
  | .loop l => some (l.call, ahead handlerList l.next)
  | .other _ => none

def tasks (s : ClientList) : List (Visits.Task ClientId) := s.frames.filterMap (Frame.task s.handlerList)

/-- Between two entries of the call's loop, or in its callbacks if there is no such call. -/
structure Recorded (outs : List Output) (running : List (Visits.Task ClientId)) (s : ClientList) : Prop where
  kept : Visits.Kept s.nextCall (running ++ s.tasks) (marks outs)
  lists : ∀ call entries, .begun call entries ∈ outs → entries.Nodup ∧ ∀ c ∈ entries, c ∈ s.attached
  valid : .danglingIterator ∉ outs

theorem marks_append (outs outs' : List Output) : marks (outs ++ outs') = marks outs ++ marks outs' :=
  List.filterMap_append

theorem mem_marks_begun {outs : List Output} {call : Nat} {entries : List ClientId} :
    .begun call entries ∈ marks outs ↔ .begun call entries ∈ outs := by
  constructor
  · intro h
    obtain ⟨o, ho, hmark⟩ := List.mem_filterMap.mp h
    cases o with
    | begun =>
      cases hmark
      exact ho
    | applied | outdated | returned | danglingIterator => cases hmark
  · exact fun h => List.mem_filterMap.mpr ⟨_, h, rfl⟩

theorem mem_marks_returned {outs : List Output} {call : Nat} :
    .returned call ∈ marks outs ↔ .returned call ∈ outs := by
  constructor
  · intro h
    obtain ⟨o, ho, hmark⟩ := List.mem_filterMap.mp h
    cases o with
    | returned =>
      cases hmark
      exact ho
    | begun | applied | outdated | danglingIterator => cases hmark
  · exact fun h => List.mem_filterMap.mpr ⟨_, h, rfl⟩

theorem count_reached (outs : List Output) (call : Nat) (c : ClientId) :
    (Visits.reached call (marks outs)).count c =
      outs.count (.applied call c) + outs.count (.outdated call c) := by
  induction outs with
  | nil => rfl
  | cons o outs ih =>
    unfold marks Visits.reached at ih ⊢
    cases o with
    | begun | returned | danglingIterator =>
      simpa [List.filterMap_cons, Output.mark, Visits.visit, List.count_cons] using ih
    | applied call' d | outdated call' d =>
      by_cases hcall : call' = call
      · by_cases hd : d = c
        · simp [Output.mark, Visits.visit, hcall, hd, ih]
          omega
        · simpa [List.filterMap_cons, Output.mark, Visits.visit, List.count_cons, hcall, hd] using ih
      · simpa [List.filterMap_cons, Output.mark, Visits.visit, List.count_cons, hcall] using ih

variable {outs : List Output} {running running' : List (Visits.Task ClientId)} {call : Nat}
  {rest : List ClientId}

theorem Recorded.concat (h : Recorded outs running s) {o : Output} {m : Visits.Mark ClientId}
    (hmark : o.mark = some m) (hbegun : ∀ call entries, o ≠ .begun call entries)
    (hattached : t.attached = s.attached)
    (hkept : Visits.Kept t.nextCall (running' ++ t.tasks) (marks outs ++ [m])) :
    Recorded (outs ++ [o]) running' t where
  kept := by
    have hmarks : marks [o] = [m] := by rw [marks, List.filterMap_cons, hmark]; rfl
    rwa [marks_append, hmarks]
  lists := by
    intro call entries hmem
    rw [hattached]
    rcases List.mem_append.mp hmem with hold | hnew
    · exact h.lists call entries hold
    · exact absurd (List.mem_singleton.mp hnew).symm (hbegun call entries)
  valid := by
    intro hmem
    rcases List.mem_append.mp hmem with hold | hnew
    · exact h.valid hold
    · rw [← List.mem_singleton.mp hnew] at hmark
      cases hmark

theorem Recorded.unchanged (h : Recorded outs running s) (hattached : t.attached = s.attached)
    (hnext : t.nextCall = s.nextCall) (htasks : running' ++ t.tasks = running ++ s.tasks) :
    Recorded outs running' t where
  kept := by
    rw [hnext, htasks]
    exact h.kept
  lists := by
    rw [hattached]
    exact h.lists
  valid := h.valid

theorem Recorded.outdated (h : Recorded outs [(call, c :: rest)] s) :
    Recorded (outs ++ [.outdated call c]) [(call, rest)] s :=
  h.concat rfl (by simp) rfl h.kept.reach

theorem Recorded.skipped {skipped : List ClientId} (h : Recorded outs [(call, skipped ++ rest)] s) :
    Recorded (outs ++ skipped.map (.outdated call)) [(call, rest)] s := by
  induction skipped generalizing outs with
  | nil => exact (List.append_nil outs).symm ▸ h
  | cons c skipped ih =>
    have hrest := ih h.outdated
    rwa [List.append_assoc] at hrest

/-- The members that a loop leaves alone. -/
def others (s : ClientList) : Bool × List ClientId × List ClientId × List Frame × Nat :=
  (s.cyclicCallGuard, s.attached, s.dropped, s.frames, s.nextCall)

theorem frames_of_others (h : others t = others s) : t.frames = s.frames := by
  simp only [others, Prod.mk.injEq] at h
  exact h.2.2.2.1

theorem live_of_others (h : others t = others s) : t.live = s.live := by
  simp only [others, Prod.mk.injEq] at h
  obtain ⟨_, _, hdropped, hframes, _⟩ := h
  funext c
  rw [live, live, hdropped, hframes]

theorem Recorded.congr (h : Recorded outs running s) (hothers : others t = others s)
    (htasks : t.tasks = s.tasks) : Recorded outs running t := by
  simp only [others, Prod.mk.injEq] at hothers
  obtain ⟨_, hattached, _, _, hnext⟩ := hothers
  exact h.unchanged hattached hnext (by rw [htasks])

theorem tasks_eraseEntry (h : Intact bufferType s) (hguard : s.cyclicCallGuard = false) (c : ClientId) :
    (eraseEntry c s).tasks = s.tasks := by
  have hframes : s.frames = [] := h.idle hguard
  simp [tasks, eraseEntry, hframes]

section
variable (again : Bool)

theorem others_finish (h : Intact bufferType s) : others (finish bufferType again s) = others s := by
  cases again with
  | false => rfl
  | true =>
    rw [finish, if_pos rfl, rebuildSubscriptions_eq bufferType h.nodup]
    rfl

theorem tasks_finish (h : Intact bufferType s) : (finish bufferType again s).tasks = s.tasks := by
  cases again with
  | false => rfl
  | true =>
    rw [finish, if_pos rfl, rebuildSubscriptions_eq bufferType h.nodup]
    cases hguard : s.cyclicCallGuard with
    | true => rfl
    | false =>
      have hframes := h.idle hguard
      simp [tasks, hframes]

theorem Intact.finish (h : Intact bufferType s) : Intact bufferType (finish bufferType again s) := by
  cases again with
  | false => exact h
  | true => exact h.rebuildSubscriptions

end

/-- A loop has passed over outdated entries, and has the others before it. -/
structure Passed (bufferType : ClientId → BufferType) (s : ClientList) (rest : List ClientId)
    (t : ClientList) : Prop where
  intact : Intact bufferType t
  suffix : rest <:+ t.handlerList
  others : others t = others s
  tasks : t.tasks = s.tasks

theorem proceed_cases {entries : List ClientId} (h : Intact bufferType s)
    (hsuffix : entries <:+ s.handlerList) (call : Nat) (rebuild : Bool) :
    ∃ skipped rest t again, entries = skipped ++ rest ∧ (∀ c ∈ skipped, s.live c = false) ∧
      Passed bufferType s rest t ∧
      ((rest = [] ∧ proceed bufferType call rebuild entries s =
          (finish bufferType again t, skipped.map (.outdated call) ++ [.returned call])) ∨
        ∃ c behind, rest = c :: behind ∧ s.live c = true ∧ proceed bufferType call rebuild entries s =
          (pushed call again c behind t, skipped.map (.outdated call) ++ [.applied call c])) := by
  induction entries generalizing s rebuild with
  | nil => exact ⟨[], [], s, rebuild, rfl, by simp, ⟨h, hsuffix, rfl, rfl⟩, .inl ⟨rfl, rfl⟩⟩
  | cons c rest ih =>
    have hrest : rest <:+ s.handlerList := (List.suffix_cons c rest).trans hsuffix
    cases hlive : s.live c with
    | true =>
      exact ⟨[], c :: rest, s, rebuild, rfl, by simp, ⟨h, hsuffix, rfl, rfl⟩,
        .inr ⟨c, rest, rfl, hlive, proceed_live hlive⟩⟩
    | false =>
      have hskipped : ∀ skipped : List ClientId, (∀ d ∈ skipped, s.live d = false) →
          ∀ d ∈ c :: skipped, s.live d = false := by
        intro skipped hall d hd
        rcases List.mem_cons.mp hd with rfl | hd
        · exact hlive
        · exact hall d hd
      cases hguard : s.cyclicCallGuard with
      | true =>
        obtain ⟨skipped, rest', t, again, rfl, hall, hpassed, hstop⟩ := ih h hrest rebuild
        refine ⟨c :: skipped, rest', t, again, rfl, hskipped skipped hall, hpassed, ?_⟩
        rw [proceed_cyclic hlive hguard]
        rcases hstop with ⟨hend, hproceed⟩ | ⟨d, behind, hbehind, hd, hproceed⟩
        · exact .inl ⟨hend, by rw [hproceed]; rfl⟩
        · exact .inr ⟨d, behind, hbehind, hd, by rw [hproceed]; rfl⟩
      | false =>
        have herased := h.eraseEntry hguard hlive
        have htasks := tasks_eraseEntry h hguard c
        obtain ⟨skipped, rest', t, again, rfl, hall, hpassed, hstop⟩ :=
          ih herased (suffix_erase h.nodup hsuffix) true
        refine ⟨c :: skipped, rest', t, again, rfl, hskipped skipped hall,
          ⟨hpassed.intact, hpassed.suffix, hpassed.others, hpassed.tasks.trans htasks⟩, ?_⟩
        rw [proceed_erased hlive hguard]
        rcases hstop with ⟨hend, hproceed⟩ | ⟨d, behind, hbehind, hd, hproceed⟩
        · exact .inl ⟨hend, by rw [hproceed]; rfl⟩
        · exact .inr ⟨d, behind, hbehind, hd, by rw [hproceed]; rfl⟩

theorem tasks_pushed {behind : List ClientId} (h : Intact bufferType s) (hbehind : behind <:+ s.handlerList)
    (call : Nat) (again : Bool) (c : ClientId) :
    (pushed call again c behind s).tasks = (call, behind) :: s.tasks := by
  have hahead : ahead s.handlerList behind.head? = behind := by
    rw [ahead, entriesFrom_suffix h.nodup hbehind, Option.getD_some]
  exact congrArg (fun rest => (call, rest) :: s.tasks) hahead

theorem holds_live (hlive : s.live c = true) {l : Loop} (hl : l.client = c) (d : ClientId)
    (hd : (Frame.loop l).holds d = true) : s.live d = true := by
  rwa [← beq_iff_eq.mp hd, hl]

/-- The members in a callback, or outside all loops. -/
structure Reached (bufferType : ClientId → BufferType) (outs : List Output) (s : ClientList) : Prop where
  intact : Intact bufferType s
  recorded : Recorded outs [] s

theorem proceed_reached {entries : List ClientId} (h : Intact bufferType s)
    (hsuffix : entries <:+ s.handlerList) (hrec : Recorded outs [(call, entries)] s) (rebuild : Bool) :
    Reached bufferType (outs ++ (proceed bufferType call rebuild entries s).2)
      (proceed bufferType call rebuild entries s).1 := by
  obtain ⟨skipped, rest, t, again, rfl, _, hpassed, hstop⟩ := proceed_cases h hsuffix call rebuild
  have ht := hpassed.intact
  have hskipped := hrec.skipped.congr hpassed.others hpassed.tasks
  rcases hstop with ⟨rfl, hproceed⟩ | ⟨c, behind, rfl, hlive, hproceed⟩
  · rw [hproceed, ← List.append_assoc]
    have hreturned : Recorded (outs ++ skipped.map (.outdated call) ++ [.returned call]) [] t :=
      hskipped.concat rfl (by simp) rfl hskipped.kept.leave
    exact ⟨ht.finish again, hreturned.congr (others_finish again ht) (tasks_finish again ht)⟩
  · rw [hproceed, ← List.append_assoc]
    have hbehind : behind <:+ t.handlerList := (List.suffix_cons c behind).trans hpassed.suffix
    have htasks := tasks_pushed ht hbehind call again c
    rw [← live_of_others hpassed.others] at hlive
    refine ⟨ht.push (holds_live hlive rfl) rfl ?_, hskipped.concat rfl (by simp) rfl ?_⟩
    · intro l hl d hd
      cases hl
      exact hbehind.mem (List.mem_of_head? hd)
    · exact htasks ▸ hskipped.kept.reach

theorem entriesFrom_listed {handlerList : List ClientId} (h : c ∈ handlerList) :
    entriesFrom handlerList (some c) = some (handlerList.dropWhile (· != c)) := if_pos h

theorem entriesFrom_some {handlerList entries : List ClientId} {next : Option ClientId}
    (h : entriesFrom handlerList next = some entries) : entries <:+ handlerList := by
  cases next with
  | none =>
    obtain rfl : [] = entries := Option.some.inj h
    exact List.nil_suffix
  | some c =>
    by_cases hc : c ∈ handlerList
    · rw [entriesFrom_listed hc] at h
      rw [← Option.some.inj h]
      exact List.dropWhile_suffix _
    · rw [entriesFrom, if_neg hc] at h
      cases h

theorem Intact.entriesFrom_next (h : Intact bufferType s) {l : Loop} (hl : .loop l ∈ s.frames) :
    entriesFrom s.handlerList l.next = some (ahead s.handlerList l.next) := by
  cases hnext : l.next with
  | none => rfl
  | some c => rw [ahead, entriesFrom_listed (h.valid l hl c hnext), Option.getD_some]

def lengthened (c : ClientId) (rest : List ClientId) : List ClientId :=
  if rest = [] then [] else rest ++ [c]

theorem ahead_concat {handlerList : List ClientId} {next : Option ClientId}
    (h : ∀ d, next = some d → d ∈ handlerList) (c : ClientId) :
    ahead (handlerList ++ [c]) next = lengthened c (ahead handlerList next) := by
  cases next with
  | none => rfl
  | some d =>
    have hd := h d rfl
    have hdrop : handlerList.dropWhile (· != d) ≠ [] := by
      intro hnil
      have hall := List.dropWhile_eq_nil_iff.mp hnil d hd
      exact absurd rfl (bne_iff_ne.mp hall)
    rw [ahead, ahead, entriesFrom_listed hd, entriesFrom_listed (List.mem_append_left _ hd),
      Option.getD_some, Option.getD_some, lengthened, if_neg hdrop, List.dropWhile_append,
      if_neg (by simpa using hdrop)]

theorem tasks_concat (h : Intact bufferType s) (c : ClientId) :
    s.frames.filterMap (Frame.task (s.handlerList ++ [c])) =
      s.tasks.map fun t => (t.1, lengthened c t.2) := by
  rw [tasks, List.map_filterMap]
  apply List.filterMap_congr
  intro f hf
  cases f with
  | loop l => exact congrArg (fun rest => some (l.call, rest)) (ahead_concat (h.valid l hf) c)
  | other _ => rfl

theorem Intact.attach (h : Intact bufferType s) (hnew : c ∉ s.attached) :
    Intact bufferType (enlist bufferType c s) where
  nodup := by
    have hfresh : c ∉ s.handlerList := fun hc => hnew (h.known c hc)
    exact List.nodup_append.mpr ⟨h.nodup, List.nodup_singleton c, by
      intro d hd e he
      rw [List.mem_singleton.mp he]
      rintro rfl
      exact hfresh hd⟩
  known := by
    intro d hd
    rcases List.mem_append.mp hd with hd | hd
    · exact List.mem_append_left _ (h.known d hd)
    · exact List.mem_append_right _ hd
  listed := by
    intro d hd hlive
    rcases List.mem_append.mp hd with hd | hd
    · exact List.mem_append_left _ (h.listed d hd hlive)
    · exact List.mem_append_right _ hd
  counted := by
    intro b
    have hcounted := h.counted b
    have hone : [c].countP (fun d => s.live d && bufferType d == b) ≤ if b = bufferType c then 1 else 0 := by
      by_cases hb : b = bufferType c
      · rw [if_pos hb]
        exact List.countP_le_length
      · simp [Ne.symm hb]
    change (s.handlerList ++ [c]).countP (fun d => s.live d && bufferType d == b) ≤
      if b = bufferType c then s.bufferTypeSubscribers b + 1 else s.bufferTypeSubscribers b
    rw [List.countP_append]
    unfold subscribed at hcounted
    split_ifs at hone ⊢ <;> omega
  guard := h.guard
  outermost := h.outermost
  valid := fun l hl d hd => List.mem_append_left _ (h.valid l hl d hd)

theorem Reached.attach (h : Reached bufferType outs s) (hnew : c ∉ s.attached) :
    Reached bufferType outs (enlist bufferType c s) where
  intact := h.intact.attach hnew
  recorded := by
    have hkept := h.recorded.kept.extend (f := lengthened c) (by
      intro call entries hbegun rest
      have hentries := (h.recorded.lists call entries (mem_marks_begun.mp hbegun)).2
      have hc : c ∉ entries := fun hc => hnew (hentries c hc)
      unfold lengthened
      by_cases hrest : rest = []
      · rw [if_pos hrest, hrest]
      · rw [if_neg hrest, List.filter_append]
        simp [hc])
    refine ⟨?_, ?_, h.recorded.valid⟩
    · rw [List.nil_append] at hkept ⊢
      rw [← tasks_concat h.intact c] at hkept
      exact hkept
    · intro call entries hbegun
      obtain ⟨hnodup, hentries⟩ := h.recorded.lists call entries hbegun
      exact ⟨hnodup, fun d hd => List.mem_append_left _ (hentries d hd)⟩

theorem Reached.destroy (h : Reached bufferType outs s) (c : ClientId) :
    Reached bufferType outs { s with dropped := c :: s.dropped } where
  intact := by
    have hlive : ∀ d, live { s with dropped := c :: s.dropped } d = true → s.live d = true := by
      intro d hd
      simp only [live, Bool.or_eq_true, Bool.not_eq_true', List.contains_cons, Bool.or_eq_false_iff] at hd ⊢
      exact hd.imp_left And.right
    have hi := h.intact
    exact ⟨hi.nodup, hi.known, fun d hd hdlive => hi.listed d hd (hlive d hdlive),
      fun b => (subscribed_mono hlive _ b).trans (hi.counted b), hi.guard, hi.outermost, hi.valid⟩
  recorded := h.recorded.unchanged rfl rfl rfl

theorem Intact.begin (h : Intact bufferType s) : Intact bufferType { s with nextCall := s.nextCall + 1 } :=
  ⟨h.nodup, h.known, h.listed, h.counted, h.guard, h.outermost, h.valid⟩

theorem Reached.forEach (h : Reached bufferType outs s) :
    Reached bufferType (outs ++ (forEachHdlcdServerHandler bufferType s).2)
      (forEachHdlcdServerHandler bufferType s).1 := by
  have hi := h.intact
  have hrec : Recorded (outs ++ [.begun s.nextCall s.handlerList]) [(s.nextCall, s.handlerList)]
      { s with nextCall := s.nextCall + 1 } := by
    refine ⟨?_, ?_, ?_⟩
    · rw [marks_append]
      exact h.recorded.kept.enter s.handlerList
    · intro call entries hmem
      rcases List.mem_append.mp hmem with hold | hnew
      · exact h.recorded.lists call entries hold
      · cases List.mem_singleton.mp hnew
        exact ⟨hi.nodup, hi.known⟩
    · simpa using h.recorded.valid
  have hloop := proceed_reached hi.begin (List.suffix_refl _) hrec false
  rwa [List.append_assoc] at hloop

theorem Reached.callbackReturns (h : Reached bufferType outs s) :
    Reached bufferType (outs ++ (callbackReturns bufferType s).2) (callbackReturns bufferType s).1 := by
  unfold ClientList.callbackReturns
  cases hframes : s.frames with
  | nil => exact (List.append_nil outs).symm ▸ h
  | cons f frames =>
    have hleft := h.intact.left hframes
    cases f with
    | other guardLocked =>
      have hrec : Recorded outs [] (left (.other guardLocked) frames s) :=
        h.recorded.unchanged rfl rfl (by simp [tasks, left, hframes, List.filterMap_cons, Frame.task])
      exact (List.append_nil outs).symm ▸ ⟨hleft, hrec⟩
    | loop l =>
      have hentries := h.intact.entriesFrom_next (by rw [hframes]; exact List.mem_cons_self ..)
      have hrec : Recorded outs [(l.call, ahead s.handlerList l.next)] (left (.loop l) frames s) :=
        h.recorded.unchanged rfl rfl (by simp [tasks, left, hframes, Frame.task])
      dsimp only
      rw [hentries]
      exact proceed_reached hleft (entriesFrom_some hentries) hrec l.rebuild

theorem step_attach_known (h : s.attached.contains c = true) : step bufferType (.attach c) s = (s, []) :=
  if_pos h

theorem step_attach_new (h : ¬ s.attached.contains c = true) :
    step bufferType (.attach c) s = (enlist bufferType c s, []) := if_neg h

theorem step_destroy_known (h : s.attached.contains c = true) :
    step bufferType (.destroy c) s = ({ s with dropped := c :: s.dropped }, []) := if_pos h

theorem step_destroy_unknown (h : ¬ s.attached.contains c = true) :
    step bufferType (.destroy c) s = (s, []) := if_neg h

theorem Reached.step (h : Reached bufferType outs s) (e : Event) :
    Reached bufferType (outs ++ (step bufferType e s).2) (step bufferType e s).1 := by
  have hskip : Reached bufferType (outs ++ []) s := (List.append_nil outs).symm ▸ h
  cases e with
  | attach c =>
    by_cases hc : s.attached.contains c = true
    · rwa [step_attach_known hc]
    · have hnew : c ∉ s.attached := fun hmem => hc (List.contains_iff_mem.mpr hmem)
      rw [step_attach_new hc]
      exact (List.append_nil outs).symm ▸ h.attach hnew
  | destroy c =>
    by_cases hc : s.attached.contains c = true
    · rw [step_destroy_known hc]
      exact (List.append_nil outs).symm ▸ h.destroy c
    · rwa [step_destroy_unknown hc]
  | forEach => exact h.forEach
  | callbackOfOther =>
    have hi := h.intact.push (f := .other (!s.cyclicCallGuard)) (fun _ hd => absurd hd Bool.false_ne_true)
      rfl (fun _ hl => by cases hl)
    exact (List.append_nil outs).symm ▸ ⟨hi, h.recorded.unchanged rfl rfl rfl⟩
  | callbackReturns => exact h.callbackReturns

theorem Reached.initial : Reached bufferType [] initial where
  intact := Intact.initial bufferType
  recorded := ⟨Visits.Kept.initial, by simp, List.not_mem_nil⟩

theorem Reached.run (h : Reached bufferType outs s) (es : List Event) :
    Reached bufferType (outs ++ (Reactive.run (ClientList.step bufferType) es s).2)
      (Reactive.run (ClientList.step bufferType) es s).1 := by
  induction es generalizing outs s with
  | nil => exact (List.append_nil outs).symm ▸ h
  | cons e es ih =>
    have hrest := ih (h.step e)
    rwa [List.append_assoc] at hrest

theorem live_proceed {entries : List ClientId} (h : Intact bufferType s) (hsuffix : entries <:+ s.handlerList)
    (call : Nat) (rebuild : Bool) : (proceed bufferType call rebuild entries s).1.live = s.live := by
  obtain ⟨_, _, t, again, _, _, hpassed, hstop⟩ := proceed_cases h hsuffix call rebuild
  have hlive := live_of_others hpassed.others
  rcases hstop with ⟨_, hproceed⟩ | ⟨c, behind, _, hc, hproceed⟩
  · rw [hproceed, ← hlive]
    exact live_of_others (others_finish again hpassed.intact)
  · rw [← hlive] at hc
    rw [hproceed, ← hlive]
    exact live_push (holds_live hc rfl) true

/-- The function is applied to the live clients, and the others are passed over. -/
def Fair (outs : List Output) (s : ClientList) : Prop :=
  ∀ call c, (.applied call c ∈ outs → s.live c = true) ∧ (.outdated call c ∈ outs → s.live c = false)

theorem fair_nil (s : ClientList) : Fair [] s :=
  fun _ _ => ⟨fun h => absurd h List.not_mem_nil, fun h => absurd h List.not_mem_nil⟩

theorem proceed_fair {entries : List ClientId} (h : Intact bufferType s) (hsuffix : entries <:+ s.handlerList)
    (call : Nat) (rebuild : Bool) :
    Fair (proceed bufferType call rebuild entries s).2 (proceed bufferType call rebuild entries s).1 := by
  unfold Fair
  rw [live_proceed h hsuffix]
  obtain ⟨skipped, _, _, _, _, hskipped, _, hstop⟩ := proceed_cases h hsuffix call rebuild
  have hmap : ∀ call' c, (.applied call' c ∉ skipped.map (Output.outdated call)) ∧
      (.outdated call' c ∈ skipped.map (Output.outdated call) → s.live c = false) := by
    intro call' c
    constructor
    · simp
    · intro hc
      obtain ⟨d, hd, heq⟩ := List.mem_map.mp hc
      cases heq
      exact hskipped c hd
  intro call' d
  obtain ⟨happlied, houtdated⟩ := hmap call' d
  rcases hstop with ⟨_, hproceed⟩ | ⟨c, behind, _, hc, hproceed⟩
  · rw [hproceed, List.mem_append, List.mem_append]
    constructor
    · rintro (hd | hd)
      · exact absurd hd happlied
      · cases List.mem_singleton.mp hd
    · rintro (hd | hd)
      · exact houtdated hd
      · cases List.mem_singleton.mp hd
  · rw [hproceed, List.mem_append, List.mem_append]
    constructor
    · rintro (hd | hd)
      · exact absurd hd happlied
      · cases List.mem_singleton.mp hd
        exact hc
    · rintro (hd | hd)
      · exact houtdated hd
      · cases List.mem_singleton.mp hd

theorem Intact.fair (h : Intact bufferType s) (e : Event) :
    Fair (step bufferType e s).2 (step bufferType e s).1 := by
  cases e with
  | attach c =>
    by_cases hc : s.attached.contains c = true
    · rw [step_attach_known hc]
      exact fair_nil s
    · rw [step_attach_new hc]
      exact fair_nil _
  | destroy c =>
    by_cases hc : s.attached.contains c = true
    · rw [step_destroy_known hc]
      exact fair_nil _
    · rw [step_destroy_unknown hc]
      exact fair_nil s
  | forEach =>
    have hloop : Fair (proceed bufferType s.nextCall false s.handlerList _).2
        (proceed bufferType s.nextCall false s.handlerList _).1 :=
      proceed_fair h.begin (List.suffix_refl _) s.nextCall false
    intro call c
    constructor
    · intro hc
      rcases List.mem_cons.mp hc with hc | hc
      · cases hc
      · exact (hloop call c).1 hc
    · intro hc
      rcases List.mem_cons.mp hc with hc | hc
      · cases hc
      · exact (hloop call c).2 hc
  | callbackOfOther => exact fair_nil _
  | callbackReturns =>
    change Fair (callbackReturns bufferType s).2 (callbackReturns bufferType s).1
    unfold callbackReturns
    cases hframes : s.frames with
    | nil => exact fair_nil s
    | cons f frames =>
      cases f with
      | other _ => exact fair_nil _
      | loop l =>
        dsimp only
        cases hentries : entriesFrom s.handlerList l.next with
        | none =>
          intro call c
          constructor <;> intro hc <;> cases List.mem_singleton.mp hc
        | some entries => exact proceed_fair (h.left hframes) (entriesFrom_some hentries) l.call l.rebuild

/-- The entries before all loops, and the callbacks that have not returned. -/
def weight (s : ClientList) : Nat := (s.tasks.map fun t => t.2.length).sum + s.frames.length

theorem weight_of_others (hothers : others t = others s) (htasks : t.tasks = s.tasks) :
    t.weight = s.weight := by
  rw [weight, weight, htasks, frames_of_others hothers]

theorem proceed_weight {entries : List ClientId} (h : Intact bufferType s)
    (hsuffix : entries <:+ s.handlerList) (call : Nat) (rebuild : Bool) :
    (proceed bufferType call rebuild entries s).1.weight ≤ s.weight + entries.length := by
  obtain ⟨skipped, rest, t, again, rfl, _, hpassed, hstop⟩ := proceed_cases h hsuffix call rebuild
  have ht := hpassed.intact
  have hweight := weight_of_others hpassed.others hpassed.tasks
  rcases hstop with ⟨_, hproceed⟩ | ⟨c, behind, rfl, _, hproceed⟩
  · rw [hproceed, ← hweight, weight_of_others (others_finish again ht) (tasks_finish again ht)]
    exact Nat.le_add_right _ _
  · have hbehind : behind <:+ t.handlerList := (List.suffix_cons c behind).trans hpassed.suffix
    have hpushed : (pushed call again c behind t).weight = behind.length + 1 + t.weight := by
      rw [weight, tasks_pushed ht hbehind, List.map_cons, List.sum_cons]
      simp only [weight, pushed, List.length_cons]
      omega
    rw [hproceed, hpushed, hweight, List.length_append, List.length_cons]
    omega

theorem callbackReturns_weight (h : Intact bufferType s) (hframes : s.frames ≠ []) :
    (callbackReturns bufferType s).1.weight < s.weight := by
  obtain ⟨f, frames, hframes⟩ := List.exists_cons_of_ne_nil hframes
  have hleft := h.left hframes
  unfold callbackReturns
  rw [hframes]
  cases f with
  | other guardLocked =>
    simp [weight, tasks, left, hframes, List.filterMap_cons, Frame.task]
  | loop l =>
    have hentries := h.entriesFrom_next (by rw [hframes]; exact List.mem_cons_self ..)
    have hloop := proceed_weight hleft (entriesFrom_some hentries) l.call l.rebuild
    have hbefore : s.weight =
        (left (.loop l) frames s).weight + (ahead s.handlerList l.next).length + 1 := by
      simp only [weight, tasks, left, hframes, List.filterMap_cons, Frame.task, List.map_cons,
        List.sum_cons, List.length_cons]
      omega
    dsimp only
    rw [hentries, hbefore]
    exact Nat.lt_succ_of_le hloop

theorem Reached.drains (h : Reached bufferType outs s) :
    ∃ n, (Reactive.run (ClientList.step bufferType) (List.replicate n .callbackReturns) s).1.frames = [] := by
  induction hw : s.weight using Nat.strong_induction_on generalizing outs s with
  | _ w ih =>
    by_cases hframes : s.frames = []
    · exact ⟨0, hframes⟩
    · have hless := callbackReturns_weight h.intact hframes
      obtain ⟨n, hn⟩ := ih _ (hw ▸ hless) h.callbackReturns rfl
      exact ⟨n + 1, hn⟩

variable (bufferType) in
def members (es : List Event) : ClientList := (run (step bufferType) es initial).1

variable (bufferType) in
def outputs (es : List Event) : List Output := (run (step bufferType) es initial).2

variable (bufferType) in
theorem run_reached (es : List Event) : Reached bufferType (outputs bufferType es) (members bufferType es) :=
  Reached.initial.run es

/-- No type of a live client is left out, and no client is left out by a call. -/
theorem subscriptions_kept (bufferType : ClientId → BufferType) (es : List Event) :
    (∀ c ∈ (members bufferType es).attached, (members bufferType es).live c = true →
      (members bufferType es).requiresBufferType (bufferType c) = true) ∧
    (∀ call entries, .begun call entries ∈ outputs bufferType es → ∀ c ∈ entries,
      (outputs bufferType es).count (.applied call c) + (outputs bufferType es).count (.outdated call c) ≤ 1 ∧
        (.returned call ∈ outputs bufferType es →
          (outputs bufferType es).count (.applied call c) +
            (outputs bufferType es).count (.outdated call c) = 1)) ∧
    (∀ pre e, pre ++ [e] <+: es →
      Fair (step bufferType e (members bufferType pre)).2 (members bufferType (pre ++ [e]))) ∧
    .danglingIterator ∉ outputs bufferType es ∧
    ∃ n, ∀ call entries, .begun call entries ∈ outputs bufferType es →
      .returned call ∈ outputs bufferType (es ++ List.replicate n .callbackReturns) := by
  have hreached := run_reached bufferType es
  refine ⟨fun c hc hlive => hreached.intact.required hc hlive, ?_, ?_, hreached.recorded.valid, ?_⟩
  · intro call entries hbegun c hc
    have hnodup := (hreached.recorded.lists call entries hbegun).1
    obtain ⟨hmost, hone⟩ := hreached.recorded.kept.count_reached (mem_marks_begun.mpr hbegun) hnodup hc
    rw [count_reached] at hmost hone
    exact ⟨hmost, fun hreturned => hone (mem_marks_returned.mpr hreturned)⟩
  · intro pre e _
    have hfair := (run_reached bufferType pre).intact.fair e
    have hmembers : members bufferType (pre ++ [e]) = (step bufferType e (members bufferType pre)).1 := by
      rw [members, run_append, andThen_apply, run_singleton]
      rfl
    rwa [hmembers]
  · obtain ⟨n, hframes⟩ := hreached.drains
    have hrun := run_reached bufferType (es ++ List.replicate n Event.callbackReturns)
    have hsplit : members bufferType (es ++ List.replicate n .callbackReturns) =
        (run (step bufferType) (List.replicate n .callbackReturns) (members bufferType es)).1 := by
      rw [members, run_append, andThen_apply]
      rfl
    have houts : outputs bufferType es <+: outputs bufferType (es ++ List.replicate n .callbackReturns) := by
      rw [outputs, outputs, run_append, andThen_apply]
      exact List.prefix_append _ _
    refine ⟨n, fun call entries hbegun => ?_⟩
    have hmem := mem_marks_begun.mpr (houts.subset hbegun)
    have hidle :
        call ∉ ([] ++ (members bufferType (es ++ List.replicate n Event.callbackReturns)).tasks).map Prod.fst := by
      rw [hsplit, tasks, hframes]
      exact List.not_mem_nil
    exact mem_marks_returned.mp (hrun.recorded.kept.finished call entries hmem hidle).2

end

end Hdlcd.ClientList
