import Mathlib.Data.List.Nodup
import Mathlib.Data.List.TakeWhile
import Hdlcd.Library.Visits
import Hdlcd.SerialPort.SerialPortHandler

/-! The loops of `ForEachHdlcdServerHandler`, statement by statement. A function that is applied
to a client may begin further loops, attach clients and let clients go, so the loops that have not
returned are suspended in their callbacks, each with its iterators. The guard is a static
variable: the loops of other serial port handlers set it, too. The destructor of a client that
only a loop still held calls nothing here. -/

namespace Hdlcd
open Reactive Action

namespace ClientList

/-- A loop during its callback. -/
structure Loop where
  call : Nat
  -- `l_ClientHandler`, which keeps the client alive
  client : ClientId
  -- the iterator `next`; `end()` is none
  next : Option ClientId
  guardLocked : Bool
  rebuild : Bool
  deriving DecidableEq, Repr

inductive Frame
  | loop (l : Loop)
  -- the callback of a loop of another serial port handler
  | other (guardLocked : Bool)
  deriving DecidableEq, Repr

def Frame.guardLocked : Frame → Bool
  | .loop l => l.guardLocked
  | .other guardLocked => guardLocked

def Frame.holds (c : ClientId) : Frame → Bool
  | .loop l => l.client == c
  | .other _ => false

inductive Output
  -- the list when the call begins
  | begun (call : Nat) (handlerList : List ClientId)
  -- the function is applied
  | applied (call : Nat) (client : ClientId)
  -- the weak pointer has expired
  | outdated (call : Nat) (client : ClientId)
  | returned (call : Nat)
  | danglingIterator
  deriving DecidableEq, Repr

end ClientList

structure ClientList where
  handlerList : List ClientId := []
  bufferTypeSubscribers : BufferType → Nat := fun _ => 0
  cyclicCallGuard : Bool := false
  -- the clients that were ever attached
  attached : List ClientId := []
  -- those of them that nothing but a loop refers to
  dropped : List ClientId := []
  frames : List ClientList.Frame := []
  nextCall : Nat := 0

namespace ClientList

abbrev Act := Action ClientList Output

/-- `lock()` of the entry gives a client. -/
def live (s : ClientList) (c : ClientId) : Bool := !s.dropped.contains c || s.frames.any (·.holds c)

def entriesFrom (handlerList : List ClientId) : Option ClientId → Option (List ClientId)
  | none => some []
  | some c => if c ∈ handlerList then some (handlerList.dropWhile (· != c)) else none

def eraseEntry (c : ClientId) (s : ClientList) : ClientList :=
  { s with handlerList := s.handlerList.erase c }

def requiresBufferType (s : ClientList) (t : BufferType) : Bool := s.bufferTypeSubscribers t != 0

section
variable (bufferType : ClientId → BufferType)

def subscribe (c : ClientId) (s : ClientList) : ClientList :=
  { s with
    bufferTypeSubscribers := fun t =>
      if t = bufferType c then s.bufferTypeSubscribers t + 1 else s.bufferTypeSubscribers t }

def countEntries : List ClientId → ClientList → ClientList × Bool
  | [], s => (s, false)
  | c :: rest, s =>
    if s.live c then countEntries rest (subscribe bufferType c s)
    else if s.cyclicCallGuard then countEntries rest s
    else ((countEntries rest (eraseEntry c s)).1, true)

theorem countEntries_length_le (entries : List ClientId) (s : ClientList) :
    (countEntries bufferType entries s).1.handlerList.length ≤ s.handlerList.length := by
  induction entries generalizing s with
  | nil => exact le_rfl
  | cons c rest ih =>
    unfold countEntries
    split_ifs
    · exact ih (subscribe bufferType c s)
    · exact ih s
    · exact (ih (eraseEntry c s)).trans (List.length_erase_le)

theorem countEntries_length_lt {entries : List ClientId} {s : ClientList}
    (hlisted : ∀ c ∈ entries, c ∈ s.handlerList) (h : (countEntries bufferType entries s).2 = true) :
    (countEntries bufferType entries s).1.handlerList.length < s.handlerList.length := by
  induction entries generalizing s with
  | nil => exact absurd h (by simp [countEntries])
  | cons c rest ih =>
    unfold countEntries at h ⊢
    split_ifs at h ⊢ with hlive hguard
    · exact ih (s := subscribe bufferType c s) (fun d hd => hlisted d (List.mem_cons_of_mem c hd)) h
    · exact ih (fun d hd => hlisted d (List.mem_cons_of_mem c hd)) h
    · have hc := hlisted c (List.mem_cons_self ..)
      have hrest := countEntries_length_le bufferType rest (eraseEntry c s)
      have herase : (s.handlerList.erase c).length < s.handlerList.length := by
        rw [List.length_erase_of_mem hc]
        exact Nat.sub_one_lt_of_lt (List.length_pos_of_mem hc)
      exact hrest.trans_lt herase

/-- What follows the loop if an entry was erased: the counters are cleared, and
`ForEachHdlcdServerHandler` is called again. -/
def rebuildSubscriptions (s : ClientList) : ClientList :=
  let counted := countEntries bufferType s.handlerList { s with bufferTypeSubscribers := fun _ => 0 }
  if _ : counted.2 = true then rebuildSubscriptions counted.1 else counted.1
termination_by s.handlerList.length
decreasing_by
  exact countEntries_length_lt bufferType (s := { s with bufferTypeSubscribers := fun _ => 0 })
    (fun _ hc => hc) (by assumption)

/-- The loop from an entry on, until a callback begins or the call returns. -/
def proceed (call : Nat) : Bool → List ClientId → Act
  | rebuild, [] => fun s =>
    (if rebuild then rebuildSubscriptions bufferType s else s, [.returned call])
  | rebuild, c :: rest => fun s =>
    if s.live c then
      ({ s with
          cyclicCallGuard := true
          frames := .loop ⟨call, c, rest.head?, !s.cyclicCallGuard, rebuild⟩ :: s.frames },
        [.applied call c])
    else if s.cyclicCallGuard then
      ((emit [.outdated call c]).andThen (proceed call rebuild rest)) s
    else
      ((emit [.outdated call c]).andThen ((update (eraseEntry c)).andThen (proceed call true rest))) s

def forEachHdlcdServerHandler : Act := fun s =>
  ((emit [.begun s.nextCall s.handlerList]).andThen
    ((update fun s => { s with nextCall := s.nextCall + 1 }).andThen
      (proceed bufferType s.nextCall false s.handlerList))) s

def left (f : Frame) (frames : List Frame) (s : ClientList) : ClientList :=
  { s with
    cyclicCallGuard := if f.guardLocked then false else s.cyclicCallGuard
    frames := frames }

/-- The innermost callback returns, and its loop goes on. -/
def callbackReturns : Act := fun s =>
  match s.frames with
  | [] => (s, [])
  | .other guardLocked :: frames => (left (.other guardLocked) frames s, [])
  | .loop l :: frames =>
    match entriesFrom s.handlerList l.next with
    | some entries => proceed bufferType l.call l.rebuild entries (left (.loop l) frames s)
    | none => (left (.loop l) frames s, [.danglingIterator])

def callbackOfOther : Act := update fun s =>
  { s with cyclicCallGuard := true, frames := .other (!s.cyclicCallGuard) :: s.frames }

def enlist (c : ClientId) (s : ClientList) : ClientList :=
  { subscribe bufferType c s with
    handlerList := s.handlerList ++ [c]
    attached := s.attached ++ [c] }

def addHdlcdServerHandler (c : ClientId) : Act :=
  branch (fun s => s.attached.contains c) skip (update (enlist bufferType c))

def dropHandler (c : ClientId) : Act :=
  branch (fun s => s.attached.contains c) (update fun s => { s with dropped := c :: s.dropped }) skip

inductive Event
  | attach (client : ClientId)
  | destroy (client : ClientId)
  | forEach
  | callbackOfOther
  | callbackReturns
  deriving DecidableEq, Repr

def step : Event → Act
  | .attach c => addHdlcdServerHandler bufferType c
  | .destroy c => dropHandler c
  | .forEach => forEachHdlcdServerHandler bufferType
  | .callbackOfOther => callbackOfOther
  | .callbackReturns => callbackReturns bufferType

end

def initial : ClientList := {}

section
variable (bufferType : ClientId → BufferType)

def subscribed (s : ClientList) (entries : List ClientId) (t : BufferType) : Nat :=
  entries.countP fun c => s.live c && bufferType c == t

theorem countEntries_eq (entries : List ClientId) (s : ClientList) :
    countEntries bufferType entries s =
      ({ s with
          handlerList := if s.cyclicCallGuard then s.handlerList
            else s.handlerList.diff (entries.filter (!s.live ·))
          bufferTypeSubscribers := fun t => s.bufferTypeSubscribers t + subscribed bufferType s entries t },
        !s.cyclicCallGuard && entries.any (!s.live ·)) := by
  induction entries generalizing s with
  | nil => simp [countEntries, subscribed]
  | cons c rest ih =>
    have hcounted : ∀ t, subscribed bufferType s (c :: rest) t =
        subscribed bufferType s rest t + if s.live c && bufferType c == t then 1 else 0 :=
      fun t => List.countP_cons ..
    unfold countEntries
    cases hlive : s.live c with
    | true =>
      have hrest := ih (subscribe bufferType c s)
      have hsame : subscribed bufferType (subscribe bufferType c s) rest = subscribed bufferType s rest := rfl
      have hexpired : (c :: rest).filter (!s.live ·) = rest.filter (!s.live ·) :=
        List.filter_cons_of_neg (by simp [hlive])
      rw [if_pos rfl, hrest, hsame, hexpired, List.any_cons, hlive]
      congr 2
      funext t
      rw [hcounted, hlive, Bool.true_and]
      by_cases ht : t = bufferType c
      · subst ht
        simp only [subscribe, if_true, beq_self_eq_true]
        omega
      · have hne : (bufferType c == t) = false := beq_false_of_ne (Ne.symm ht)
        simp only [subscribe, if_neg ht, hne, Bool.false_eq_true, if_false, Nat.add_zero]
    | false =>
      have hexpired : (c :: rest).filter (!s.live ·) = c :: rest.filter (!s.live ·) :=
        List.filter_cons_of_pos (by simp [hlive])
      have hsame : subscribed bufferType s (c :: rest) = subscribed bufferType s rest := by
        funext t
        rw [hcounted, hlive]
        rfl
      rw [if_neg Bool.false_ne_true, hexpired, hsame, List.any_cons, hlive]
      cases hguard : s.cyclicCallGuard with
      | true =>
        rw [if_pos rfl, ih s, hguard]
        rfl
      | false =>
        have hrest := ih (eraseEntry c s)
        have hsame' : subscribed bufferType (eraseEntry c s) rest = subscribed bufferType s rest := rfl
        rw [if_neg Bool.false_ne_true, hrest, hsame']
        simp [eraseEntry, hguard, live]

def liveEntries (s : ClientList) : List ClientId := s.handlerList.filter s.live

theorem diff_outdated {s : ClientList} (h : s.handlerList.Nodup) :
    s.handlerList.diff (s.handlerList.filter (!s.live ·)) = s.liveEntries := by
  rw [h.sdiff_eq_filter]
  apply List.filter_congr
  intro c hc
  cases hlive : s.live c <;> simp [hc, hlive]

theorem subscribed_live (s : ClientList) (t : BufferType) :
    subscribed bufferType s s.liveEntries t = subscribed bufferType s s.handlerList t := by
  unfold subscribed liveEntries
  rw [List.countP_filter]
  apply List.countP_congr
  intro c _
  cases s.live c <;> simp

theorem counted_eq (s : ClientList) :
    countEntries bufferType s.handlerList { s with bufferTypeSubscribers := fun _ => 0 } =
      ({ s with
          handlerList := if s.cyclicCallGuard then s.handlerList
            else s.handlerList.diff (s.handlerList.filter (!s.live ·))
          bufferTypeSubscribers := subscribed bufferType s s.handlerList },
        !s.cyclicCallGuard && s.handlerList.any (!s.live ·)) := by
  rw [countEntries_eq]
  congr 2
  funext t
  exact Nat.zero_add _

theorem rebuildSubscriptions_of_live {s : ClientList}
    (h : s.cyclicCallGuard = true ∨ s.handlerList.filter (!s.live ·) = []) :
    rebuildSubscriptions bufferType s =
      { s with bufferTypeSubscribers := subscribed bufferType s s.handlerList } := by
  have hagain : (!s.cyclicCallGuard && s.handlerList.any (!s.live ·)) = false := by
    rcases h with h | h
    · rw [h]
      rfl
    · rw [Bool.and_eq_false_iff]
      right
      exact List.any_eq_false.mpr (List.filter_eq_nil_iff.mp h)
  have hkept : (if s.cyclicCallGuard then s.handlerList
      else s.handlerList.diff (s.handlerList.filter (!s.live ·))) = s.handlerList := by
    rcases h with h | h
    · rw [if_pos h]
    · rw [h, List.diff_nil, ite_self]
  rw [rebuildSubscriptions]
  simp only [counted_eq, hagain, hkept, Bool.false_eq_true, dif_neg, not_false_eq_true]

theorem rebuildSubscriptions_eq {s : ClientList} (h : s.handlerList.Nodup) :
    rebuildSubscriptions bufferType s =
      { s with
        handlerList := if s.cyclicCallGuard then s.handlerList else s.liveEntries
        bufferTypeSubscribers := subscribed bufferType s s.handlerList } := by
  by_cases hdone : s.cyclicCallGuard = true ∨ s.handlerList.filter (!s.live ·) = []
  · have hkept : (if s.cyclicCallGuard then s.handlerList else s.liveEntries) = s.handlerList := by
      rcases hdone with hguard | hnone
      · rw [if_pos hguard]
      · rw [← diff_outdated h, hnone, List.diff_nil, ite_self]
    rw [rebuildSubscriptions_of_live bufferType hdone, hkept]
  · rw [not_or, Bool.not_eq_true] at hdone
    obtain ⟨hguard, hsome⟩ := hdone
    have hany : s.handlerList.any (!s.live ·) = true := by
      rw [← Bool.not_eq_false, List.any_eq_false]
      exact fun hnone => hsome (List.filter_eq_nil_iff.mpr hnone)
    have hpass : countEntries bufferType s.handlerList { s with bufferTypeSubscribers := fun _ => 0 } =
        ({ s with
            handlerList := s.liveEntries
            bufferTypeSubscribers := subscribed bufferType s s.handlerList }, true) := by
      rw [counted_eq, hany, hguard, if_neg Bool.false_ne_true, diff_outdated h]
      rfl
    have hnone : s.liveEntries.filter (!s.live ·) = [] :=
      List.filter_eq_nil_iff.mpr fun c hc => by simp [(List.mem_filter.mp hc).2]
    have hcount : subscribed bufferType s s.liveEntries = subscribed bufferType s s.handlerList :=
      funext (subscribed_live bufferType s)
    have hsecond := rebuildSubscriptions_of_live bufferType
      (s := { s with
        handlerList := s.liveEntries
        bufferTypeSubscribers := subscribed bufferType s s.handlerList }) (.inr hnone)
    have hkept : (if s.cyclicCallGuard then s.handlerList else s.liveEntries) = s.liveEntries :=
      if_neg (by simp [hguard])
    rw [hkept, ← hcount]
    refine Eq.trans ?_ hsecond
    rw [rebuildSubscriptions]
    simp only [hpass, dif_pos]

variable {bufferType} {s : ClientList} {call : Nat}

theorem entriesFrom_suffix {handlerList rest : List ClientId} (hnodup : handlerList.Nodup)
    (h : rest <:+ handlerList) : entriesFrom handlerList rest.head? = some rest := by
  obtain ⟨before, rfl⟩ := h
  cases rest with
  | nil => rfl
  | cons c rest =>
    have hbefore : ∀ d ∈ before, (d != c) = true := by
      intro d hd
      have hdisjoint := List.disjoint_of_nodup_append hnodup hd
      exact bne_iff_ne.mpr fun heq => hdisjoint (heq ▸ List.mem_cons_self ..)
    have hmem : c ∈ before ++ c :: rest := List.mem_append_right _ (List.mem_cons_self ..)
    rw [List.head?_cons, entriesFrom, if_pos hmem, List.dropWhile_append_of_pos hbefore,
      List.dropWhile_cons_of_neg (by simp)]

theorem suffix_erase {handlerList rest : List ClientId} {c : ClientId} (hnodup : handlerList.Nodup)
    (h : c :: rest <:+ handlerList) : rest <:+ handlerList.erase c := by
  obtain ⟨before, rfl⟩ := h
  have hbefore : c ∉ before := by
    intro hmem
    exact List.disjoint_of_nodup_append hnodup hmem (List.mem_cons_self ..)
  rw [List.erase_append_right _ hbefore, List.erase_cons_head]
  exact List.suffix_append before rest

def purged (entries : List ClientId) (s : ClientList) : ClientList :=
  if s.cyclicCallGuard then s
  else { s with handlerList := s.handlerList.diff (entries.filter (!s.live ·)) }

def purges (entries : List ClientId) (s : ClientList) : Bool :=
  !s.cyclicCallGuard && entries.any (!s.live ·)

variable (bufferType) in
def finish (rebuild : Bool) (s : ClientList) : ClientList :=
  if rebuild then rebuildSubscriptions bufferType s else s

def visited (s : ClientList) (call : Nat) (c : ClientId) : Output :=
  if s.live c then .applied call c else .outdated call c

def pushed (call : Nat) (rebuild : Bool) (c : ClientId) (rest : List ClientId) (s : ClientList) : ClientList :=
  { s with
    cyclicCallGuard := true
    frames := .loop ⟨call, c, rest.head?, !s.cyclicCallGuard, rebuild⟩ :: s.frames }

section
variable {c : ClientId} {rest : List ClientId} {rebuild : Bool}

theorem proceed_live (hlive : s.live c = true) :
    proceed bufferType call rebuild (c :: rest) s = (pushed call rebuild c rest s, [.applied call c]) :=
  if_pos hlive

theorem proceed_cyclic (hlive : s.live c = false) (hguard : s.cyclicCallGuard = true) :
    proceed bufferType call rebuild (c :: rest) s =
      ((proceed bufferType call rebuild rest s).1,
        .outdated call c :: (proceed bufferType call rebuild rest s).2) :=
  (if_neg (by simp [hlive])).trans (if_pos hguard)

theorem proceed_erased (hlive : s.live c = false) (hguard : s.cyclicCallGuard = false) :
    proceed bufferType call rebuild (c :: rest) s =
      ((proceed bufferType call true rest (eraseEntry c s)).1,
        .outdated call c :: (proceed bufferType call true rest (eraseEntry c s)).2) :=
  (if_neg (by simp [hlive])).trans (if_neg (by simp [hguard]))

end

theorem callbackReturns_pushed (hnodup : s.handlerList.Nodup) {rest : List ClientId}
    (hrest : rest <:+ s.handlerList) (c : ClientId) (rebuild : Bool) :
    callbackReturns bufferType (pushed call rebuild c rest s) = proceed bufferType call rebuild rest s := by
  unfold callbackReturns pushed
  simp only [entriesFrom_suffix hnodup hrest]
  congr 1
  unfold left Frame.guardLocked
  cases s with
  | mk _ _ guard _ _ _ _ => cases guard <;> rfl

theorem purges_cons_live {c : ClientId} (hlive : s.live c = true) (rest : List ClientId) :
    purges (c :: rest) s = purges rest s ∧ purged (c :: rest) s = purged rest s := by
  constructor
  · rw [purges, purges, List.any_cons, hlive]
    rfl
  · rw [purged, purged, List.filter_cons_of_neg (by simp [hlive])]

theorem purges_cons_outdated {c : ClientId} (hlive : s.live c = false) (hguard : s.cyclicCallGuard = false)
    (rest : List ClientId) :
    purges (c :: rest) s = true ∧ purged (c :: rest) s = purged rest (eraseEntry c s) := by
  constructor
  · rw [purges, List.any_cons, hlive, hguard]
    rfl
  · have hguard' : (eraseEntry c s).cyclicCallGuard = false := hguard
    rw [purged, purged, hguard, hguard', List.filter_cons_of_pos (by simp [hlive]), List.diff_cons]
    rfl

variable (bufferType call) in
theorem proceed_undisturbed {entries : List ClientId} (hnodup : s.handlerList.Nodup)
    (hsuffix : entries <:+ s.handlerList) (rebuild : Bool) :
    (proceed bufferType call rebuild entries).andThen
        (run (step bufferType) (List.replicate (entries.filter s.live).length .callbackReturns)) s =
      (finish bufferType (rebuild || purges entries s) (purged entries s),
        entries.map (visited s call) ++ [.returned call]) := by
  induction entries generalizing s rebuild with
  | nil =>
    have hpurged : purged [] s = s := by
      unfold purged
      split_ifs <;> rfl
    have hpurges : (rebuild || purges [] s) = rebuild := by simp [purges]
    rw [hpurged, hpurges]
    rfl
  | cons c rest ih =>
    have hrest : rest <:+ s.handlerList := (List.suffix_cons c rest).trans hsuffix
    cases hlive : s.live c with
    | true =>
      have hback : callbackReturns bufferType (pushed call rebuild c rest s) = _ :=
        callbackReturns_pushed hnodup hrest c rebuild
      have hnext := ih hnodup hrest rebuild
      obtain ⟨hpurges, hpurged⟩ := purges_cons_live hlive rest
      rw [hpurges, hpurged, List.filter_cons_of_pos hlive, List.length_cons, List.replicate_succ]
      simp only [andThen_apply, run, proceed_live hlive, step, hback] at hnext ⊢
      rw [Prod.mk.injEq] at hnext ⊢
      rw [hnext.1, hnext.2, List.map_cons, visited, if_pos hlive]
      exact ⟨rfl, rfl⟩
    | false =>
      have hvisited : visited s call c = .outdated call c := if_neg (by simp [hlive])
      rw [List.filter_cons_of_neg (by simp [hlive]), List.map_cons, hvisited]
      cases hguard : s.cyclicCallGuard with
      | true =>
        have hpurges : purges (c :: rest) s = purges rest s := by simp [purges, hguard]
        have hpurged : purged (c :: rest) s = purged rest s := by simp [purged, hguard]
        have hnext := ih hnodup hrest rebuild
        rw [hpurges, hpurged]
        simp only [andThen_apply, proceed_cyclic hlive hguard, List.cons_append] at hnext ⊢
        rw [Prod.mk.injEq] at hnext ⊢
        exact ⟨hnext.1, congrArg (Output.outdated call c :: ·) hnext.2⟩
      | false =>
        obtain ⟨hpurges, hpurged⟩ := purges_cons_outdated hlive hguard rest
        have hnext := ih (s := eraseEntry c s) (hnodup.erase c) (suffix_erase hnodup hsuffix) true
        rw [hpurges, hpurged, Bool.or_true]
        rw [Bool.true_or] at hnext
        simp only [andThen_apply, proceed_erased hlive hguard, List.cons_append] at hnext ⊢
        rw [Prod.mk.injEq] at hnext ⊢
        exact ⟨hnext.1, congrArg (Output.outdated call c :: ·) hnext.2⟩

variable (bufferType) in
theorem finish_purged (hnodup : s.handlerList.Nodup) :
    finish bufferType (purges s.handlerList s) (purged s.handlerList s) =
      { s with
        handlerList := if s.cyclicCallGuard then s.handlerList else s.liveEntries
        bufferTypeSubscribers :=
          if purges s.handlerList s then subscribed bufferType s s.handlerList
          else s.bufferTypeSubscribers } := by
  by_cases hguard : s.cyclicCallGuard = true
  · have hpurges : purges s.handlerList s = false := by simp [purges, hguard]
    have hpurged : purged s.handlerList s = s := if_pos hguard
    rw [if_pos hguard, hpurges, hpurged]
    rfl
  · have hpurged : purged s.handlerList s = { s with handlerList := s.liveEntries } := by
      rw [purged, if_neg hguard, diff_outdated hnodup]
    have hcount : subscribed bufferType s s.liveEntries = subscribed bufferType s s.handlerList :=
      funext (subscribed_live bufferType s)
    rw [if_neg hguard, hpurged]
    cases purges s.handlerList s with
    | false => rfl
    | true =>
      have hlive : s.liveEntries.filter s.live = s.liveEntries := by simp [liveEntries]
      have hrebuilt := rebuildSubscriptions_eq bufferType (s := { s with handlerList := s.liveEntries })
        (hnodup.filter s.live)
      have hkept : (if s.cyclicCallGuard then s.liveEntries
          else liveEntries { s with handlerList := s.liveEntries }) = s.liveEntries := by
        rw [if_neg hguard]
        exact hlive
      rw [finish, if_pos rfl, if_pos rfl]
      refine hrebuilt.trans ?_
      exact congrArg₂ (fun l b => { s with handlerList := l, bufferTypeSubscribers := b }) hkept hcount

variable (bufferType) in
theorem forEach_undisturbed (hnodup : s.handlerList.Nodup) :
    run (step bufferType) (.forEach :: List.replicate s.liveEntries.length .callbackReturns) s =
      ({ s with
          handlerList := if s.cyclicCallGuard then s.handlerList else s.liveEntries
          bufferTypeSubscribers :=
            if purges s.handlerList s then subscribed bufferType s s.handlerList
            else s.bufferTypeSubscribers
          nextCall := s.nextCall + 1 },
        .begun s.nextCall s.handlerList ::
          (s.handlerList.map (visited s s.nextCall) ++ [.returned s.nextCall])) := by
  have hbegun := proceed_undisturbed bufferType s.nextCall
    (s := { s with nextCall := s.nextCall + 1 }) hnodup (List.suffix_refl _) false
  have hfinish := finish_purged bufferType (s := { s with nextCall := s.nextCall + 1 }) hnodup
  rw [Bool.false_or, hfinish] at hbegun
  rw [run, andThen_apply]
  simp only [andThen_apply, step, forEachHdlcdServerHandler, emit, update, List.nil_append] at hbegun ⊢
  rw [Prod.mk.injEq] at hbegun ⊢
  exact ⟨hbegun.1, congrArg (Output.begun s.nextCall s.handlerList :: ·) hbegun.2⟩

def applications (outs : List Output) : List ClientId :=
  outs.filterMap fun
    | .applied _ c => some c
    | _ => none

theorem applications_visited (s : ClientList) (call : Nat) (entries : List ClientId) :
    applications (entries.map (visited s call)) = entries.filter s.live := by
  induction entries with
  | nil => rfl
  | cons c rest ih =>
    unfold applications at ih ⊢
    cases hlive : s.live c with
    | true => simp [visited, hlive, ih]
    | false => simp [visited, hlive, ih]

end

end ClientList

namespace Port
variable (s : Port)

def clientList : ClientList where
  handlerList := s.handlerList
  bufferTypeSubscribers := s.bufferTypeSubscribers
  cyclicCallGuard := s.cyclicCall
  attached := s.connections
  dropped := s.handlerList.filter fun c => (s.handlers c).isNone
  frames := if s.cyclicCall then [.other true] else []

def bufferTypeOf (c : ClientId) : BufferType := (s.handlers c).elim .payload (·.bufferType)

theorem clientList_live {c : ClientId} (hc : c ∈ s.handlerList) :
    s.clientList.live c = (s.handlers c).isSome := by
  have hheld : s.clientList.frames.any (·.holds c) = false := by
    unfold clientList
    cases s.cyclicCall <;> rfl
  rw [ClientList.live, hheld, Bool.or_false]
  cases hhandler : s.handlers c <;> simp [clientList, hc, hhandler]

theorem clientList_liveEntries : s.clientList.liveEntries = s.live :=
  List.filter_congr fun _ hc => s.clientList_live hc

theorem clientList_subscribed (t : BufferType) :
    ClientList.subscribed s.bufferTypeOf s.clientList s.handlerList t =
      s.live.countP fun c => (s.handlers c).any fun h => h.bufferType == t := by
  rw [live, List.countP_filter]
  apply List.countP_congr
  intro c hc
  rw [s.clientList_live hc]
  cases hhandler : s.handlers c <;> simp [bufferTypeOf, hhandler]

theorem clientList_purges :
    ClientList.purges s.handlerList s.clientList = !(s.cyclicCall || s.live == s.handlerList) := by
  have hany : s.handlerList.any (!s.clientList.live ·) = !(s.live == s.handlerList) := by
    rw [← clientList_liveEntries]
    by_cases hall : s.clientList.liveEntries = s.handlerList
    · have hlive := List.filter_eq_self.mp hall
      rw [hall, beq_self_eq_true, Bool.not_true, List.any_eq_false]
      exact fun c hc => by simp [hlive c hc]
    · rw [beq_false_of_ne hall, Bool.not_false, ← Bool.not_eq_false, List.any_eq_false]
      intro hnone
      exact hall (List.filter_eq_self.mpr fun c hc => by simpa using hnone c hc)
  rw [ClientList.purges, hany, Bool.not_or]
  rfl

theorem forEach_clientList (hnodup : s.handlerList.Nodup) :
    let ran := run (ClientList.step s.bufferTypeOf)
      (.forEach :: List.replicate s.live.length .callbackReturns) s.clientList
    ran.1.handlerList = s.rebuildSubscriptions.handlerList ∧
      ran.1.bufferTypeSubscribers = s.rebuildSubscriptions.bufferTypeSubscribers ∧
      ClientList.applications ran.2 = s.live := by
  have hloop := ClientList.forEach_undisturbed s.bufferTypeOf (s := s.clientList) hnodup
  have hsubscribed : ClientList.subscribed s.bufferTypeOf s.clientList s.handlerList =
      fun t => s.live.countP fun c => (s.handlers c).any fun h => h.bufferType == t :=
    funext s.clientList_subscribed
  have hlist : s.clientList.handlerList = s.handlerList := rfl
  rw [clientList_liveEntries, hlist, clientList_purges, hsubscribed] at hloop
  dsimp only
  rw [hloop]
  have hguard : s.clientList.cyclicCallGuard = s.cyclicCall := rfl
  have happlied := ClientList.applications_visited s.clientList s.clientList.nextCall s.handlerList
  have hlive : s.handlerList.filter s.clientList.live = s.live := s.clientList_liveEntries
  refine ⟨?_, ?_, ?_⟩
  · rw [hguard, rebuildSubscriptions]
    cases s.cyclicCall with
    | true => rfl
    | false =>
      by_cases hall : s.live = s.handlerList
      · simp [hall]
      · simp [hall]
  · rw [rebuildSubscriptions]
    cases s.cyclicCall || s.live == s.handlerList <;> rfl
  · rw [hlive] at happlied
    unfold ClientList.applications at happlied ⊢
    simp [happlied]

end Port
end Hdlcd
