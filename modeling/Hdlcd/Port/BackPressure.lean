import Hdlcd.Port.Nesting

/-! How many packets wait in the queues of the protocol state: none is taken from a client
before the ones that were taken could be passed on, unless the client was asked for unreliable
packets only. -/

namespace Hdlcd.Desks
open Reactive ProtocolState
open Port (Output)

def promised (calls : List Call) : List ClientId :=
  calls.flatMap fun
    | .forEach true _ clients => clients
    | _ => []

/-- A packet may be taken from the client, now or when it is visited. What a round for
unreliable packets only allowed is marked, and does not count. -/
def entitled (marks : ClientId → Bool) (v : Desks) (c : ClientId) : Bool :=
  (v.desk c).any (fun d => d.awaitsPacket && !marks c) || decide (c ∈ promised v.calls)

def load (marks : ClientId → Bool) (v : Desks) : Nat :=
  queueSize v.protocolState + v.connections.countP (v.entitled marks)

def mark (r : Bool) (c : ClientId) (d : Desk) (marks : ClientId → Bool) : ClientId → Bool :=
  fun x => if x = c then !r && (!d.awaitsPacket || marks c) else marks x

structure Bounded (marks : ClientId → Bool) (v : Desks) : Prop where
  flat : Flat v
  bound : v.load marks ≤ v.connections.length
  nodup : (promised v.calls).Nodup
  asked : ∀ u calls, v.calls = .queryForPayload true u :: calls → queueSize v.protocolState = 0

section
variable {marks : ClientId → Bool} {v w : Desks} {o : List Output} {calls : List Call} {c : ClientId} {d : Desk}
  {p : PacketData} {r u : Bool} {clients : List ClientId}

theorem countP_succ_le {α : Type*} {f g : α → Bool} {l : List α} (hfg : ∀ x ∈ l, f x = true → g x = true)
    {a : α} (ha : a ∈ l) (hg : g a = true) (hf : f a = false) : l.countP f + 1 ≤ l.countP g := by
  induction l with
  | nil => exact absurd ha List.not_mem_nil
  | cons x l ih =>
    have hrest : ∀ y ∈ l, f y = true → g y = true := fun y hy => hfg y (List.mem_cons_of_mem _ hy)
    by_cases hx : x = a
    · subst hx
      rw [List.countP_cons_of_neg (by simp [hf]), List.countP_cons_of_pos hg]
      exact Nat.succ_le_succ (List.countP_mono_left hrest)
    · have htail := ih hrest ((List.mem_cons.mp ha).resolve_left (Ne.symm hx))
      have hhead := hfg x (List.mem_cons_self ..)
      rw [List.countP_cons, List.countP_cons]
      split_ifs with hfx hgx
      · omega
      · exact absurd (hhead hfx) hgx
      · omega
      · omega

theorem promised_append (calls calls' : List Call) : promised (calls ++ calls') = promised calls ++ promised calls' :=
  List.flatMap_append

theorem promised_cons (x : Call) (calls : List Call) : promised (x :: calls) = promised [x] ++ promised calls :=
  promised_append [x] calls

theorem promised_ask (qs : List (Bool × Bool)) (calls : List Call) : promised (asks qs ++ calls) = promised calls := by
  have hnone : promised (asks qs) = [] := by
    refine List.flatMap_eq_nil_iff.mpr fun x hx => ?_
    obtain ⟨q, -, rfl⟩ := List.mem_map.mp (List.mem_reverse.mp hx)
    rfl
  rw [promised_append, hnone, List.nil_append]

theorem Base.promised (h : Base calls) : promised calls = [] := by
  cases h <;> rfl

theorem promised_forEach (r u : Bool) (clients : List ClientId) (hbelow : Base calls) :
    promised (.forEach r u clients :: calls) = if r then clients else [] := by
  rw [promised_cons, hbelow.promised, List.append_nil]
  cases r
  · rfl
  · exact List.append_nil clients

theorem Shallow.tail_ne_query {x : Call} (h : Shallow (x :: calls)) (r u : Bool) (calls' : List Call) :
    calls ≠ .queryForPayload r u :: calls' := by
  cases h with
  | base h => cases h <;> simp
  | query _ _ h | loop _ _ _ h => cases h <;> simp
  | delivery | receiving => simp

theorem entitled_iff (marks : ClientId → Bool) (v : Desks) (c : ClientId) : v.entitled marks c = true ↔
    (∃ d, v.desk c = some d ∧ d.awaitsPacket = true ∧ marks c = false) ∨ c ∈ promised v.calls := by
  rw [entitled, Bool.or_eq_true, decide_eq_true_iff, Option.any_eq_true]
  simp only [Bool.and_eq_true, Bool.not_eq_true']

namespace Bounded

theorem connected (h : Bounded marks v) (hd : v.desk c = some d) : c ∈ v.connections := by
  obtain ⟨past, hpast⟩ := h.flat.orderly
  by_contra hc
  rw [(hpast.fresh c hc).1] at hd
  exact absurd hd (Option.some_ne_none d).symm

theorem awaits_of_pending (h : Bounded marks v) (hd : v.desk c = some d) (hp : d.pending = some p) :
    d.awaitsPacket = false := by
  obtain ⟨past, hpast⟩ := h.flat.orderly
  refine Bool.eq_false_of_not_eq_true fun hawaits => ?_
  rw [(hpast.phase c d hd).of_awaits hawaits] at hp
  exact absurd hp (Option.some_ne_none p).symm

theorem of_fewer (h : Bounded marks v) (hflat : Flat w) (hconnections : w.connections = v.connections)
    (hsize : queueSize w.protocolState ≤ queueSize v.protocolState)
    {marks' : ClientId → Bool} (hentitled : ∀ x, w.entitled marks' x = true → v.entitled marks x = true)
    (hnodup : (promised w.calls).Nodup)
    (hasked : ∀ u calls, w.calls = .queryForPayload true u :: calls → queueSize w.protocolState = 0) :
    Bounded marks' w := by
  have hbound := h.bound
  have hcount : w.connections.countP (w.entitled marks') ≤ v.connections.countP (v.entitled marks) := by
    rw [hconnections]
    exact List.countP_mono_left fun x _ => hentitled x
  refine ⟨hflat, ?_, hnodup, hasked⟩
  rw [hconnections]
  unfold load at hbound ⊢
  omega

theorem asked_call {e : Hdlcd.Event} (hv : Consistent v.protocolState)
    (hcalls : ∀ u calls, v.calls ≠ .queryForPayload true u :: calls) (u : Bool) (calls : List Call)
    (hasked : (v.call e).calls = .queryForPayload true u :: calls) : queueSize (v.call e).protocolState = 0 := by
  unfold call at hasked
  cases handle_asked hv e with
  | nothing hqs =>
    rw [hqs] at hasked
    exact absurd hasked (hcalls u calls)
  | payload _ hempty _ hqs =>
    rw [hqs] at hasked
    have hboth := (Call.queryForPayload.inj (List.cons.inj hasked).1).1
    rw [Bool.and_eq_true, List.isEmpty_iff] at hboth
    unfold call queueSize
    rw [hboth.1, hempty]
    rfl

theorem of_call (h : Bounded marks v) {e : Hdlcd.Event} (hsubmits : submits e = 0) (hflat : Flat (v.call e))
    (hcalls : ∀ u calls, v.calls ≠ .queryForPayload true u :: calls) : Bounded marks (v.call e) := by
  have hpromised : promised (v.call e).calls = promised v.calls := promised_ask _ _
  have hsize := handle_queueSize h.flat.consistent e
  rw [hsubmits, Nat.add_zero] at hsize
  refine h.of_fewer hflat rfl hsize (fun x hx => ?_) (hpromised ▸ h.nodup)
    (asked_call h.flat.consistent hcalls)
  rw [entitled_iff] at hx ⊢
  rwa [hpromised] at hx

theorem of_submit (h : Bounded marks v) (hps : w.protocolState = v.protocolState)
    (hconnections : w.connections = v.connections) (hc : c ∈ v.connections) (hflat : Flat (w.call (submit p)))
    (hentitled : ∀ x, w.entitled marks x = true → v.entitled marks x = true) (hafter : w.entitled marks c = false)
    (hroom : v.entitled marks c = true ∨ (p.reliable = false ∧ v.protocolState.uiFrameNext = true) ∨
      v.load marks < v.connections.length)
    (hnodup : (promised w.calls).Nodup) (hcalls : ∀ u calls, w.calls ≠ .queryForPayload true u :: calls) :
    Bounded marks (w.call (submit p)) := by
  have hpromised : promised (w.call (submit p)).calls = promised w.calls := promised_ask _ _
  have hconsistent : Consistent w.protocolState := hps ▸ h.flat.consistent
  have hsame : (w.call (submit p)).entitled marks = w.entitled marks := by
    funext x
    rw [Bool.eq_iff_iff, entitled_iff, entitled_iff, hpromised]
    rfl
  have hcount : w.connections.countP (w.entitled marks) ≤ v.connections.countP (v.entitled marks) := by
    rw [hconnections]
    exact List.countP_mono_left fun x _ => hentitled x
  have hsize : queueSize (w.call (submit p)).protocolState ≤ queueSize v.protocolState + 1 := by
    rw [← hps]
    exact handle_queueSize hconsistent (submit p)
  have hbound := h.bound
  refine ⟨hflat, ?_, hpromised ▸ hnodup, asked_call hconsistent hcalls⟩
  show queueSize (w.call (submit p)).protocolState + w.connections.countP ((w.call (submit p)).entitled marks) ≤
    w.connections.length
  rw [hsame]
  unfold load at hbound hroom
  rcases hroom with hbefore | ⟨hreliable, hnext⟩ | hroom
  · have hless : w.connections.countP (w.entitled marks) + 1 ≤ v.connections.countP (v.entitled marks) := by
      rw [hconnections]
      exact countP_succ_le (fun x _ => hentitled x) hc hbefore hafter
    rw [hconnections] at hless ⊢
    omega
  · have hkept : queueSize (w.call (submit p)).protocolState = queueSize v.protocolState := by
      show queueSize (handle (.internal (.sendPayload p.data p.reliable)) w.protocolState).1 = _
      rw [hps, hreliable]
      exact sendPayload_uiFrame h.flat.consistent hnext p.data
    rw [hconnections] at hcount ⊢
    omega
  · rw [hconnections] at hcount ⊢
    omega

theorem accept (h : Bounded marks v) (hd : v.desk c = some d) (hreceives : v.Receives c d)
    (hawaits : d.awaitsPacket = true)
    (hroom : marks c = false ∨ (p.reliable = false ∧ v.protocolState.uiFrameNext = true) ∨
      v.load marks < v.connections.length) :
    Bounded marks (call (submit p) { v.seat c { d with awaitsPacket := false, pending := some p } with
      calls := .packetDelivery c :: v.calls }) := by
  have hidle : v.calls = [] := by
    refine hreceives.2.resolve_right fun hhead => ?_
    obtain ⟨calls, hcalls⟩ := List.head?_eq_some_iff.mp hhead
    exact Bool.false_ne_true ((h.flat.receiving c calls hcalls d hd).symm.trans hawaits)
  have hnone : promised (.packetDelivery c :: v.calls) = [] := by
    rw [hidle]
    rfl
  refine h.of_submit rfl rfl (h.connected hd) (h.flat.accept hd hreceives hawaits) (fun x hx => ?_) ?_
    (hroom.imp_left fun hmark => ?_) (by rw [hnone]; exact List.nodup_nil) (by simp)
  · rw [entitled_iff] at hx ⊢
    rcases hx with ⟨e, he, hea⟩ | hmem
    · unfold seat at he
      dsimp only at he
      split_ifs at he
      · cases he
        exact Bool.noConfusion hea.1
      · exact .inl ⟨e, he, hea⟩
    · rw [hnone] at hmem
      exact absurd hmem List.not_mem_nil
  · refine Bool.eq_false_of_not_eq_true fun hc => ?_
    rw [entitled_iff] at hc
    rcases hc with ⟨e, he, hea⟩ | hmem
    · unfold seat at he
      dsimp only at he
      rw [if_pos rfl] at he
      cases he
      exact Bool.noConfusion hea.1
    · rw [hnone] at hmem
      exact absurd hmem List.not_mem_nil
  · rw [entitled_iff]
    exact .inl ⟨d, hd, hawaits, hmark⟩

theorem visited (h : Bounded marks v) (hcalls : v.calls = .forEach r u (c :: clients) :: calls) : Base calls ∧
    promised v.calls = (if r then c :: clients else []) ∧ (r = true → c ∉ clients) ∧
      (if r then clients else []).Nodup := by
  have hbelow := (hcalls ▸ h.flat.shallow : Shallow (.forEach r u (c :: clients) :: calls)).below_forEach
  have hpromised : promised v.calls = if r then c :: clients else [] := by
    rw [hcalls]
    exact promised_forEach r u (c :: clients) hbelow
  have hnodup := h.nodup
  rw [hpromised] at hnodup
  cases r with
  | false => exact ⟨hbelow, hpromised, fun hr => Bool.noConfusion hr, List.nodup_nil⟩
  | true =>
    obtain ⟨hc, hclients⟩ := List.nodup_cons.mp hnodup
    exact ⟨hbelow, hpromised, fun _ => hc, hclients⟩

theorem mem_promised {x : ClientId} (hx : x ∈ if r then clients else []) : x ∈ if r then c :: clients else [] := by
  cases r with
  | false => exact hx
  | true => exact List.mem_cons_of_mem c hx

theorem pass (h : Bounded marks v) (hcalls : v.calls = .forEach r u (c :: clients) :: calls)
    (hd : ∀ d, v.desk c = some d → ∃ p, d.pending = some p ∧ wanted r u p = false) :
    Bounded marks { v with calls := .forEach r u clients :: calls } := by
  obtain ⟨hbelow, hpromised, -, hnodup⟩ := h.visited hcalls
  have hnew := promised_forEach r u clients hbelow
  refine h.of_fewer (h.flat.visit (.pass r u c clients calls hcalls hd)) rfl le_rfl (fun x hx => ?_)
    (by rw [hnew]; exact hnodup) (by simp)
  rw [entitled_iff] at hx ⊢
  rw [hpromised]
  refine hx.imp_right fun hmem => mem_promised ?_
  rwa [hnew] at hmem

theorem deliver (h : Bounded marks v) (hcalls : v.calls = .forEach r u (c :: clients) :: calls)
    (hd : v.desk c = some d) (hp : d.pending = some p) (hwanted : wanted r u p = true)
    (hroom : r = true ∨ (p.reliable = false ∧ v.protocolState.uiFrameNext = true) ∨
      v.load marks < v.connections.length) :
    Bounded marks (call (submit p) { v with calls := .pendingDelivery c :: .forEach r u clients :: calls }) := by
  obtain ⟨hbelow, hpromised, hfresh, hnodup⟩ := h.visited hcalls
  have hnew : promised (.pendingDelivery c :: .forEach r u clients :: calls) = if r then clients else [] :=
    promised_forEach r u clients hbelow
  refine h.of_submit (w := { v with calls := .pendingDelivery c :: .forEach r u clients :: calls }) rfl rfl
    (h.connected hd) (h.flat.deliver hcalls hd hp hwanted) (fun x hx => ?_) ?_ (hroom.imp_left fun hr => ?_)
    (by rw [hnew]; exact hnodup) (by simp)
  · rw [entitled_iff, hnew] at hx
    rw [entitled_iff, hpromised]
    exact hx.imp_right mem_promised
  · refine Bool.eq_false_of_not_eq_true fun hc => ?_
    rw [entitled_iff, hnew] at hc
    rcases hc with ⟨e, he, hea⟩ | hmem
    · have hsame : e = d := Option.some.inj (he.symm.trans hd)
      rw [hsame, h.awaits_of_pending hd hp] at hea
      exact Bool.noConfusion hea.1
    · cases r with
      | false => exact List.not_mem_nil hmem
      | true => exact hfresh rfl hmem
  · rw [entitled_iff, hpromised, hr]
    exact .inr (List.mem_cons_self ..)

theorem query (h : Bounded marks v) (hcalls : v.calls = .forEach r u (c :: clients) :: calls)
    (hd : v.desk c = some d) (hp : d.pending = none) :
    Bounded (mark r c d marks)
      (release c { d with awaitsPacket := true } { v with calls := .forEach r u clients :: calls }) := by
  obtain ⟨hbelow, hpromised, -, hnodup⟩ := h.visited hcalls
  have hstalled : d.stalled = false := by
    obtain ⟨past, hpast⟩ := h.flat.orderly
    exact ((hpast.phase c d hd).of_empty hp).1
  have hreleased : (release c { d with awaitsPacket := true }
      { v with calls := .forEach r u clients :: calls }).calls = .forEach r u clients :: calls := by
    unfold release
    rw [if_neg (by simp [hstalled])]
  have hnew := promised_forEach r u clients hbelow
  refine h.of_fewer (h.flat.query hcalls hd hp) rfl le_rfl (fun x hx => ?_)
    (by rw [hreleased, hnew]; exact hnodup) (by rw [hreleased]; simp)
  rw [entitled_iff, hreleased, hnew] at hx
  rw [entitled_iff, hpromised]
  rcases hx with ⟨e, he, hea, hmark⟩ | hmem
  · unfold mark at hmark
    by_cases hxc : x = c
    · subst hxc
      rw [if_pos rfl] at hmark
      cases r with
      | true => exact .inr (List.mem_cons_self ..)
      | false =>
        simp only [Bool.not_false, Bool.true_and, Bool.or_eq_false_iff, Bool.not_eq_false'] at hmark
        exact .inl ⟨d, hd, hmark⟩
    · rw [if_neg hxc] at hmark
      have hold : v.desk x = some e := (if_neg hxc).symm.trans he
      exact .inl ⟨e, hold, hea, hmark⟩
  · exact .inr (mem_promised hmem)

theorem of_desks (h : Bounded marks v) (hflat : Flat w) (hconnections : w.connections = v.connections)
    (hsize : queueSize w.protocolState ≤ queueSize v.protocolState)
    (hdesks : ∀ x e, w.desk x = some e → e.awaitsPacket = true → ∃ d, v.desk x = some d ∧ d.awaitsPacket = true)
    (hpromised : (promised w.calls).Sublist (promised v.calls))
    (hasked : ∀ u calls, w.calls = .queryForPayload true u :: calls → queueSize w.protocolState = 0) :
    Bounded marks w := by
  refine h.of_fewer hflat hconnections hsize (fun x hx => ?_) (h.nodup.sublist hpromised) hasked
  rw [entitled_iff] at hx ⊢
  rcases hx with ⟨e, he, hea, hmark⟩ | hmem
  · obtain ⟨d, hd, hda⟩ := hdesks x e he hea
    exact .inl ⟨d, hd, hda, hmark⟩
  · exact .inr (hpromised.subset hmem)

theorem returned (h : Bounded marks v) {x : Call} (hcalls : v.calls = x :: calls) (hflat : Flat w)
    (hconnections : w.connections = v.connections) (hps : queueSize w.protocolState = queueSize v.protocolState)
    (hdesks : ∀ x e, w.desk x = some e → e.awaitsPacket = true → ∃ d, v.desk x = some d ∧ d.awaitsPacket = true)
    (hwcalls : w.calls = calls) : Bounded marks w := by
  have hshallow : Shallow (x :: calls) := hcalls ▸ h.flat.shallow
  refine h.of_desks hflat hconnections hps.le hdesks ?_ fun u calls' hasked => ?_
  · rw [hwcalls, hcalls, promised_cons]
    exact List.sublist_append_right ..
  · exact absurd (hwcalls.symm.trans hasked) (hshallow.tail_ne_query true u calls')

theorem seated {e : Desk} (hd : v.desk c = some d) (hawaits : e.awaitsPacket = true → d.awaitsPacket = true) :
    ∀ x e', (v.seat c e).desk x = some e' → e'.awaitsPacket = true →
      ∃ d, v.desk x = some d ∧ d.awaitsPacket = true := by
  intro x e' he hea
  unfold seat at he
  dsimp only at he
  split_ifs at he with hx
  · cases he
    exact ⟨d, hx ▸ hd, hawaits hea⟩
  · exact ⟨e', he, hea⟩

theorem stall (h : Bounded marks v) (hd : v.desk c = some d) (hreceives : v.Receives c d)
    (hawaits : d.awaitsPacket = false) :
    Bounded marks { v.seat c { d with pending := some p, stalled := true } with
      calls := if v.calls.head? = some (.receiving c) then v.calls.tail else v.calls } := by
  have hflat := h.flat.stall (p := p) hd hreceives hawaits
  have hdesks := seated (e := { d with pending := some p, stalled := true }) hd fun hea => hea
  rcases hreceives.2 with hidle | hhead
  · have hkept : (if v.calls.head? = some (.receiving c) then v.calls.tail else v.calls) = v.calls := by
      rw [hidle]
      rfl
    refine h.of_desks hflat rfl le_rfl hdesks (by rw [hkept]) fun u calls hasked => ?_
    rw [hkept, hidle] at hasked
    exact absurd hasked (List.cons_ne_nil _ _).symm
  · obtain ⟨calls, hcalls⟩ := List.head?_eq_some_iff.mp hhead
    refine h.returned hcalls hflat rfl rfl hdesks ?_
    dsimp only
    rw [if_pos hhead, hcalls, List.tail_cons]

theorem pendingDelivered (h : Bounded marks v) (hcalls : v.calls = .pendingDelivery c :: calls)
    (hd : v.desk c = some d) : Bounded marks (release c { d with pending := none } { v with calls := calls }) := by
  have hflat := h.flat.pendingDelivered hcalls hd
  have hdesks := seated (e := { d with pending := none, stalled := false }) hd fun hea => hea
  have hshallow : Shallow (.pendingDelivery c :: calls) := hcalls ▸ h.flat.shallow
  have hpromised : promised v.calls = promised calls := by
    rw [hcalls, promised_cons]
    rfl
  refine h.of_desks hflat rfl le_rfl hdesks ?_ fun u calls' hasked => ?_
  · rw [hpromised]
    unfold release
    split_ifs
    · exact List.Sublist.refl _
    · exact List.Sublist.refl _
  · unfold release at hasked
    split_ifs at hasked
    · exact Call.noConfusion (List.cons.inj hasked).1
    · exact absurd hasked (hshallow.tail_ne_query true u calls')

theorem moved (h : Bounded marks v) (f : FrameParser) (hmoved : Moved v.calls calls) :
    Bounded marks { v with protocolState := { v.protocolState with frameParser := f }, calls := calls } := by
  have hflat := h.flat.moved f hmoved
  have hdesks : ∀ x e, v.desk x = some e → e.awaitsPacket = true → ∃ d, v.desk x = some d ∧ d.awaitsPacket = true :=
    fun x e he hea => ⟨e, he, hea⟩
  have hpushed (hpromised : promised calls = promised v.calls)
      (hne : ∀ u calls', calls ≠ .queryForPayload true u :: calls') :
      Bounded marks { v with protocolState := { v.protocolState with frameParser := f }, calls := calls } :=
    h.of_desks hflat rfl le_rfl hdesks (by rw [hpromised]) fun u calls' hasked => absurd hasked (hne u calls')
  generalize hold : v.calls = old at hmoved
  cases hmoved with
  | readHandler | bytes | chunk => exact hpushed (by rw [hold]; rfl) (by simp)
  | returned x rest hx => exact h.returned hold hflat rfl rfl hdesks rfl

theorem event (h : Bounded marks v) {e : Hdlcd.Event}
    (he : ∀ payload reliable, e ≠ .internal (.sendPayload payload reliable))
    (hbase : v.calls = [] ∨ ∃ offset bytes calls, v.calls = .addReceivedRawBytes offset bytes :: calls) :
    Bounded marks (v.call e) := by
  have hsubmits : submits e = 0 := by
    cases e with
    | internal e =>
      cases e with
      | sendPayload payload reliable => exact absurd rfl (he payload reliable)
      | _ => rfl
    | frame => rfl
  refine h.of_call hsubmits (h.flat.event he hbase) fun u calls hcalls => ?_
  rcases hbase with hidle | ⟨offset, bytes, calls', hparsing⟩
  · exact List.cons_ne_nil _ _ (hcalls.symm.trans hidle)
  · exact Call.noConfusion (List.cons.inj (hcalls.symm.trans hparsing)).1

theorem leave (h : Bounded marks v) (gone : ClientId → Bool) :
    Bounded marks { v with desk := fun c => if gone c then none else v.desk c } := by
  refine h.of_desks (h.flat.leave gone) rfl le_rfl (fun x e he hea => ⟨e, ?_, hea⟩) (List.Sublist.refl _) h.asked
  have hstays : (if gone x then none else v.desk x) = some e := he
  split_ifs at hstays
  exact hstays

theorem attach (h : Bounded marks v) (hidle : v.calls = []) (hnew : c ∉ v.connections) :
    Bounded marks { v.seat c {} with connections := v.connections ++ [c] } := by
  have hbound := h.bound
  have hold : v.connections.countP (entitled marks { v.seat c {} with connections := v.connections ++ [c] }) ≤
      v.connections.countP (v.entitled marks) := by
    refine List.countP_mono_left fun x hmem hx => ?_
    have hxc : x ≠ c := by
      rintro rfl
      exact hnew hmem
    rw [entitled_iff] at hx ⊢
    refine hx.imp_left ?_
    rintro ⟨e, he, hea⟩
    exact ⟨e, (if_neg hxc).symm.trans he, hea⟩
  have hone : [c].countP (entitled marks { v.seat c {} with connections := v.connections ++ [c] }) ≤ 1 :=
    List.countP_le_length
  have hcount :
      (v.connections ++ [c]).countP (entitled marks { v.seat c {} with connections := v.connections ++ [c] }) =
        _ + _ := List.countP_append
  refine ⟨h.flat.attach hidle hnew, ?_, h.nodup, h.asked⟩
  show queueSize v.protocolState + (v.connections ++ [c]).countP _ ≤ (v.connections ++ [c]).length
  rw [List.length_append, List.length_singleton]
  unfold load at hbound
  omega

theorem control (h : Bounded marks v) {e : LocalEvent} (he : e = .start ∨ e = .stop ∨ e = .shutdown) :
    Bounded marks { v with protocolState := (handleLocal e v.protocolState).1 } := by
  have hsize : queueSize (handleLocal e v.protocolState).1 ≤ queueSize v.protocolState := by
    have hevent := handle_queueSize h.flat.consistent (.internal e)
    rcases he with rfl | rfl | rfl <;> exact hevent
  refine h.of_desks (h.flat.control he) rfl hsize (fun x d hd hea => ⟨d, hd, hea⟩) (List.Sublist.refl _)
    fun u calls hasked => ?_
  have hempty := h.asked u calls hasked
  exact Nat.le_zero.mp (hempty ▸ hsize)

theorem turn (h : Bounded marks v) (hturn : Turn v w o) : Bounded marks w := by
  have hsame : ∀ x e, v.desk x = some e → e.awaitsPacket = true → ∃ d, v.desk x = some d ∧ d.awaitsPacket = true :=
    fun x e he hea => ⟨e, he, hea⟩
  have hflat := h.flat.turn hturn
  cases hturn with
  | control e he => exact h.control he
  | leave gone => exact h.leave gone
  | attach c hidle hnew => exact h.attach hidle hnew
  | event e he hbase => exact h.event he hbase
  | moved f calls hmoved => exact h.moved f hmoved
  | stall c d p hd hreceives hawaits => exact h.stall hd hreceives hawaits
  | orphaned c calls hcalls =>
    rcases hcalls with hcalls | hcalls
    · exact h.returned hcalls hflat rfl rfl hsame rfl
    · exact h.returned hcalls hflat rfl rfl hsame rfl
  | delivered c calls d hcalls hd =>
    exact h.returned hcalls hflat rfl rfl (seated hd fun hea => hea) rfl
  | pendingDelivered c calls d hcalls hd => exact h.pendingDelivered hcalls hd

theorem round (h : Bounded marks v) (hround : Round v w) : Bounded marks w := by
  have hflat := h.flat.round hround
  cases hround with
  | begin r u clients calls hcalls hclients hnodup =>
    have hbelow := (hcalls ▸ h.flat.shallow : Shallow (.queryForPayload r u :: calls)).below_query
    have hpromised := promised_forEach r u clients hbelow
    cases r with
    | false =>
      refine h.of_desks hflat rfl le_rfl (fun x d hd hea => ⟨d, hd, hea⟩) ?_ (by simp)
      rw [hpromised]
      exact List.nil_sublist _
    | true =>
      refine ⟨hflat, ?_, by rw [hpromised]; exact hnodup, by simp⟩
      have hempty := h.asked u calls hcalls
      show queueSize v.protocolState + v.connections.countP _ ≤ v.connections.length
      rw [hempty, Nat.zero_add]
      exact List.countP_le_length

theorem initial : Bounded marks Port.initial.desks where
  flat := .initial
  bound := Nat.le_refl 0
  nodup := List.nodup_nil
  asked _ _ hcalls := absurd hcalls (List.cons_ne_nil _ _).symm

end Bounded
end
end Hdlcd.Desks

namespace Hdlcd.Port
open Reactive Desks ProtocolState

/-- A port, and the clients whose next packet only a round for unreliable packets has asked for. -/
structure Watched where
  port : Port := initial
  marks : ClientId → Bool := fun _ => false

namespace Watched

def full (p : PacketData) (w : Watched) : Bool :=
  (p.reliable || !w.port.protocolState.uiFrameNext) &&
    decide (w.port.connections.length ≤ w.port.desks.load w.marks)

/-- A packet is taken on the strength of a round for unreliable packets only, and there is no room. -/
def exceeds (w : Watched) : Event → Bool
  | .receive c (.data p) _ => (w.port.handlers c).any fun h =>
      w.port.receives c h && h.serialPortHandlerAwaitsPacket && w.marks c && w.full p
  | .proceed =>
    match w.port.calls with
    | .forEach false u (c :: _) :: _ => (w.port.desks.desk c).any fun d =>
        d.pending.any fun p => wanted false u p && w.full p
    | _ => false
  | _ => false

def marked (w : Watched) : Event → ClientId → Bool
  | .proceed =>
    match w.port.calls with
    | .forEach r _ (c :: _) :: _ =>
      match w.port.desks.desk c with
      | some d => if d.pending.isNone then mark r c d w.marks else w.marks
      | none => w.marks
    | _ => w.marks
  | _ => w.marks

def watch (e : Event) : Action Watched Output := fun w =>
  ({ port := (step e w.port).1, marks := w.marked e }, (step e w.port).2)

structure Bounded (w : Watched) : Prop where
  enrolled : Enrolled w.port
  bounded : Desks.Bounded w.marks w.port.desks

namespace Bounded

variable {w : Watched} {t : Port} {o : List Output} {c : ClientId} {p : PacketData} {opens : OpenResult}

theorem room (h : w.full p = false) : (p.reliable = false ∧ w.port.protocolState.uiFrameNext = true) ∨
    w.port.desks.load w.marks < w.port.desks.connections.length := by
  unfold full at h
  rcases Bool.and_eq_false_iff.mp h with hnext | hroom
  · obtain ⟨hreliable, hnext⟩ := Bool.or_eq_false_iff.mp hnext
    exact .inl ⟨hreliable, (Bool.not_eq_false' _).mp hnext⟩
  · exact .inr (Nat.lt_of_not_le (of_decide_eq_false hroom))

theorem accepts (h : w.Bounded) (he : w.exceeds (.receive c (.data p) opens) = false)
    (haccept : Acceptance c p w.port.desks t.desks o) : Desks.Bounded w.marks t.desks := by
  generalize hv : t.desks = v at haccept ⊢
  cases haccept with
  | accept d hd hreceives hawaits =>
    obtain ⟨client, hc, rfl⟩ := Option.map_eq_some_iff.mp hd
    refine h.bounded.accept hd hreceives hawaits ?_
    unfold exceeds at he
    dsimp only at he
    rw [hc, Option.any_some, receives_of_desks hreceives] at he
    rw [show client.serialPortHandlerAwaitsPacket = true from hawaits, Bool.true_and, Bool.true_and] at he
    exact (Bool.and_eq_false_iff.mp he).imp_right room

theorem visits (h : w.Bounded) (he : w.exceeds .proceed = false) (hvisit : Visit w.port.desks t.desks o) :
    Desks.Bounded (w.marked .proceed) t.desks := by
  generalize hv : t.desks = v at hvisit ⊢
  cases hvisit with
  | pass r u c clients calls hcalls hd =>
    have hmarked : w.marked .proceed = w.marks := by
      unfold marked
      rw [show w.port.calls = _ from hcalls]
      dsimp only
      cases hdesk : w.port.desks.desk c with
      | none => rfl
      | some d =>
        obtain ⟨p, hp, -⟩ := hd d hdesk
        dsimp only
        rw [hp]
        rfl
    rw [hmarked]
    exact h.bounded.pass hcalls hd
  | deliver r u c clients calls d p hcalls hd hp hwanted =>
    have hmarked : w.marked .proceed = w.marks := by
      unfold marked
      rw [show w.port.calls = _ from hcalls]
      dsimp only
      rw [hd]
      dsimp only
      rw [hp]
      rfl
    rw [hmarked]
    refine h.bounded.deliver hcalls hd hp hwanted ?_
    cases r with
    | true => exact .inl rfl
    | false =>
      unfold exceeds at he
      rw [show w.port.calls = _ from hcalls] at he
      dsimp only at he
      rw [hd, Option.any_some, hp, Option.any_some, hwanted, Bool.true_and] at he
      exact .inr (room he)
  | query r u c clients calls d hcalls hd hp =>
    have hmarked : w.marked .proceed = mark r c d w.marks := by
      unfold marked
      rw [show w.port.calls = _ from hcalls]
      dsimp only
      rw [hd]
      dsimp only
      rw [hp]
      rfl
    rw [hmarked]
    exact h.bounded.query hcalls hd hp

theorem step (h : w.Bounded) {e : Event} (he : w.exceeds e = false) : (watch e w).1.Bounded := by
  have hkept (hmarked : w.marked e = w.marks) {v : Desks} (hv : Desks.Bounded w.marks v) :
      Desks.Bounded (w.marked e) v := by rwa [hmarked]
  unfold watch
  cases step_advances h.enrolled e with
  | turns hrefines hcalls =>
    have hmarked : w.marked e = w.marks := by
      unfold marked
      split
      · split
        · exact absurd ‹_› (hcalls rfl _ _ _ _ _)
        · rfl
      · rfl
    refine ⟨hrefines.enrolled, hkept hmarked ?_⟩
    exact hrefines.turns.keep (I := fun v _ => Desks.Bounded w.marks v)
      (fun _ _ _ _ hturn hv => hv.turn hturn) [] h.bounded
  | accepts henrolled haccept => exact ⟨henrolled, h.accepts he haccept⟩
  | visits henrolled hvisit => exact ⟨henrolled, h.visits he hvisit⟩
  | round r u calls hcalls henrolled hround =>
    have hmarked : w.marked .proceed = w.marks := by
      unfold marked
      rw [hcalls]
    exact ⟨henrolled, hkept hmarked (h.bounded.round hround)⟩

end Bounded
end Watched

end Hdlcd.Port
