import Hdlcd.Port.Handover
import Hdlcd.Port.Sniffers
import Hdlcd.Protocol.History

/-! When the link is idle, every client can hand over a packet that is passed on at once. -/

namespace Hdlcd.Desks
open Reactive ProtocolState
open Port (Output)

def Ready (d : Desk) : Prop := d.pending = none ∧ d.awaitsPacket = true

def Expects (c : ClientId) : Call → Prop
  | .queryForPayload true true => True
  | .forEach true true clients => c ∈ clients
  | _ => False

def Expected (c : ClientId) (calls : List Call) : Prop := ∃ x ∈ calls, Expects c x

/-- When the link is idle, each client is ready, or is about to be queried. -/
structure Attended (v : Desks) : Prop where
  consistent : Consistent v.protocolState
  ready : Idle v.protocolState → ∀ c d, v.desk c = some d → Ready d ∨ Expected c v.calls

section
variable {v w : Desks} {o : List Output} {calls : List Call} {c x : ClientId} {d : Desk}
  {p : PacketData} {r u : Bool}

theorem Expected.append (h : Expected c calls) (new : List Call) : Expected c (new ++ calls) := by
  obtain ⟨x, hx, hexpects⟩ := h
  exact ⟨x, List.mem_append_right _ hx, hexpects⟩

theorem Expected.tail {y : Call} (h : Expected c (y :: calls)) (hy : ¬ Expects c y) : Expected c calls := by
  obtain ⟨x, hx, hexpects⟩ := h
  rcases List.mem_cons.mp hx with rfl | hx
  · exact absurd hexpects hy
  · exact ⟨x, hx, hexpects⟩

theorem Expected.replace {y z : Call} (h : Expected c (y :: calls)) (hyz : Expects c y → Expects c z) :
    Expected c (z :: calls) := by
  obtain ⟨x, hx, hexpects⟩ := h
  rcases List.mem_cons.mp hx with rfl | hx
  · exact ⟨z, List.mem_cons_self .., hyz hexpects⟩
  · exact ⟨x, List.mem_cons_of_mem _ hx, hexpects⟩

theorem Expects.queryForPayload (h : Expects c (.queryForPayload r u)) : r = true ∧ u = true := by
  cases r <;> cases u <;> first | exact ⟨rfl, rfl⟩ | exact h.elim

theorem Expects.forEach {clients : List ClientId} (h : Expects c (.forEach r u clients)) :
    r = true ∧ u = true ∧ c ∈ clients := by
  cases r <;> cases u <;> first | exact ⟨rfl, rfl, h⟩ | exact h.elim

theorem expects_forEach {clients : List ClientId} (hr : r = true) (hu : u = true) (hc : c ∈ clients) :
    Expects c (.forEach r u clients) := by
  rw [hr, hu]
  exact hc

theorem Expected.visited {clients : List ClientId} (h : Expected x (.forEach r u (c :: clients) :: calls))
    (hother : r = true → u = true → x ≠ c) : Expected x (.forEach r u clients :: calls) := by
  refine h.replace fun hx => ?_
  obtain ⟨hr, hu, hmem⟩ := hx.forEach
  exact expects_forEach hr hu ((List.mem_cons.mp hmem).resolve_left (hother hr hu))

theorem wanted_both (p : PacketData) : wanted true true p = true := by
  unfold wanted
  cases p.reliable <;> rfl

namespace Attended

theorem keep (h : Attended v) (hps : Consistent w.protocolState)
    (hidle : Idle w.protocolState → Idle v.protocolState)
    (hdesk : ∀ c d, w.desk c = some d → Ready d ∨
      ∃ d', v.desk c = some d' ∧ (Ready d' → Ready d) ∧ (Expected c v.calls → Ready d ∨ Expected c w.calls)) :
    Attended w := by
  refine ⟨hps, fun hw c d hd => ?_⟩
  rcases hdesk c d hd with hready | ⟨d', hd', hready, hexpected⟩
  · exact .inl hready
  · rcases h.ready (hidle hw) c d' hd' with hbefore | hbefore
    · exact .inl (hready hbefore)
    · exact hexpected hbefore

theorem keep_desk (h : Attended v) (hps : Consistent w.protocolState)
    (hidle : Idle w.protocolState → Idle v.protocolState) (hdesk : w.desk = v.desk)
    (hcalls : ∀ c d, v.desk c = some d → Expected c v.calls → Expected c w.calls) : Attended w := by
  refine h.keep hps hidle fun c d hd => .inr ⟨d, hdesk ▸ hd, id, fun hexpected => .inr ?_⟩
  exact hcalls c d (hdesk ▸ hd) hexpected

theorem change (h : Attended v) {d' : Desk} (hd : v.desk c = some d)
    (hps : w.protocolState = v.protocolState) (hdesk : w.desk = (v.seat c d').desk)
    (hcalls : ∀ x, x ≠ c → Expected x v.calls → Expected x w.calls)
    (hready : Ready d → Ready d') (hself : Expected c v.calls → Ready d' ∨ Expected c w.calls) :
    Attended w := by
  refine h.keep (hps ▸ h.consistent) (fun hw => hps ▸ hw) fun x e he => ?_
  rw [hdesk] at he
  unfold seat at he
  dsimp only at he
  split_ifs at he with hx
  · subst hx
    cases he
    exact .inr ⟨d, hd, hready, hself⟩
  · exact .inr ⟨e, he, id, fun hexpected => .inr (hcalls x hx hexpected)⟩

theorem of_busy (hps : Consistent w.protocolState) (h : ¬ Idle w.protocolState) : Attended w :=
  ⟨hps, fun hw => absurd hw h⟩

theorem event (h : Attended v) (e : Hdlcd.Event) : Attended (v.call e) := by
  refine ⟨h.consistent.handle e, fun hidle c d hd => ?_⟩
  rcases handle_idle h.consistent hidle with hquery | ⟨hbefore, _⟩
  · refine .inr ⟨.queryForPayload true true, List.mem_append_left _ ?_, trivial⟩
    rw [hquery]
    exact List.mem_singleton_self _
  · exact (h.ready hbefore c d hd).imp_right fun hexpected => hexpected.append _

theorem submitted (h : Attended v) (p : PacketData) (calls : List Call) :
    Attended (call (submit p) { v with calls := calls }) :=
  .of_busy (h.consistent.handle _) (sendPayload_not_idle h.consistent p.data p.reliable)

theorem moved (h : Attended v) (p : FrameParser) (hmoved : Moved v.calls calls) :
    Attended { v with protocolState := { v.protocolState with frameParser := p }, calls := calls } := by
  refine h.keep_desk (h.consistent.congr rfl)
    (fun hw => ⟨hw.alive, hw.awaits, hw.reliable, hw.unreliable, hw.flowing⟩) rfl fun c d _ hexpected => ?_
  generalize v.calls = old at hmoved hexpected
  cases hmoved with
  | readHandler opening => exact hexpected.append [_]
  | bytes opening bytes => exact hexpected.append [_]
  | chunk bytes bytes' rest => exact hexpected.replace False.elim
  | returned y rest hy =>
    refine hexpected.tail fun hexpects => ?_
    cases hy with
    | forEach r u => exact absurd hexpects.forEach.2.2 List.not_mem_nil
    | receiving | addReceivedRawBytes | readHandler => exact hexpects

theorem turn (h : Attended v) (hturn : Turn v w o) : Attended w := by
  cases hturn with
  | control e he =>
    exact .of_busy (h.consistent.handle (.internal e))
      (not_idle_of_dead (Port.control_dead h.consistent he))
  | leave gone =>
    refine h.keep h.consistent id fun c d hd => .inr ⟨d, ?_, id, .inr⟩
    dsimp only at hd
    split_ifs at hd
    exact hd
  | attach c =>
    refine h.keep h.consistent id fun x d hd => ?_
    unfold seat at hd
    dsimp only at hd
    split_ifs at hd
    · cases hd
      exact .inl ⟨rfl, rfl⟩
    · exact .inr ⟨d, hd, id, .inr⟩
  | event e => exact h.event e
  | moved p calls hmoved => exact h.moved p hmoved
  | stall c d p hd _ hawaits =>
    have hcalls (x : ClientId) (hexpected : Expected x v.calls) :
        Expected x (if v.calls.head? = some (.receiving c) then v.calls.tail else v.calls) := by
      split_ifs with hhead
      · obtain ⟨calls, hcalls⟩ := List.head?_eq_some_iff.mp hhead
        rw [hcalls] at hexpected ⊢
        exact hexpected.tail id
      · exact hexpected
    refine h.change hd rfl rfl (fun x _ => hcalls x) (fun hready => ?_) fun hexpected => .inr (hcalls c hexpected)
    rw [Ready, hawaits] at hready
    exact Bool.noConfusion hready.2
  | orphaned c calls hcalls =>
    refine h.keep_desk h.consistent id rfl fun x d _ hexpected => ?_
    rcases hcalls with hcalls | hcalls <;>
    · rw [hcalls] at hexpected
      exact hexpected.tail id
  | delivered c calls d hcalls hd =>
    have hexpected (x : ClientId) (hexpected : Expected x v.calls) : Expected x calls := by
      rw [hcalls] at hexpected
      exact hexpected.tail id
    exact h.change hd rfl rfl (fun x _ => hexpected x) (fun hready => ⟨rfl, hready.2⟩) fun hself =>
      .inr (hexpected c hself)
  | pendingDelivered c calls d hcalls hd =>
    have hexpected (x : ClientId) (hexpected : Expected x v.calls) :
        Expected x (if d.stalled then .receiving c :: calls else calls) := by
      rw [hcalls] at hexpected
      split_ifs
      · exact (hexpected.tail id).append [_]
      · exact hexpected.tail id
    exact h.change hd rfl rfl (fun x _ => hexpected x) (fun hready => ⟨rfl, hready.2⟩) fun hself =>
      .inr (hexpected c hself)

theorem acceptance (h : Attended v) (haccept : Acceptance c p v w o) : Attended w := by
  cases haccept with
  | accept => exact .of_busy (h.consistent.handle _) (sendPayload_not_idle h.consistent p.data p.reliable)

theorem visit (h : Attended v) (hvisit : Visit v w o) : Attended w := by
  cases hvisit with
  | pass r u c clients calls hcalls hpass =>
    refine h.keep_desk h.consistent id rfl fun x d hd hexpected => ?_
    rw [hcalls] at hexpected
    -- a round for both kinds leaves no packet behind
    refine hexpected.visited fun hr hu => ?_
    rintro rfl
    obtain ⟨p, _, hunwanted⟩ := hpass d hd
    rw [hr, hu, wanted_both] at hunwanted
    exact Bool.noConfusion hunwanted
  | deliver r u c clients calls d p => exact h.submitted p _
  | query r u c clients calls d hcalls hd hp =>
    have hexpected (x : ClientId) (hx : x ≠ c) (hexpected : Expected x v.calls) (new : List Call) :
        Expected x (new ++ .forEach r u clients :: calls) := by
      rw [hcalls] at hexpected
      exact (hexpected.visited fun _ _ => hx).append new
    refine h.change hd rfl rfl (fun x hx hbefore => ?_) (fun _ => ⟨hp, rfl⟩) fun _ => .inl ⟨hp, rfl⟩
    unfold release
    dsimp only
    split_ifs
    · exact hexpected x hx hbefore [_]
    · exact hexpected x hx hbefore []

theorem round (h : Attended v) (hround : Round v w) : Attended w := by
  cases hround with
  | begin r u clients calls hcalls hclients =>
    refine h.keep_desk h.consistent id rfl fun x d hd hexpected => ?_
    rw [hcalls] at hexpected
    have hmem : x ∈ clients := (hclients x).mpr (Option.isSome_of_eq_some hd)
    exact hexpected.replace fun hx => expects_forEach hx.queryForPayload.1 hx.queryForPayload.2 hmem

theorem initial : Attended Port.initial.desks where
  consistent := .initial
  ready _ _ _ hd := absurd hd (Option.some_ne_none _).symm

end Attended
end
end Hdlcd.Desks

namespace Hdlcd.Port
open Reactive Action Desks ProtocolState

theorem run_attended (es : List Event) : Attended (run step es initial).1.desks :=
  (run_keeps (I := fun v _ => Attended v) (fun _ _ _ _ hturn h => h.turn hturn)
    (fun _ _ _ _ _ _ haccept h => h.acceptance haccept) (fun _ _ _ _ hvisit h => h.visit hvisit)
    (fun _ _ _ hround h => h.round hround) .initial es).2

theorem receive_passes {s : Port} {c : ClientId} {h : HdlcdServerHandler} (hc : s.handlers c = some h)
    (hcalls : s.calls = []) (hstalled : h.stalled = false) (hawaits : h.serialPortHandlerAwaitsPacket = true)
    (p : PacketData) (opens : OpenResult) : .sendPayload c p ∈ (step (.receive c (.data p) opens) s).2 ∧
      framesSent (step (.receive c (.data p) opens) s).2 =
        (handle (submit p) s.protocolState).2.filterMap frameOf := by
  have hreceives : s.receives c h = true := by simp [receives, hstalled, hcalls]
  have hstep : step (.receive c (.data p) opens) s = onDataReceived c h p s := by
    unfold step receive
    simp only [hc, hreceives, if_true]
  have hcalled (t : Port) (ht : t.protocolState = s.protocolState) :
      framesSent (callProtocolState (handle (submit p)) t).2 =
        (handle (submit p) s.protocolState).2.filterMap frameOf := by
    rw [← ht]
    exact effects_frames _ _
  rw [hstep]
  unfold onDataReceived
  rw [if_pos hawaits]
  refine ⟨by simp [deliverPayloadToHDLC, emit], ?_⟩
  have hasserted (t : Port) : ((if h.pendingIncomingPacketData.isSome then
      Action.emit [.fault .pendingPacket] else Action.skip : Act) t).1 = t ∧
      framesSent ((if h.pendingIncomingPacketData.isSome then
        Action.emit [.fault .pendingPacket] else Action.skip : Act) t).2 = [] := by
    split_ifs <;> exact ⟨rfl, rfl⟩
  simp only [andThen_apply, framesSent_append, deliverPayloadToHDLC, hasserted]
  exact hcalled _ rfl

/-- When every call has returned and the link is idle, no client has a pending packet, and its
next one is passed on at once. A frame leaves at once, too, and it carries the packet unless a
probe, a SREJ or an RR was left to go first. -/
theorem idle_clients_ready (es : List Event) (hcalls : (run step es initial).1.calls = [])
    (hidle : Idle (run step es initial).1.protocolState) {c : ClientId} {h : HdlcdServerHandler}
    (hc : (run step es initial).1.handlers c = some h) :
    h.pendingIncomingPacketData = none ∧ h.serialPortHandlerAwaitsPacket = true ∧
      ∀ p opens, .sendPayload c p ∈ (step (.receive c (.data p) opens) (run step es initial).1).2 ∧
        ∃ f, .transmitHDLCFrame f ∈ (step (.receive c (.data p) opens) (run step es initial).1).2 ∧
          ((run step es initial).1.protocolState.sendProbe = false →
            (run step es initial).1.protocolState.srejs = [] →
            p.reliable = true ∨ (run step es initial).1.protocolState.peerRequiresAck = false →
            f.payload = p.data ∧ f.isIFrame = p.reliable) := by
  have hready : Ready (desk h) := by
    refine ((run_attended es).ready hidle c _ (desk_of_handler hc)).resolve_right ?_
    rintro ⟨x, hx, _⟩
    have hx' : x ∈ (run step es initial).1.calls := hx
    rw [hcalls] at hx'
    exact absurd hx' List.not_mem_nil
  have hfree := (((run_orderly es).phase c _ (desk_of_handler hc)).of_empty hready.1).1
  refine ⟨hready.1, hready.2, fun p opens => ?_⟩
  obtain ⟨hpassed, hframes⟩ := receive_passes hc hcalls hfree hready.2 p opens
  obtain ⟨f, ⟨copies, buffer, heffects, -, -⟩, hcarries⟩ :=
    Idle.sends (s := (run step es initial).1.protocolState) (run_attended es).consistent hidle p.data p.reliable
  refine ⟨hpassed, f, ?_, hcarries⟩
  have hf : f ∈ framesSent (step (.receive c (.data p) opens) (run step es initial).1).2 := by
    rw [hframes, submit, heffects, List.filterMap_append]
    exact List.mem_append_right _ (List.mem_singleton_self f)
  obtain ⟨y, hy, hyf⟩ := List.mem_filterMap.mp hf
  cases y with
  | transmitHDLCFrame g =>
    rw [← Option.some.inj hyf]
    exact hy
  | _ => exact absurd hyf.symm (Option.some_ne_none f)

def wakeUp : List Event :=
  [.writeCompletes 0 (.success 6), .writeHandler 0,
    .readCompletes 0 (.success (FrameGenerator.escapeFrame
      (serialized { address := 0x30, hdlcFrameType := .uUI, payload := [0x55] }))),
    .readHandler 0]

/-- A client attaches, the link comes up, and the query ends. -/
def firstRound : List Event := .attach 0 0x00 .opened :: (wakeUp ++ List.replicate 7 .proceed)

theorem idle_clients_ready_firstRound :
    .sendPayload 0 ⟨[0x41], true⟩ ∈
      (step (.receive 0 (.data ⟨[0x41], true⟩) .opened) (run step firstRound initial).1).2 :=
  (idle_clients_ready firstRound (by decide) (by constructor <;> decide) (c := 0)
    (h := { deliverInitialState := false, bufferType := .payload, deliverSent := false,
            deliverRcvd := false, deliverInvalidData := false }) rfl).2.2 ⟨[0x41], true⟩ .opened |>.1

end Hdlcd.Port
