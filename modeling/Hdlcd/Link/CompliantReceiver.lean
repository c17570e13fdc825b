import Hdlcd.Library.AckTrail
import Hdlcd.Link.Link

/-! An HDLC entity that sends to a device. The device keeps V(R), accepts only the I-frame
with this number, and reports V(R) in RR, RNR and I-frames. -/

namespace Hdlcd
open Reactive Action FrameGenerator FrameParser Framing AckTrail

structure Receiver where
  vR : UInt8 := 0
  accepted : List Payload := []
  deriving DecidableEq

namespace Receiver

def receive (r : Receiver) (f : HdlcFrame) : Receiver :=
  if f.isIFrame && f.sSeq == r.vR then
    { vR := (r.vR + 1) &&& 0x07, accepted := r.accepted ++ [f.payload] }
  else r

def sends (f : HdlcFrame) : Bool := ProtocolState.carriesAck f || f.isUFrame

def report (r : Receiver) (f : HdlcFrame) : List (List UInt8) :=
  if sends f then (serializeFrame { f with rSeq := r.vR }).toList else []

end Receiver

structure DeviceLink where
  sender : ProtocolState
  receiver : Receiver
  toReceiver : List (List UInt8)
  toSender : List (List UInt8)
  deriving DecidableEq

inductive DeviceEvent
  | sender (event : LocalEvent)
  -- the device sends a frame, of which it chooses everything but the N(R)
  | report (hdlcFrame : HdlcFrame)
  | deliverToSender
  | deliverToReceiver
  | dropToSender (i : Nat)
  | dropToReceiver (i : Nat)
  | alive (eAliveState : EAliveState)
  deriving DecidableEq, Repr

namespace DeviceLink
open Link (seq next ne_next buffers seq_and_seven seq_add_one)
open ProtocolState (Kept Quiet Stable Steady AckRule Passed carriesAck nextSSeq afterPayload prologue)

def act (a : ProtocolState.Act) : Action DeviceLink Effect := fun l =>
  ({ l with sender := (a l.sender).1, toReceiver := l.toReceiver ++ buffers (a l.sender).2 },
    (a l.sender).2)

def deliverToSender : Action DeviceLink Effect := fun l =>
  match l.toSender with
  | [] => (l, [])
  | buffer :: rest => act (ProtocolState.handle (.frame buffer false)) { l with toSender := rest }

def deliverToReceiver (l : DeviceLink) : DeviceLink :=
  match l.toReceiver with
  | [] => l
  | buffer :: rest =>
    { l with receiver := l.receiver.receive (deserializeFrame buffer), toReceiver := rest }

def handle : DeviceEvent → Action DeviceLink Effect
  | .sender event => act (ProtocolState.handleLocal event)
  | .report hdlcFrame => update fun l => { l with toSender := l.toSender ++ l.receiver.report hdlcFrame }
  | .deliverToSender => deliverToSender
  | .deliverToReceiver => update deliverToReceiver
  | .dropToSender i => update fun l => { l with toSender := l.toSender.eraseIdx i }
  | .dropToReceiver i => update fun l => { l with toReceiver := l.toReceiver.eraseIdx i }
  | .alive eAliveState => update fun l => { l with sender := Link.setAlive eAliveState l.sender }

def freshlyStarted : DeviceLink :=
  (handle (.sender .start)
    { sender := ProtocolState.initial, receiver := {}, toReceiver := [], toSender := [] }).1

abbrev History := List (DeviceEvent ⊕ Effect)

def history (es : List DeviceEvent) : History := log handle freshlyStarted es

def Resets : DeviceEvent → Prop
  | .sender event => ProtocolState.Resets event
  | _ => False

instance : ∀ e, Decidable (Resets e)
  | .sender event => inferInstanceAs (Decidable (ProtocolState.Resets event))
  | .report _ | .deliverToSender | .deliverToReceiver | .dropToSender _ | .dropToReceiver _
  | .alive _ => isFalse id

def submitted (h : History) : List Payload :=
  h.filterMap fun
    | .inl (.sender (.sendPayload payload true)) => some payload
    | _ => none

/-- An acknowledgement of the current number arrives while the entity waits for it. -/
def Recognised (l : DeviceLink) : DeviceEvent → Prop
  | .deliverToSender => ∀ buffer ∈ l.toSender.head?,
    carriesAck (deserializeFrame buffer) = true →
    l.sender.acknowledges (deserializeFrame buffer).rSeq = true → l.sender.waitForAck = true
  | _ => True

instance (l : DeviceLink) : ∀ e, Decidable (Recognised l e)
  | .deliverToSender =>
    match h : l.toSender.head? with
    | none => isTrue (by simp [Recognised, h])
    | some buffer =>
      decidable_of_iff (carriesAck (deserializeFrame buffer) = true →
        l.sender.acknowledges (deserializeFrame buffer).rSeq = true → l.sender.waitForAck = true)
        (by simp [Recognised, h])
  | .sender _ | .report _ | .deliverToReceiver | .dropToSender _ | .dropToReceiver _ | .alive _ =>
    isTrue trivial

theorem wp_act {a : ProtocolState.Act} {I : DeviceLink → History → Prop} {l : DeviceLink}
    {h : History} :
    (act a).wp (recorded I h) l [] ↔ a.wp (fun s o =>
      I { l with sender := s, toReceiver := l.toReceiver ++ buffers o } (h ++ o.map .inr))
        l.sender [] := by
  simp only [wp, act, recorded, List.nil_append]

theorem deliverToSender_nil {l : DeviceLink} (h : l.toSender = []) : deliverToSender l = (l, []) := by
  rw [deliverToSender, h]

theorem deliverToSender_cons {l : DeviceLink} {buffer : List UInt8} {rest : List (List UInt8)}
    (h : l.toSender = buffer :: rest) :
    deliverToSender l =
      act (ProtocolState.handle (.frame buffer false)) { l with toSender := rest } := by
  rw [deliverToSender, h]

def ackNumber (buffer : List UInt8) : Option (Fin 8) :=
  if carriesAck (deserializeFrame buffer) then some (seq (deserializeFrame buffer).rSeq) else none

def dataEntry (buffer : List UInt8) : Option (Fin 8 × Payload) :=
  if (deserializeFrame buffer).isIFrame then
    some (next (seq (deserializeFrame buffer).sSeq), (deserializeFrame buffer).payload)
  else none

theorem dataEntry_eq_none {f : HdlcFrame} {buffer : List UInt8} (h : serializeFrame f = some buffer)
    (hf : f.hdlcFrameType ≠ .i) : dataEntry buffer = none := by
  have hread : (deserializeFrame buffer).isIFrame = false := by
    rw [deserializeFrame_serializeFrame h]
    exact (onWire_hdlcFrameType (· == .i) rfl f).trans (beq_eq_false_iff_ne.mpr hf)
  simp [dataEntry, hread]

theorem dataEntry_iFrame {s : ProtocolState} {front : Payload} {buffer : List UInt8}
    (h : serializeFrame (s.prepareIFrame front) = some buffer) :
    dataEntry buffer = some (next (seq s.sSeqOutgoing), front) := by
  have hread : (deserializeFrame buffer).isIFrame = true ∧
      (deserializeFrame buffer).sSeq = s.sSeqOutgoing &&& 0x07 ∧
      (deserializeFrame buffer).payload = front := by
    rw [deserializeFrame_serializeFrame h]
    exact ⟨rfl, rfl, rfl⟩
  rw [dataEntry, if_pos hread.1, hread.2.1, hread.2.2, seq_and_seven]

theorem ackNumber_of_report {r : Receiver} {f : HdlcFrame} {buffer : List UInt8}
    (h : buffer ∈ r.report f) :
    (ackNumber buffer = none ∨ ackNumber buffer = some (seq r.vR)) ∧
      (deserializeFrame buffer).hdlcFrameType ≠ .sREJ := by
  unfold Receiver.report at h
  split_ifs at h with hsends
  · have hread := deserializeFrame_serializeFrame (Option.mem_def.mp (Option.mem_toList.mp h))
    have htype {α : Type} (p : FrameType → α) (hp : p .uCMDR = p .uSNRM) :
        p (deserializeFrame buffer).hdlcFrameType = p f.hdlcFrameType := by
      rw [hread]
      exact onWire_hdlcFrameType p hp _
    have hcarries : carriesAck (deserializeFrame buffer) = carriesAck f :=
      htype (fun t => t == .i || t == .sRR || t == .sRNR) rfl
    refine ⟨?_, ?_⟩
    · rw [ackNumber, hcarries]
      split_ifs with hack
      · have hnumber : (f.isIFrame || f.isSFrame) = true := by
          simp only [carriesAck, Bool.or_eq_true, beq_iff_eq] at hack
          rcases hack with (ht | ht) | ht <;> simp [HdlcFrame.isIFrame, HdlcFrame.isSFrame, ht]
        rw [hread, onWire_rSeq (f := { f with rSeq := r.vR }) hnumber, seq_and_seven]
        exact .inr rfl
      · exact .inl rfl
    · rw [Ne, htype (· = .sREJ) (by simp)]
      intro ht
      simp [Receiver.sends, carriesAck, HdlcFrame.isUFrame, ht] at hsends
  · exact absurd h List.not_mem_nil

def numbers (acks : List (Fin 8)) (data : List (Fin 8 × Payload)) (l : DeviceLink) : List (Fin 8) :=
  acks ++ l.toSender.filterMap ackNumber ++
    seq l.receiver.vR :: (data ++ l.toReceiver.filterMap dataEntry).map Prod.fst

/-- `acks` and `data` belong to a frame that has left its channel and is not handled yet. -/
structure Invariant (acks : List (Fin 8)) (data : List (Fin 8 × Payload)) (l : DeviceLink)
    (h : History) : Prop where
  window : Window next (seq l.sender.sSeqOutgoing) (numbers acks data l)
  -- an I-frame with the current number carries the head of the queue
  head : ∀ e ∈ data ++ l.toReceiver.filterMap dataEntry,
    e.1 = next (seq l.sender.sSeqOutgoing) → l.sender.waitQueueReliable.head? = some e.2
  -- the device has accepted what was removed, and the head if it expects the next number
  accepted : ∃ removed, submitted h = removed ++ l.sender.waitQueueReliable ∧
    (seq l.receiver.vR = seq l.sender.sSeqOutgoing ∧ l.receiver.accepted = removed ∨
      seq l.receiver.vR = next (seq l.sender.sSeqOutgoing) ∧
        ∃ front rest, l.sender.waitQueueReliable = front :: rest ∧
          l.receiver.accepted = removed ++ [front])
  reported : ∀ buffer ∈ l.toSender, (deserializeFrame buffer).hdlcFrameType ≠ .sREJ
  flow : l.sender.peerStoppedFlow = true → l.sender.waitForAck = false

namespace Invariant

variable {acks : List (Fin 8)} {data : List (Fin 8 × Payload)} {l : DeviceLink} {h : History}

theorem congr (hI : Invariant acks data l h) {s : ProtocolState}
    (hseq : s.sSeqOutgoing = l.sender.sSeqOutgoing)
    (hqueue : s.waitQueueReliable = l.sender.waitQueueReliable)
    (hflow : s.peerStoppedFlow = true → s.waitForAck = false) {h' : History}
    (hh : submitted h' = submitted h) : Invariant acks data { l with sender := s } h' where
  window := by
    show Window next (seq s.sSeqOutgoing) (numbers acks data l)
    rw [hseq]
    exact hI.window
  head := by
    show ∀ e ∈ data ++ l.toReceiver.filterMap dataEntry,
      e.1 = next (seq s.sSeqOutgoing) → s.waitQueueReliable.head? = some e.2
    rw [hseq, hqueue]
    exact hI.head
  accepted := by
    show ∃ removed, submitted h' = removed ++ s.waitQueueReliable ∧
      (seq _ = seq s.sSeqOutgoing ∧ _ ∨ seq _ = next (seq s.sSeqOutgoing) ∧
        ∃ front rest, s.waitQueueReliable = front :: rest ∧ _)
    rw [hseq, hqueue, hh]
    exact hI.accepted
  reported := hI.reported
  flow := hflow

theorem send (hI : Invariant acks data l h) {buffer : List UInt8} (hdata : dataEntry buffer = none) :
    Invariant acks data { l with toReceiver := l.toReceiver ++ [buffer] } h := by
  have hsame : (l.toReceiver ++ [buffer]).filterMap dataEntry = l.toReceiver.filterMap dataEntry := by
    rw [List.filterMap_append]
    simp [hdata]
  refine ⟨?_, ?_, hI.accepted, hI.reported, hI.flow⟩
  · show Window next _ (_ ++ _ :: (data ++ (l.toReceiver ++ [buffer]).filterMap dataEntry).map _)
    rw [hsame]
    exact hI.window
  · show ∀ e ∈ data ++ (l.toReceiver ++ [buffer]).filterMap dataEntry, _
    rw [hsame]
    exact hI.head

theorem sendHead (hI : Invariant acks data l h) {front : Payload} {rest : List Payload}
    {buffer : List UInt8} (hqueue : l.sender.waitQueueReliable = front :: rest)
    (hbuffer : serializeFrame (l.sender.prepareIFrame front) = some buffer) :
    Invariant acks data { l with toReceiver := l.toReceiver ++ [buffer] } h := by
  have hsent : (l.toReceiver ++ [buffer]).filterMap dataEntry =
      l.toReceiver.filterMap dataEntry ++ [(next (seq l.sender.sSeqOutgoing), front)] := by
    rw [List.filterMap_append]
    simp [dataEntry_iFrame hbuffer]
  refine ⟨?_, ?_, hI.accepted, hI.reported, hI.flow⟩
  · have hwindow := hI.window.send
    show Window next _ (_ ++ _ :: (data ++ (l.toReceiver ++ [buffer]).filterMap dataEntry).map _)
    rw [hsent]
    simpa only [numbers, List.append_assoc, List.cons_append, List.map_append, List.map_cons,
      List.map_nil] using hwindow
  · intro e he hnext
    have he' : e ∈ data ++ (l.toReceiver ++ [buffer]).filterMap dataEntry := he
    rw [hsent, ← List.append_assoc, List.mem_append] at he'
    rcases he' with he' | he'
    · exact hI.head e he' hnext
    · rw [List.mem_singleton.mp he']
      show l.sender.waitQueueReliable.head? = some front
      rw [hqueue, List.head?_cons]

theorem lose (hI : Invariant acks data l h) {acks' : List (Fin 8)} {data' : List (Fin 8 × Payload)}
    {toReceiver toSender : List (List UInt8)} (hto : toSender.Sublist l.toSender)
    (hacks : (acks' ++ toSender.filterMap ackNumber).Sublist
      (acks ++ l.toSender.filterMap ackNumber))
    (hdata : (data' ++ toReceiver.filterMap dataEntry).Sublist
      (data ++ l.toReceiver.filterMap dataEntry)) :
    Invariant acks' data' { l with toReceiver := toReceiver, toSender := toSender } h where
  window := hI.window.sublist (hacks.append ((hdata.map Prod.fst).cons_cons _))
  head e he := hI.head e (hdata.subset he)
  accepted := hI.accepted
  reported buffer hbuffer := hI.reported buffer (hto.subset hbuffer)
  flow := hI.flow

theorem report (hI : Invariant acks data l h) {buffer : List UInt8}
    (hack : ackNumber buffer = none ∨ ackNumber buffer = some (seq l.receiver.vR))
    (hrej : (deserializeFrame buffer).hdlcFrameType ≠ .sREJ) :
    Invariant acks data { l with toSender := l.toSender ++ [buffer] } h where
  window := by
    show Window next _ (acks ++ (l.toSender ++ [buffer]).filterMap ackNumber ++ _)
    rw [List.filterMap_append, ← List.append_assoc]
    rcases hack with hack | hack
    · have hnone : [buffer].filterMap ackNumber = [] := by simp [hack]
      rw [hnone, List.append_nil]
      exact hI.window
    · have hone : [buffer].filterMap ackNumber = [seq l.receiver.vR] := by simp [hack]
      rw [hone, List.append_assoc (acks ++ _)]
      exact hI.window.stutter
  head := hI.head
  accepted := hI.accepted
  reported buffer' hbuffer' := by
    rcases List.mem_append.mp hbuffer' with hold | hnew
    · exact hI.reported buffer' hold
    · rw [List.mem_singleton.mp hnew]
      exact hrej
  flow := hI.flow

theorem receive {buffer : List UInt8} (hI : Invariant acks (dataEntry buffer).toList l h) :
    Invariant acks [] { l with receiver := l.receiver.receive (deserializeFrame buffer) } h := by
  have hlost : Invariant acks [] l h :=
    hI.lose (List.Sublist.refl _) (List.Sublist.refl _) (List.sublist_append_right _ _)
  unfold Receiver.receive
  split_ifs with haccept
  · rw [Bool.and_eq_true, beq_iff_eq] at haccept
    obtain ⟨hi, hexpected⟩ := haccept
    have hentry : dataEntry buffer =
        some (next (seq l.receiver.vR), (deserializeFrame buffer).payload) := by
      rw [dataEntry, if_pos hi, hexpected]
    rw [hentry] at hI
    have hvR : seq ((l.receiver.vR + 1) &&& 0x07) = next (seq l.receiver.vR) := by
      rw [seq_and_seven, seq_add_one]
    -- the window puts V(R) before the accepted number, so the frame carries the head
    have hcurrent : seq l.receiver.vR = seq l.sender.sSeqOutgoing := hI.window.expected ne_next
    have hhead := hI.head (next (seq l.receiver.vR), (deserializeFrame buffer).payload)
      (List.mem_cons_self ..) (by rw [hcurrent])
    refine ⟨?_, hlost.head, ?_, hI.reported, hI.flow⟩
    · show Window next _ (_ ++ seq ((l.receiver.vR + 1) &&& 0x07) :: _)
      rw [hvR]
      exact hI.window.sublist ((List.Sublist.refl _).append (List.sublist_cons_self ..))
    · obtain ⟨removed, hsubmitted, hphase⟩ := hI.accepted
      refine ⟨removed, hsubmitted, .inr ⟨hvR.trans (by rw [hcurrent]), ?_⟩⟩
      obtain ⟨rest, hqueue⟩ := List.head?_eq_some_iff.mp hhead
      rcases hphase with ⟨_, haccepted⟩ | ⟨hnext, _⟩
      · exact ⟨_, rest, hqueue, by rw [haccepted]⟩
      · exact absurd (hcurrent.symm.trans hnext) (ne_next _)
  · exact hlost

def whileSending (acks : List (Fin 8)) (l : DeviceLink) (h : History) :
    Assertion ProtocolState Effect := fun s o =>
  Invariant acks [] { l with sender := s, toReceiver := l.toReceiver ++ buffers o }
    (h ++ o.map .inr)

theorem whileSending_nil {s : ProtocolState} :
    whileSending acks l h s [] ↔ Invariant acks [] { l with sender := s } h := by
  show Invariant acks [] { l with sender := s, toReceiver := l.toReceiver ++ [] } (h ++ []) ↔ _
  rw [List.append_nil, List.append_nil]

theorem submitted_effects (h : History) (o : List Effect) :
    submitted (h ++ o.map .inr) = submitted h := by
  have hnone : submitted (o.map (.inr : Effect → DeviceEvent ⊕ Effect)) = [] := by
    rw [submitted, List.filterMap_map]
    exact List.filterMap_eq_nil_iff.mpr fun _ _ => rfl
  rw [submitted, List.filterMap_append]
  exact (congrArg _ hnone).trans (List.append_nil _)

theorem whileSending_concat {s s' : ProtocolState} {o : List Effect} {x : Effect}
    (hI : Invariant acks [] { l with sender := s, toReceiver := l.toReceiver ++ buffers o ++ buffers [x] }
      (h ++ o.map .inr))
    (hseq : s'.sSeqOutgoing = s.sSeqOutgoing) (hqueue : s'.waitQueueReliable = s.waitQueueReliable)
    (hflow : s'.peerStoppedFlow = true → s'.waitForAck = false) :
    whileSending acks l h s' (o ++ [x]) := by
  have hsame : submitted (h ++ (o ++ [x]).map .inr) = submitted (h ++ o.map .inr) := by
    rw [submitted_effects, submitted_effects]
  rw [whileSending, Link.buffers_concat, ← List.append_assoc]
  exact hI.congr hseq hqueue hflow hsame

theorem whileSending_silent {s : ProtocolState} {o : List Effect} {x : Effect}
    (hs : whileSending acks l h s o) (hsilent : buffers [x] = []) :
    whileSending acks l h s (o ++ [x]) := by
  refine whileSending_concat ?_ rfl rfl hs.flow
  rw [hsilent, List.append_nil]
  exact hs

theorem stable : Stable (whileSending acks l h) where
  kept {s s' o} hs hk := by
    refine hs.congr hk.sSeqOutgoing hk.waitQueueReliable (fun hflow => ?_) rfl
    exact hk.waitForAck.trans (hs.flow (hk.peerStoppedFlow ▸ hflow))
  quiet {s o x} hs hx := by
    cases x with
    | transmitHDLCFrame f buffer =>
      have hnone := dataEntry_eq_none hx.1 hx.ne_iFrame
      exact whileSending_concat (Invariant.send hs hnone) rfl rfl hs.flow
    | popFrontReliable payload => exact hx.elim
    | _ => exact whileSending_silent hs rfl
  iFrame {s o front rest buffer} hs _ hqueue _ hflow hbuffer := by
    refine whileSending_concat (Invariant.sendHead hs hqueue hbuffer) rfl rfl fun hstopped => ?_
    exact absurd hstopped (by rw [show s.peerStoppedFlow = false from hflow]; decide)
  uiFrame {s o front rest buffer} hs _ hbuffer := by
    have hui : (ProtocolState.prepareUFrameUI front).hdlcFrameType ≠ .i := by
      simp [ProtocolState.prepareUFrameUI]
    exact whileSending_concat (Invariant.send hs (dataEntry_eq_none hbuffer hui)) rfl rfl hs.flow

theorem enqueue (hI : Invariant [] [] l h) (payload : Payload) (reliable : Bool) :
    Invariant [] [] { l with sender := l.sender.enqueue payload reliable }
      (h ++ [.inl (.sender (.sendPayload payload reliable))]) := by
  cases reliable with
  | false =>
    refine hI.congr (s := l.sender.enqueue payload false) rfl rfl hI.flow ?_
    rw [submitted, List.filterMap_append]
    exact List.append_nil _
  | true =>
    have hhead (p : Payload) (hp : l.sender.waitQueueReliable.head? = some p) :
        (l.sender.waitQueueReliable ++ [payload]).head? = some p := by
      rw [List.head?_append, hp]
      rfl
    refine ⟨hI.window, fun e he hnext => hhead e.2 (hI.head e he hnext), ?_, hI.reported, hI.flow⟩
    obtain ⟨removed, hsubmitted, hphase⟩ := hI.accepted
    have hnew : submitted (h ++ [.inl (.sender (.sendPayload payload true))]) =
        removed ++ (l.sender.waitQueueReliable ++ [payload]) := by
      rw [submitted, List.filterMap_append, ← List.append_assoc, ← hsubmitted]
      rfl
    refine ⟨removed, hnew, ?_⟩
    rcases hphase with hbefore | ⟨hvR, front, rest, hqueue, haccepted⟩
    · exact .inl hbefore
    · refine .inr ⟨hvR, front, rest ++ [payload], ?_, haccepted⟩
      show l.sender.waitQueueReliable ++ [payload] = front :: (rest ++ [payload])
      rw [hqueue, List.cons_append]

theorem sendLocal (hI : Invariant [] [] l h) {e : LocalEvent} (he : ¬ ProtocolState.Resets e) :
    (act (ProtocolState.handleLocal e)).wp
      (recorded (Invariant [] []) (h ++ [.inl (.sender e)])) l [] := by
  have hlocal : whileSending [] l (h ++ [.inl (.sender e)]) (prologue e l.sender) [] := by
    rw [whileSending_nil]
    have hother (hne : ∀ payload reliable, e ≠ .sendPayload payload reliable) :
        submitted (h ++ [.inl (.sender e)]) = submitted h := by
      rw [submitted, List.filterMap_append]
      cases e with
      | sendPayload payload reliable => exact absurd rfl (hne payload reliable)
      | _ => exact List.append_nil _
    refine ProtocolState.prologue_cases
      (Q := fun t => Invariant [] [] { l with sender := t } (h ++ [.inl (.sender e)])) ?_ ?_ ?_ ?_
    · exact fun hreset => absurd hreset he
    · rintro payload reliable rfl
      exact hI.enqueue payload reliable
    · rintro rfl
      exact hI.congr (s := { l.sender with waitForAck := false }) rfl rfl (fun _ => rfl)
        (hother (by simp))
    · intro _ hne
      exact hI.congr rfl rfl hI.flow (hother hne)
  rw [wp_act]
  exact stable.handleLocal e hlocal

theorem pop {buffer : List UInt8} (hI : Invariant (ackNumber buffer).toList [] l h)
    (hcarries : carriesAck (deserializeFrame buffer) = true)
    (hseq : l.sender.acknowledges (deserializeFrame buffer).rSeq = true) {front : Payload}
    {rest : List Payload} (hqueue : l.sender.waitQueueReliable = front :: rest) {s : ProtocolState}
    (hs : s.sSeqOutgoing = (deserializeFrame buffer).rSeq) (hrest : s.waitQueueReliable = rest)
    (hwait : s.waitForAck = false) : Invariant [] [] { l with sender := s } h := by
  have hnumber := Link.seq_of_acknowledges hseq
  rw [ackNumber, if_pos hcarries, hnumber] at hI
  -- behind the successor everything under way is the successor, V(R) too
  have hall := hI.window.acknowledged
  have hnew : seq s.sSeqOutgoing = next (seq l.sender.sSeqOutgoing) := by rw [hs, hnumber]
  have hvR : seq l.receiver.vR = next (seq l.sender.sSeqOutgoing) := hall _ (by simp)
  refine ⟨?_, ?_, ?_, hI.reported, fun _ => hwait⟩
  · show Window next (seq s.sSeqOutgoing) (numbers [] [] l)
    rw [hnew]
    exact Window.of_forall hall
  · intro e he hnext
    have he' : e.1 = next (seq l.sender.sSeqOutgoing) :=
      hall _ (List.mem_append_right _ (List.mem_cons_of_mem _ (List.mem_map.mpr ⟨e, he, rfl⟩)))
    have hnext' : e.1 = next (seq s.sSeqOutgoing) := hnext
    rw [hnew, he'] at hnext'
    exact absurd hnext' (ne_next _)
  · obtain ⟨removed, hsubmitted, hphase⟩ := hI.accepted
    rcases hphase with ⟨hcurrent, _⟩ | ⟨_, front', rest', hqueue', haccepted⟩
    · exact absurd (hcurrent.symm.trans hvR) (ne_next _)
    · obtain ⟨rfl, rfl⟩ := List.cons.inj (hqueue.symm.trans hqueue')
      refine ⟨removed ++ [front], ?_, .inl ⟨hvR.trans hnew.symm, haccepted⟩⟩
      show submitted h = removed ++ [front] ++ s.waitQueueReliable
      rw [hsubmitted, hqueue, hrest, List.append_assoc]
      rfl

theorem pass {buffer : List UInt8} (hI : Invariant (ackNumber buffer).toList [] l h)
    (hrej : (deserializeFrame buffer).hdlcFrameType ≠ .sREJ)
    (hrecognised : carriesAck (deserializeFrame buffer) = true →
      l.sender.acknowledges (deserializeFrame buffer).rSeq = true → l.sender.waitForAck = true)
    {waitForAck peerStoppedFlow : Bool}
    (hpassed : Passed (deserializeFrame buffer) l.sender waitForAck peerStoppedFlow) :
    Invariant [] []
      { l with
        sender := { l.sender with
          sSeqOutgoing := nextSSeq (deserializeFrame buffer) l.sender, waitForAck := waitForAck,
          peerStoppedFlow := peerStoppedFlow } } h := by
  have hflow : peerStoppedFlow = true → waitForAck = false := by
    intro hstopped
    apply Bool.eq_false_of_not_eq_true
    intro hwait
    obtain ⟨hwaited, hrnr, _⟩ := hpassed.waiting hwait
    rcases hpassed.flow hstopped with htype | ⟨hpeer, _⟩
    · exact hrnr htype
    · exact absurd (hI.flow hpeer) (by rw [hwaited]; decide)
  have hlost : Invariant [] [] l h :=
    hI.lose (List.Sublist.refl _) (List.sublist_append_right _ _) (List.Sublist.refl _)
  have hsame : seq (nextSSeq (deserializeFrame buffer) l.sender) = seq l.sender.sSeqOutgoing := by
    unfold nextSSeq
    split_ifs with hcarries
    · rw [ackNumber, if_pos hcarries] at hI
      rcases hI.window.values (seq (deserializeFrame buffer).rSeq) (by simp [numbers]) with hn | hn
      · exact hn
      · -- the acknowledgement would have been recognised
        have hseq := Link.acknowledges_of_seq (deserializeFrame_rSeq_lt buffer) hn
        have hwaited := hrecognised hcarries hseq
        rw [hn] at hI
        have hvR : seq l.receiver.vR = next (seq l.sender.sSeqOutgoing) :=
          hI.window.acknowledged _ (by simp)
        obtain ⟨removed, _, ⟨hcurrent, _⟩ | ⟨_, front, rest, hqueue, _⟩⟩ := hI.accepted
        · exact absurd (hcurrent.symm.trans hvR) (ne_next _)
        rcases hpassed.missed hcarries hseq hwaited with hpeer | hempty
        · exact absurd (hI.flow hpeer) (by rw [hwaited]; decide)
        · exact absurd (hqueue.symm.trans hempty) (by simp)
    · rfl
  refine ⟨?_, ?_, ?_, hI.reported, hflow⟩
  · show Window next (seq (nextSSeq (deserializeFrame buffer) l.sender)) (numbers [] [] l)
    rw [hsame]
    exact hlost.window
  · show ∀ e ∈ [] ++ l.toReceiver.filterMap dataEntry,
      e.1 = next (seq (nextSSeq (deserializeFrame buffer) l.sender)) → _
    rw [hsame]
    exact hlost.head
  · show ∃ removed, _ ∧ (_ = seq (nextSSeq (deserializeFrame buffer) l.sender) ∧ _ ∨
      _ = next (seq (nextSSeq (deserializeFrame buffer) l.sender)) ∧ _)
    rw [hsame]
    exact hlost.accepted

theorem receiveSender {buffer : List UInt8} (hI : Invariant (ackNumber buffer).toList [] l h)
    (hrej : (deserializeFrame buffer).hdlcFrameType ≠ .sREJ)
    (hrecognised : carriesAck (deserializeFrame buffer) = true →
      l.sender.acknowledges (deserializeFrame buffer).rSeq = true → l.sender.waitForAck = true) :
    (act (ProtocolState.handle (.frame buffer false))).wp (recorded (Invariant [] []) h) l [] := by
  rw [wp_act]
  have hstable : Stable (whileSending [] l h) := stable
  have hstable' : Stable (whileSending (ackNumber buffer).toList l h) := stable
  have hpending := hstable'.toSteady.and
    (C := fun s => carriesAck (deserializeFrame buffer) = true →
      s.acknowledges (deserializeFrame buffer).rSeq = true → s.waitForAck = true)
    fun {s s'} hs hk hcarries hseq => by
      rw [ProtocolState.acknowledges, hk.sSeqOutgoing] at hseq
      exact hk.waitForAck.trans (hs hcarries hseq)
  refine hstable.interpretDeserializedFrame hpending hpending ?_ ?_ ?_
    ⟨whileSending_nil.mpr hI, hrecognised⟩
  · intro s o _ hs
    exact Invariant.lose hs.1 (List.Sublist.refl _) (List.sublist_append_right _ _)
      (List.Sublist.refl _)
  · intro _ s o hs
    unfold afterPayload
    split_ifs
    · exact ⟨Invariant.congr (s := { s with rSeqIncoming := ((deserializeFrame buffer).sSeq + 1) &&& 0x07 })
        hs.1 rfl rfl hs.1.flow rfl, hs.2⟩
    · exact hs
  · intro _ s o hs
    refine ⟨fun front rest b hcarries _ hseq hqueue => ?_, fun w b hpassed => ?_⟩
    · have hpop := Invariant.pop hs.1 hcarries hseq hqueue
        (s := { s with
          sSeqOutgoing := (deserializeFrame buffer).rSeq, waitForAck := false,
          peerStoppedFlow := b, waitQueueReliable := rest }) rfl rfl rfl
      exact whileSending_silent hpop rfl
    · exact Invariant.pass hs.1 hrej hs.2 hpassed

theorem deliverToSender (hI : Invariant [] [] l h) (hrecognised : Recognised l .deliverToSender) :
    deliverToSender.wp (recorded (Invariant [] []) h) l [] := by
  rcases hto : l.toSender with _ | ⟨buffer, rest⟩
  · refine wp_of_eq (b := skip) (deliverToSender_nil hto) (wp_skip.mpr ?_)
    rw [recorded_nil]
    exact hI
  refine wp_of_eq (deliverToSender_cons hto) ?_
  have hpending : Invariant (ackNumber buffer).toList [] { l with toSender := rest } h := by
    refine hI.lose (hto ▸ List.sublist_cons_self ..) ?_ (List.Sublist.refl _)
    rw [hto]
    rcases hack : ackNumber buffer with _ | n <;> simp [hack]
  refine hpending.receiveSender (hI.reported buffer (hto ▸ List.mem_cons_self ..)) ?_
  exact hrecognised buffer (by rw [hto, List.head?_cons]; rfl)

theorem deliverToReceiver (hI : Invariant [] [] l h) : Invariant [] [] (deliverToReceiver l) h := by
  unfold DeviceLink.deliverToReceiver
  rcases hto : l.toReceiver with _ | ⟨buffer, rest⟩
  · exact hI
  have hpending : Invariant [] (dataEntry buffer).toList { l with toReceiver := rest } h := by
    refine hI.lose (List.Sublist.refl _) (List.Sublist.refl _) ?_
    rw [hto]
    rcases hdata : dataEntry buffer with _ | e <;> simp [hdata]
  exact hpending.receive

theorem reports (hI : Invariant [] [] l h) (f : HdlcFrame) :
    Invariant [] [] { l with toSender := l.toSender ++ l.receiver.report f } h := by
  rcases hreport : l.receiver.report f with _ | ⟨buffer, rest⟩
  · rw [List.append_nil]
    exact hI
  have hone : rest = [] := by
    unfold Receiver.report at hreport
    split_ifs at hreport
    cases hf : serializeFrame { f with rSeq := l.receiver.vR } with
    | none => simp [hf] at hreport
    | some b =>
      rw [hf] at hreport
      exact (List.cons.inj hreport).2.symm
  obtain ⟨hack, hrej⟩ := ackNumber_of_report (hreport ▸ List.mem_cons_self ..)
  rw [hone]
  exact hI.report hack hrej

theorem handle (hI : Invariant [] [] l h) {e : DeviceEvent} (he : ¬ Resets e)
    (hrecognised : Recognised l e) :
    (handle e).wp (recorded (Invariant [] []) (h ++ [.inl e])) l [] := by
  have hsame (hne : ∀ event, e ≠ .sender event) : submitted (h ++ [.inl e]) = submitted h := by
    rw [submitted, List.filterMap_append]
    cases e with
    | sender event => exact absurd rfl (hne event)
    | _ => exact List.append_nil _
  have hevent (hne : ∀ event, e ≠ .sender event) : Invariant [] [] l (h ++ [.inl e]) :=
    hI.congr (s := l.sender) rfl rfl hI.flow (hsame hne)
  have hunlogged {l' : DeviceLink} (hl' : Invariant [] [] l' (h ++ [.inl e])) :
      recorded (Invariant [] []) (h ++ [.inl e]) l' [] := by
    rw [recorded_nil]
    exact hl'
  cases e with
  | sender event => exact hI.sendLocal he
  | report f => exact hunlogged ((hevent (by simp)).reports f)
  | deliverToSender => exact (hevent (by simp)).deliverToSender hrecognised
  | deliverToReceiver => exact hunlogged (hevent (by simp)).deliverToReceiver
  | dropToSender i =>
    have hsub := List.eraseIdx_sublist l.toSender i
    exact hunlogged ((hevent (by simp)).lose hsub (hsub.filterMap ackNumber) (List.Sublist.refl _))
  | dropToReceiver i =>
    have hlost := (List.eraseIdx_sublist l.toReceiver i).filterMap dataEntry
    exact hunlogged ((hevent (by simp)).lose (List.Sublist.refl _) (List.Sublist.refl _) hlost)
  | alive eAliveState =>
    exact hunlogged ((hevent (by simp)).congr (s := Link.setAlive eAliveState l.sender) rfl rfl
      hI.flow rfl)

theorem freshlyStarted : Invariant [] [] freshlyStarted [] := by
  have hdata : DeviceLink.freshlyStarted.toReceiver.filterMap dataEntry = [] := by decide +kernel
  have hacks : DeviceLink.freshlyStarted.toSender = [] := by decide +kernel
  have hseq : seq DeviceLink.freshlyStarted.sender.sSeqOutgoing = 0 := by decide +kernel
  have hvR : seq DeviceLink.freshlyStarted.receiver.vR = 0 := by decide +kernel
  refine ⟨?_, ?_, ⟨[], by decide +kernel, .inl ⟨hvR.trans hseq.symm, by decide +kernel⟩⟩, ?_,
    by decide +kernel⟩
  · rw [numbers, hdata, hacks, hseq, hvR]
    exact Window.of_forall (by simp)
  · rw [hdata]
    intro e he
    exact absurd he List.not_mem_nil
  · rw [hacks]
    intro buffer hbuffer
    exact absurd hbuffer List.not_mem_nil

theorem run {es : List DeviceEvent} (hes : ∀ e ∈ es, ¬ Resets e)
    (hrecognised : Along DeviceLink.handle Recognised DeviceLink.freshlyStarted es) :
    Invariant [] [] (run DeviceLink.handle es DeviceLink.freshlyStarted).1 (history es) := by
  have hsteps : Along DeviceLink.handle (fun l e => ¬ Resets e ∧ Recognised l e)
      DeviceLink.freshlyStarted es :=
    Along.and _ (along_of_forall _ (fun e he _ => hes e he) _) hrecognised
  exact history_invariant DeviceLink.handle (h := []) (fun _ _ _ he hI => hI.handle he.1 he.2)
    freshlyStarted hsteps

end Invariant

theorem accepted_prefix (es : List DeviceEvent) (hes : ∀ e ∈ es, ¬ Resets e)
    (hrecognised : Along handle Recognised freshlyStarted es) :
    (run handle es freshlyStarted).1.receiver.accepted <+: submitted (history es) := by
  obtain ⟨removed, hsubmitted, hphase⟩ := (Invariant.run hes hrecognised).accepted
  rw [hsubmitted]
  rcases hphase with ⟨_, haccepted⟩ | ⟨_, front, rest, hqueue, haccepted⟩
  · rw [haccepted]
    exact List.prefix_append _ _
  · rw [haccepted, hqueue]
    exact ⟨rest, List.append_assoc removed [front] rest⟩

def firstSent (payload : Payload) : List DeviceEvent :=
  [.report { address := 0x30, hdlcFrameType := .uUI, payload := [0x55] }, .deliverToSender,
    .sender .triggerNextHDLCFrame, .deliverToReceiver, .sender (.sendPayload payload true)]

def receiveReady : HdlcFrame := { address := 0x30, hdlcFrameType := .sRR }

def acceptedRun : List DeviceEvent :=
  firstSent [0x41] ++
    [.sender .triggerNextHDLCFrame, .deliverToReceiver, .report receiveReady, .deliverToSender,
      .sender (.sendPayload [0x42] true)]

theorem accepted_prefix_acceptedRun :
    (run handle acceptedRun freshlyStarted).1.receiver.accepted <+: submitted (history acceptedRun) :=
  accepted_prefix acceptedRun (by decide) (by decide +kernel)

/-- The acknowledgement arrives after the timeout, while an UI-frame is being written. The
entity takes over its number for the head of the queue, which it then sends again. -/
def lateAckRun : List DeviceEvent :=
  firstSent [0x41] ++
    [.sender .triggerNextHDLCFrame, .sender (.sendPayload [0x55] false), .deliverToReceiver,
      .report receiveReady, .sender .timerExpires, .sender (.timerHandler .retransmission),
      .deliverToSender, .sender .triggerNextHDLCFrame, .deliverToReceiver, .deliverToReceiver]

theorem accepted_not_prefix :
    ¬ (run handle lateAckRun freshlyStarted).1.receiver.accepted <+: submitted (history lateAckRun) := by
  have haccepted : (run handle lateAckRun freshlyStarted).1.receiver.accepted = [[0x41], [0x41]] := by
    decide +kernel
  have hsubmitted : submitted (history lateAckRun) = [[0x41]] := by decide +kernel
  rw [haccepted, hsubmitted]
  decide

end DeviceLink
end Hdlcd
