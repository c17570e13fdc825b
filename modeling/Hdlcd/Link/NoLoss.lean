import Hdlcd.Library.AckTrail
import Hdlcd.Link.Link

/-! A payload leaves the queue of A only after B has received it. The numbers under way to
A are those of the acknowledgements in the channel, the number that B would send, and the
successors of the numbers of the I-frames on their way to B; they form a trail. -/

namespace Hdlcd.Link
open Reactive Action FrameGenerator FrameParser Framing AckTrail
open ProtocolState (Kept Quiet Stable Steady AckRule Passed carriesAck nextSSeq afterPayload prologue)

def ackNumber (buffer : List UInt8) : Option (Fin 8) :=
  let f := deserializeFrame buffer
  if f.hdlcFrameType = .i ∨ f.hdlcFrameType = .sRR then some (seq f.rSeq) else none

def dataEntry (buffer : List UInt8) : Option (Fin 8 × Option Payload) :=
  let f := deserializeFrame buffer
  if f.hasPayload && f.isIFrame then some (next (seq f.sSeq), some f.payload) else none

def Sendable (buffer : List UInt8) : Prop :=
  (deserializeFrame buffer).hdlcFrameType ≠ .sRNR ∧ (deserializeFrame buffer).hdlcFrameType ≠ .sREJ

theorem dataEntry_eq_none {f : HdlcFrame} {buffer : List UInt8} (h : serializeFrame f = some buffer)
    (hf : f.hdlcFrameType ≠ .i) : dataEntry buffer = none := by
  have hread : (deserializeFrame buffer).isIFrame = false := by
    rw [deserializeFrame_serializeFrame h]
    exact (onWire_hdlcFrameType (· == .i) rfl f).trans (beq_eq_false_iff_ne.mpr hf)
  simp [dataEntry, hread]

theorem dataEntry_iFrame {s : ProtocolState} {front : Payload} {buffer : List UInt8}
    (h : serializeFrame (s.prepareIFrame front) = some buffer) :
    dataEntry buffer = if front.isEmpty then none else some (next (seq s.sSeqOutgoing), some front) := by
  have hread := deserializeFrame_serializeFrame h
  have hseq : (deserializeFrame buffer).sSeq = s.sSeqOutgoing &&& 0x07 := by
    rw [hread]
    rfl
  have hpayload : (deserializeFrame buffer).payload = front := by
    rw [hread]
    rfl
  have hi : (deserializeFrame buffer).isIFrame = true := by
    rw [hread]
    rfl
  rw [dataEntry, HdlcFrame.hasPayload, hi, hpayload, hseq, seq_and_seven]
  cases front <;> rfl

theorem ackNumber_of_sent {f : HdlcFrame} {buffer : List UInt8}
    (h : serializeFrame f = some buffer) :
    ackNumber buffer =
      if f.hdlcFrameType = .i ∨ f.hdlcFrameType = .sRR then some (seq f.rSeq) else none := by
  have htypes := onWire_hdlcFrameType (fun t => t = .i ∨ t = .sRR) (by simp) f
  rw [ackNumber, deserializeFrame_serializeFrame h]
  simp only [htypes]
  split_ifs with htype
  · have hnumber : (f.isIFrame || f.isSFrame) = true := by
      rcases htype with ht | ht <;> simp [HdlcFrame.isIFrame, HdlcFrame.isSFrame, ht]
    rw [onWire_rSeq hnumber, seq_and_seven]
  · rfl

theorem sendable_of_sent {f : HdlcFrame} {buffer : List UInt8} (h : serializeFrame f = some buffer)
    (hrnr : f.hdlcFrameType ≠ .sRNR) (hrej : f.hdlcFrameType ≠ .sREJ) : Sendable buffer := by
  have htypes := onWire_hdlcFrameType (fun t => t ≠ .sRNR ∧ t ≠ .sREJ) (by simp) f
  rw [Sendable, deserializeFrame_serializeFrame h]
  exact htypes.mpr ⟨hrnr, hrej⟩

/-- The numbers under way to A. `acks` and `data` belong to a frame that has left its channel and
is not handled yet. -/
def underWay (acks : List (Fin 8)) (data : List (Fin 8 × Option Payload)) (l : Link) :
    List (Fin 8 × Option Payload) :=
  (acks ++ l.ba.filterMap ackNumber).map (fun n => (n, none)) ++
    (seq l.b.rSeqIncoming, none) :: (data ++ l.ab.filterMap dataEntry)

def removals (h : History) : Nat := h.countP isRemoval

def DeliveredFirst (k : Nat) (received : List Payload) (before : History) : LinkEvent ⊕ LinkEffect → Prop
  | .inr (.a (.popFrontReliable payload)) => removals before < k → payload ∈ received ++ receivedByB before
  | _ => True

/-- `received` is what B received before the history. -/
structure Invariant (k : Nat) (received : List Payload) (acks : List (Fin 8))
    (data : List (Fin 8 × Option Payload)) (l : Link) (h : History) : Prop where
  trail : l.a.started = true → Trail next (k - removals h) (seq l.a.sSeqOutgoing) l.a.waitQueueReliable
    (· ∈ received ++ receivedByB h) (underWay acks data l)
  sendable : ∀ buffer ∈ l.ba, Sendable buffer
  deliveredFirst : Justified (DeliveredFirst k received) h

/-- With the number zero, with which A starts, no number under way counts wrongly for one of the
first `k` payloads in its queue. -/
def Settled (k : Nat) (received : List Payload) (l : Link) : Prop :=
  Trail next k (seq 0) l.a.waitQueueReliable (· ∈ received) (underWay [] [] l)

instance (k : Nat) (received : List Payload) (l : Link) : Decidable (Settled k received l) :=
  inferInstanceAs (Decidable (Trail ..))

/-- B is neither stopped nor started. -/
def KeepsNumbers : LinkEvent → Prop
  | .b event => ¬ ProtocolState.Resets event
  | _ => True

instance : ∀ e, Decidable (KeepsNumbers e)
  | .b event => inferInstanceAs (Decidable (¬ ProtocolState.Resets event))
  | .a _ | .deliverToA | .deliverToB | .dropAB _ | .dropBA _ | .aliveA _ | .aliveB _ => isTrue trivial

theorem keepsNumbers_of_not_resets {e : LinkEvent} (he : ¬ Resets e) : KeepsNumbers e := by
  cases e with
  | b event => exact he
  | _ => trivial

namespace Invariant

variable {k : Nat} {received : List Payload} {acks : List (Fin 8)} {data : List (Fin 8 × Option Payload)}
  {l : Link} {h : History}

theorem log (hI : Invariant k received acks data l h) {x : LinkEvent ⊕ LinkEffect}
    (hx : isRemoval x = false) : Invariant k received acks data l (h ++ [x]) where
  trail hstarted := by
    have hremovals : removals (h ++ [x]) = removals h := by simp [removals, hx]
    rw [hremovals]
    refine (hI.trail hstarted).mono fun payload hpayload => ?_
    rw [receivedByB_append, ← List.append_assoc]
    exact List.mem_append_left _ hpayload
  sendable := hI.sendable
  deliveredFirst := by
    refine hI.deliveredFirst.concat ?_
    rcases x with _ | x
    · trivial
    · cases x with
      | a effect => cases effect <;> trivial
      | _ => trivial

theorem congrA (hI : Invariant k received acks data l h) {s : ProtocolState} (hstarted : s.started = l.a.started)
    (hseq : s.sSeqOutgoing = l.a.sSeqOutgoing) (hqueue : s.waitQueueReliable = l.a.waitQueueReliable) :
    Invariant k received acks data { l with a := s } h where
  trail hs := by
    show Trail next _ (seq s.sSeqOutgoing) s.waitQueueReliable _ (underWay acks data l)
    rw [hseq, hqueue]
    exact hI.trail (hstarted ▸ hs)
  sendable := hI.sendable
  deliveredFirst := hI.deliveredFirst

theorem congrB (hI : Invariant k received acks data l h) {s : ProtocolState}
    (hseq : s.rSeqIncoming = l.b.rSeqIncoming) : Invariant k received acks data { l with b := s } h where
  trail hs := by
    have hsame : underWay acks data { l with b := s } = underWay acks data l := by
      unfold underWay
      rw [hseq]
    rw [hsame]
    exact hI.trail hs
  sendable := hI.sendable
  deliveredFirst := hI.deliveredFirst

theorem underWay_sendA (buffer : List UInt8) : underWay acks data { l with ab := l.ab ++ [buffer] } =
    underWay acks data l ++ (dataEntry buffer).toList := by
  unfold underWay
  rw [List.filterMap_append, List.append_assoc, List.cons_append, List.append_assoc]
  cases hdata : dataEntry buffer <;> simp [hdata]

theorem sendA (hI : Invariant k received acks data l h) {buffer : List UInt8} (hdata : dataEntry buffer = none) :
    Invariant k received acks data { l with ab := l.ab ++ [buffer] } h where
  trail hs := by
    rw [underWay_sendA, hdata, Option.toList_none, List.append_nil]
    exact hI.trail hs
  sendable := hI.sendable
  deliveredFirst := hI.deliveredFirst

theorem sendHead (hI : Invariant k received acks data l h) {front : Payload} {rest : List Payload}
    {buffer : List UInt8} (hqueue : l.a.waitQueueReliable = front :: rest)
    (hbuffer : serializeFrame (l.a.prepareIFrame front) = some buffer) :
    Invariant k received acks data { l with ab := l.ab ++ [buffer] } h := by
  have hentry := dataEntry_iFrame hbuffer
  rcases hempty : front.isEmpty with _ | _
  · rw [hempty, if_neg Bool.false_ne_true] at hentry
    refine ⟨fun hs => ?_, hI.sendable, hI.deliveredFirst⟩
    have htrail := hI.trail hs
    rw [hqueue] at htrail
    rw [underWay_sendA, hentry, Option.toList_some]
    show Trail next _ _ l.a.waitQueueReliable _ _
    rw [hqueue]
    exact htrail.send ne_next next_injective
  · rw [hempty, if_pos rfl] at hentry
    exact hI.sendA hentry

theorem sendB (hI : Invariant k received acks data l h) {buffer : List UInt8}
    (hack : ackNumber buffer = none ∨ ackNumber buffer = some (seq l.b.rSeqIncoming))
    (hsendable : Sendable buffer) : Invariant k received acks data { l with ba := l.ba ++ [buffer] } h where
  trail hs := by
    have htrail := hI.trail hs
    rcases hack with hack | hack
    · have hsame : underWay acks data { l with ba := l.ba ++ [buffer] } = underWay acks data l := by
        simp [underWay, hack]
      rw [hsame]
      exact htrail
    · have hrepeated : underWay acks data { l with ba := l.ba ++ [buffer] } =
          (acks ++ l.ba.filterMap ackNumber).map (fun n => (n, none)) ++
            (seq l.b.rSeqIncoming, none) :: (seq l.b.rSeqIncoming, none) :: (data ++ l.ab.filterMap dataEntry) := by
        simp [underWay, hack]
      rw [hrepeated]
      exact htrail.stutter ne_next
  sendable buffer' hbuffer' := by
    rcases List.mem_append.mp hbuffer' with hold | hnew
    · exact hI.sendable buffer' hold
    · rw [List.mem_singleton.mp hnew]
      exact hsendable
  deliveredFirst := hI.deliveredFirst

theorem lose (hI : Invariant k received acks data l h) {acks' : List (Fin 8)}
    {data' : List (Fin 8 × Option Payload)} {ab ba : List (List UInt8)}
    (hba : ba.Sublist l.ba)
    (hacks : (acks' ++ ba.filterMap ackNumber).Sublist (acks ++ l.ba.filterMap ackNumber))
    (hdata : (data' ++ ab.filterMap dataEntry).Sublist (data ++ l.ab.filterMap dataEntry)) :
    Invariant k received acks' data' { l with ab := ab, ba := ba } h where
  trail hs := (hI.trail hs).sublist ((hacks.map _).append (hdata.cons_cons _))
  sendable buffer hbuffer := hI.sendable buffer (hba.subset hbuffer)
  deliveredFirst := hI.deliveredFirst

def whileA (k : Nat) (received : List Payload) (acks : List (Fin 8)) (data : List (Fin 8 × Option Payload))
    (l : Link) (h : History) : Assertion ProtocolState Effect := fun s o =>
  Invariant k received acks data { l with a := s, ab := l.ab ++ buffers o } (h ++ o.map (.inr ∘ .a))

theorem whileA_nil {s : ProtocolState} :
    whileA k received acks data l h s [] ↔ Invariant k received acks data { l with a := s } h := by
  show Invariant k received acks data { l with a := s, ab := l.ab ++ [] } (h ++ []) ↔ _
  rw [List.append_nil, List.append_nil]

theorem whileA_concat {s : ProtocolState} {o : List Effect} {x : Effect} :
    whileA k received acks data l h s (o ++ [x]) ↔
      Invariant k received acks data { l with a := s, ab := l.ab ++ buffers o ++ buffers [x] }
        (h ++ o.map (.inr ∘ .a) ++ [.inr (.a x)]) := by
  rw [whileA, buffers_concat, List.map_append, ← List.append_assoc, ← List.append_assoc]
  rfl

theorem whileA_silent {s : ProtocolState} {o : List Effect} {x : Effect} (hs : whileA k received acks data l h s o)
    (hsilent : buffers [x] = []) (hx : isRemoval (.inr (.a x)) = false) :
    whileA k received acks data l h s (o ++ [x]) := by
  rw [whileA_concat, hsilent, List.append_nil]
  exact Invariant.log hs hx

theorem stableA : Stable (whileA k received acks data l h) where
  kept hs hk := hs.congrA hk.started hk.sSeqOutgoing hk.waitQueueReliable
  quiet {s o x} hs hx := by
    cases x with
    | transmitHDLCFrame f buffer =>
      rw [whileA_concat]
      exact (Invariant.sendA hs (dataEntry_eq_none hx.1 hx.ne_iFrame)).log rfl
    | popFrontReliable payload => exact hx.elim
    | _ => exact whileA_silent hs rfl rfl
  iFrame {s o front rest buffer} hs _ hqueue _ _ hbuffer := by
    rw [whileA_concat]
    have hsent := Invariant.sendHead hs hqueue hbuffer
    exact (hsent.congrA (s := { s with waitForAck := true }) rfl rfl rfl).log rfl
  uiFrame {s o front rest buffer} hs _ hbuffer := by
    rw [whileA_concat]
    have hui : (ProtocolState.prepareUFrameUI front).hdlcFrameType ≠ .i := by
      simp [ProtocolState.prepareUFrameUI]
    have hsent := Invariant.sendA hs (dataEntry_eq_none hbuffer hui)
    exact (hsent.congrA (s := { s with waitQueueUnreliable := rest }) rfl rfl rfl).log rfl

theorem restart {k' : Nat} {received' : List Payload} {h' : History} (hI : Invariant k' received' [] [] l h')
    {s : ProtocolState} (hseq : s.sSeqOutgoing = 0) (hqueue : s.waitQueueReliable = l.a.waitQueueReliable)
    (hsettled : s.started = true → Trail next (k - removals h) 0 l.a.waitQueueReliable
      (· ∈ received ++ receivedByB h) (underWay [] [] l))
    (hdelivered : Justified (DeliveredFirst k received) h) : Invariant k received [] [] { l with a := s } h where
  trail hs := by
    show Trail next _ (seq s.sSeqOutgoing) s.waitQueueReliable _ (underWay [] [] l)
    rw [hseq, hqueue]
    exact hsettled hs
  sendable := hI.sendable
  deliveredFirst := hdelivered

theorem enqueueA (hI : Invariant k received acks data l h) (payload : Payload) (reliable : Bool) :
    Invariant k received acks data { l with a := l.a.enqueue payload reliable } h := by
  cases reliable with
  | false => exact hI.congrA rfl rfl rfl
  | true => exact ⟨fun hs => (hI.trail hs).enqueue payload, hI.sendable, hI.deliveredFirst⟩

theorem localA (hI : Invariant k received [] [] l h) {e : LocalEvent} (hstart : e = .start → k = 0) :
    (actA (ProtocolState.handleLocal e)).wp (recorded (Invariant k received [] []) h) l [] := by
  rw [wp_actA]
  have hstable : Stable (whileA k received [] [] l h) := stableA
  have hlocal : whileA k received [] [] l h (prologue e l.a) [] := by
    rw [whileA_nil]
    refine ProtocolState.prologue_cases (Q := fun t => Invariant k received [] [] { l with a := t } h) ?_ ?_ ?_ ?_
    · intro _ started serialPortHandler hstarts _
      refine hI.restart rfl rfl (fun hs => ?_) hI.deliveredFirst
      rw [hstart (hstarts hs), Nat.zero_sub]
      exact .zero
    · intro payload reliable _
      exact hI.enqueueA payload reliable
    · intro _
      exact hI.congrA rfl rfl rfl
    · intro _ _
      exact hI
  exact hstable.handleLocal e hlocal

theorem startA {k' : Nat} {received' : List Payload} {h' : History} (hI : Invariant k' received' [] [] l h')
    (hsettled : Settled k received l) :
    (Link.handle (.a .start)).wp (recorded (Invariant k received [] []) [.inl (.a .start)]) l [] := by
  show (actA (ProtocolState.handleLocal .start)).wp _ l []
  rw [wp_actA]
  have hstable : Stable (whileA k received [] [] l [.inl (.a .start)]) := stableA
  have hlocal : whileA k received [] [] l [.inl (.a .start)] (prologue .start l.a) [] := by
    rw [whileA_nil]
    refine hI.restart rfl rfl (fun _ => ?_) (Justified.nil.concat trivial)
    rw [show received ++ receivedByB [.inl (.a .start)] = received from List.append_nil received]
    exact hsettled
  exact hstable.handleLocal .start hlocal

theorem ackNumber_of_carriesAck {buffer : List UInt8} (hsendable : Sendable buffer)
    (hcarries : carriesAck (deserializeFrame buffer) = true) :
    ackNumber buffer = some (seq (deserializeFrame buffer).rSeq) := by
  have htype : (deserializeFrame buffer).hdlcFrameType = .i ∨
      (deserializeFrame buffer).hdlcFrameType = .sRR := by
    simpa [carriesAck, hsendable.1] using hcarries
  rw [ackNumber, if_pos htype]

theorem underWay_ack {buffer : List UInt8} (hsendable : Sendable buffer)
    (hcarries : carriesAck (deserializeFrame buffer) = true) :
    underWay (ackNumber buffer).toList [] l = (seq (deserializeFrame buffer).rSeq, none) :: underWay [] [] l := by
  rw [ackNumber_of_carriesAck hsendable hcarries]
  rfl

theorem pop {buffer : List UInt8} (hI : Invariant k received (ackNumber buffer).toList [] l h)
    (hstarted : l.a.started = true) (hsendable : Sendable buffer)
    (hcarries : carriesAck (deserializeFrame buffer) = true)
    (hseq : l.a.acknowledges (deserializeFrame buffer).rSeq = true) {front : Payload}
    {rest : List Payload} (hqueue : l.a.waitQueueReliable = front :: rest) {s : ProtocolState}
    (hs : s.sSeqOutgoing = (deserializeFrame buffer).rSeq) (hrest : s.waitQueueReliable = rest) :
    Invariant k received [] [] { l with a := s } (h ++ [.inr (.a (.popFrontReliable front))]) := by
  have htrail := hI.trail hstarted
  rw [underWay_ack hsendable hcarries, hqueue, seq_of_acknowledges hseq] at htrail
  have hremovals : removals (h ++ [.inr (.a (.popFrontReliable front))]) = removals h + 1 := by
    simp [removals, isRemoval]
  refine ⟨fun _ => ?_, hI.sendable, hI.deliveredFirst.concat fun hk => ?_⟩
  · show Trail next _ (seq s.sSeqOutgoing) s.waitQueueReliable _ (underWay [] [] l)
    rw [hremovals, hs, hrest, seq_of_acknowledges hseq, receivedByB_append, Nat.sub_add_eq]
    by_cases hk : 0 < k - removals h
    · refine (htrail.acknowledged hk).2.mono fun payload hpayload => ?_
      rw [← List.append_assoc]
      exact List.mem_append_left _ hpayload
    · rw [show k - removals h - 1 = 0 by omega]
      exact .zero
  · exact (htrail.acknowledged (Nat.sub_pos_of_lt hk)).1

theorem advance {buffer : List UInt8} (hI : Invariant k received (ackNumber buffer).toList [] l h)
    (hsendable : Sendable buffer) {s : ProtocolState} (hstarted : s.started = l.a.started)
    (hseq : s.sSeqOutgoing = nextSSeq (deserializeFrame buffer) l.a)
    (hqueue : s.waitQueueReliable = l.a.waitQueueReliable) :
    Invariant k received [] [] { l with a := s } h := by
  rcases Bool.eq_false_or_eq_true (carriesAck (deserializeFrame buffer)) with hcarries | hcarries
  · rw [nextSSeq, if_pos hcarries] at hseq
    refine ⟨fun hs => ?_, hI.sendable, hI.deliveredFirst⟩
    have htrail := hI.trail (hstarted ▸ hs)
    rw [underWay_ack hsendable hcarries] at htrail
    show Trail next _ (seq s.sSeqOutgoing) s.waitQueueReliable _ (underWay [] [] l)
    rw [hseq, hqueue]
    exact htrail.advance
  · rw [nextSSeq, if_neg (by rw [hcarries]; decide), if_neg hsendable.2] at hseq
    have htype : ¬ ((deserializeFrame buffer).hdlcFrameType = .i ∨
        (deserializeFrame buffer).hdlcFrameType = .sRR) := by
      intro ht
      rcases ht with ht | ht <;> simp [carriesAck, ht] at hcarries
    rw [ackNumber, if_neg htype] at hI
    exact hI.congrA hstarted hseq hqueue

theorem receiveA {buffer : List UInt8} (hI : Invariant k received (ackNumber buffer).toList [] l h)
    (hstarted : l.a.started = true) (hsendable : Sendable buffer) :
    (actA (ProtocolState.handle (.frame buffer false))).wp (recorded (Invariant k received [] []) h) l [] := by
  rw [wp_actA]
  have hstable : Stable (whileA k received [] [] l h) := stableA
  have hstable' : Stable (whileA k received (ackNumber buffer).toList [] l h) := stableA
  have hpending := hstable'.toSteady.and (C := fun s => s.started = true) fun hs hk => hk.started.trans hs
  refine hstable.interpretDeserializedFrame hpending hpending ?_ ?_ ?_ ⟨whileA_nil.mpr hI, hstarted⟩
  · intro s o _ hs
    exact Invariant.lose hs.1 (List.Sublist.refl _) (List.sublist_append_right _ _)
      (List.Sublist.refl _)
  · intro _ s o hs
    unfold afterPayload
    split_ifs
    · exact ⟨Invariant.congrA (s := { s with rSeqIncoming := _ }) hs.1 rfl rfl rfl, hs.2⟩
    · exact hs
  · intro _ s o hs
    refine ⟨fun front rest b hcarries _ hseq hqueue => ?_, fun w b _ => ?_⟩
    · have hpop := Invariant.pop hs.1 hs.2 hsendable hcarries hseq hqueue
        (s := { s with
          sSeqOutgoing := (deserializeFrame buffer).rSeq, waitForAck := false,
          peerStoppedFlow := b, waitQueueReliable := rest }) rfl rfl
      rw [whileA_concat, show buffers [.popFrontReliable front] = [] from rfl, List.append_nil]
      exact hpop
    · exact Invariant.advance hs.1 hsendable (s := { s with
        sSeqOutgoing := nextSSeq (deserializeFrame buffer) s, waitForAck := w,
        peerStoppedFlow := b }) rfl rfl rfl

def whileB (k : Nat) (received : List Payload) (acks : List (Fin 8)) (data : List (Fin 8 × Option Payload))
    (l : Link) (h : History) : Assertion ProtocolState Effect := fun s o =>
  Invariant k received acks data { l with b := s, ba := l.ba ++ buffers o } (h ++ o.map (.inr ∘ .b))

theorem whileB_nil {s : ProtocolState} :
    whileB k received acks data l h s [] ↔ Invariant k received acks data { l with b := s } h := by
  show Invariant k received acks data { l with b := s, ba := l.ba ++ [] } (h ++ []) ↔ _
  rw [List.append_nil, List.append_nil]

theorem whileB_concat {s : ProtocolState} {o : List Effect} {x : Effect} :
    whileB k received acks data l h s (o ++ [x]) ↔
      Invariant k received acks data { l with b := s, ba := l.ba ++ buffers o ++ buffers [x] }
        (h ++ o.map (.inr ∘ .b) ++ [.inr (.b x)]) := by
  rw [whileB, buffers_concat, List.map_append, ← List.append_assoc, ← List.append_assoc]
  rfl

theorem whileB_silent {s : ProtocolState} {o : List Effect} {x : Effect} (hs : whileB k received acks data l h s o)
    (hsilent : buffers [x] = []) : whileB k received acks data l h s (o ++ [x]) := by
  rw [whileB_concat, hsilent, List.append_nil]
  exact Invariant.log hs rfl

theorem quietB {s : ProtocolState} {o : List Effect} {x : Effect} (hs : whileB k received acks data l h s o)
    (hx : Quiet s x) : whileB k received acks data l h s (o ++ [x]) := by
  cases x with
  | transmitHDLCFrame f buffer =>
    obtain ⟨hbuffer, htype⟩ := hx
    have hack := ackNumber_of_sent hbuffer
    have hsendable : Sendable buffer := by
      rcases htype with ⟨ht, _⟩ | ht | ht <;>
        exact sendable_of_sent hbuffer (by simp [ht]) (by simp [ht])
    rw [whileB_concat]
    refine (Invariant.sendB hs ?_ hsendable).log rfl
    rcases htype with ⟨ht, hnumber⟩ | ht | ht
    · rw [if_pos (.inr ht), hnumber] at hack
      exact .inr hack
    · rw [if_neg (by simp [ht])] at hack
      exact .inl hack
    · rw [if_neg (by simp [ht])] at hack
      exact .inl hack
  | popFrontReliable payload => exact hx.elim
  | _ => exact whileB_silent hs rfl

theorem stableB : Stable (whileB k received acks data l h) where
  kept hs hk := hs.congrB hk.rSeqIncoming
  quiet := quietB
  iFrame {s o front rest buffer} hs _ _ _ _ hbuffer := by
    rw [whileB_concat]
    have hack : ackNumber buffer = some (seq s.rSeqIncoming) := ackNumber_of_sent hbuffer
    have hsendable := sendable_of_sent hbuffer (by simp [ProtocolState.prepareIFrame])
      (by simp [ProtocolState.prepareIFrame])
    have hsent := Invariant.sendB hs (.inr hack) hsendable
    exact (hsent.congrB (s := { s with waitForAck := true }) rfl).log rfl
  uiFrame {s o front rest buffer} hs _ hbuffer := by
    rw [whileB_concat]
    have hack : ackNumber buffer = none := ackNumber_of_sent hbuffer
    have hsendable := sendable_of_sent hbuffer (by simp [ProtocolState.prepareUFrameUI])
      (by simp [ProtocolState.prepareUFrameUI])
    have hsent := Invariant.sendB hs (.inl hack) hsendable
    exact (hsent.congrB (s := { s with waitQueueUnreliable := rest }) rfl).log rfl

theorem localB (hI : Invariant k received [] [] l h) {e : LocalEvent} (he : ¬ ProtocolState.Resets e) :
    (actB (ProtocolState.handleLocal e)).wp (recorded (Invariant k received [] []) h) l [] := by
  rw [wp_actB]
  have hstable : Stable (whileB k received [] [] l h) := stableB
  have hlocal : whileB k received [] [] l h (prologue e l.b) [] := by
    rw [whileB_nil]
    refine ProtocolState.prologue_cases (Q := fun t => Invariant k received [] [] { l with b := t } h) ?_ ?_ ?_ ?_
    · exact fun hreset => absurd hreset he
    · intro payload reliable _
      cases reliable <;> exact hI.congrB rfl
    · exact fun _ => hI.congrB rfl
    · exact fun _ _ => hI
  exact hstable.handleLocal e hlocal

theorem accept {buffer : List UInt8} (hI : Invariant k received [] (dataEntry buffer).toList l h)
    (hreceived : (deserializeFrame buffer).isIFrame = true →
      (deserializeFrame buffer).payload ∈ receivedByB h) :
    Invariant k received [] [] { l with b := afterPayload (deserializeFrame buffer) l.b } h := by
  unfold afterPayload
  rcases hdata : (deserializeFrame buffer).hasPayload && (deserializeFrame buffer).isIFrame with _ | _
  · rw [dataEntry, hdata, if_neg Bool.false_ne_true] at hI
    exact hI
  · rw [dataEntry, hdata, if_pos rfl] at hI
    rw [Bool.and_eq_true] at hdata
    refine ⟨fun hs => ?_, hI.sendable, hI.deliveredFirst⟩
    have hnumber : seq (((deserializeFrame buffer).sSeq + 1) &&& 0x07) =
        next (seq (deserializeFrame buffer).sSeq) := by
      rw [seq_and_seven, seq_add_one]
    have harrived := ((hI.trail hs).sublist ((List.Sublist.refl _).append (List.sublist_cons_self ..))).receive
      (List.mem_append_right received (hreceived hdata.2))
    rw [← hnumber] at harrived
    exact harrived

theorem receiveB {buffer : List UInt8} (hI : Invariant k received [] (dataEntry buffer).toList l h)
    (hreceived : (deserializeFrame buffer).isIFrame = true →
      (deserializeFrame buffer).payload ∈ receivedByB h) :
    (actB (ProtocolState.handle (.frame buffer false))).wp (recorded (Invariant k received [] []) h) l [] := by
  rw [wp_actB]
  have hstable : Stable (whileB k received [] [] l h) := stableB
  have hpending : Stable (whileB k received [] (dataEntry buffer).toList l h) := stableB
  refine hstable.interpretDeserializedFrame hpending.toSteady hstable.toSteady ?_ ?_ ?_
    (whileB_nil.mpr hI)
  · intro s o _ hs
    exact Invariant.lose hs (List.Sublist.refl _) (List.Sublist.refl _)
      (List.sublist_append_right _ _)
  · intro _ s o hs
    refine Invariant.accept hs fun hi => ?_
    rw [receivedByB_append]
    exact List.mem_append_left _ (hreceived hi)
  · intro _ s o hs
    refine ⟨fun front rest b _ _ _ _ => ?_, fun w b _ => Invariant.congrB hs rfl⟩
    have hkept := Invariant.congrB
      (s := { s with
        sSeqOutgoing := (deserializeFrame buffer).rSeq
        waitForAck := false
        peerStoppedFlow := b
        waitQueueReliable := rest }) hs rfl
    exact whileB_silent hkept rfl

theorem deliverToA (hI : Invariant k received [] [] l h) :
    deliverToA.wp (recorded (Invariant k received [] []) h) l [] := by
  rcases hba : l.ba with _ | ⟨buffer, rest⟩
  · refine wp_of_eq (b := skip) (deliverToA_nil hba) (wp_skip.mpr ?_)
    rw [recorded_nil]
    exact hI
  refine wp_of_eq (deliverToA_cons hba) ?_
  have hpending : Invariant k received (ackNumber buffer).toList [] { l with ba := rest } h := by
    refine hI.lose (hba ▸ List.sublist_cons_self ..) ?_ (List.Sublist.refl _)
    rw [hba]
    rcases hack : ackNumber buffer with _ | n <;> simp [hack]
  refine wp_branch (fun hstarted => ?_) fun _ => wp_skip.mpr ?_
  · rw [wp_andThen, wp_emit, List.nil_append, wp_recorded]
    have hsendable := hI.sendable buffer (hba ▸ List.mem_cons_self ..)
    have hlogged := hpending.log (x := .inr (.receivedByA (deserializeFrame buffer))) rfl
    exact hlogged.receiveA hstarted hsendable
  · rw [recorded_nil]
    exact hpending.lose (List.Sublist.refl _) (List.sublist_append_right _ _) (List.Sublist.refl _)

theorem deliverToB (hI : Invariant k received [] [] l h) :
    deliverToB.wp (recorded (Invariant k received [] []) h) l [] := by
  rcases hab : l.ab with _ | ⟨buffer, rest⟩
  · refine wp_of_eq (b := skip) (deliverToB_nil hab) (wp_skip.mpr ?_)
    rw [recorded_nil]
    exact hI
  refine wp_of_eq (deliverToB_cons hab) ?_
  have hpending : Invariant k received [] (dataEntry buffer).toList { l with ab := rest } h := by
    refine hI.lose (List.Sublist.refl _) (List.Sublist.refl _) ?_
    rw [hab]
    rcases hdata : dataEntry buffer with _ | n <;> simp [hdata]
  refine wp_branch (fun _ => ?_) fun _ => wp_skip.mpr ?_
  · rw [wp_andThen, wp_emit, List.nil_append, wp_recorded]
    have hlogged := hpending.log (x := .inr (.receivedByB (deserializeFrame buffer))) rfl
    refine hlogged.receiveB fun hi => ?_
    rw [receivedByB_append]
    exact List.mem_append_right _ (by simp [receivedByB, hi])
  · rw [recorded_nil]
    exact hpending.lose (List.Sublist.refl _) (List.Sublist.refl _) (List.sublist_append_right _ _)

theorem handle (hI : Invariant k received [] [] l h) {e : LinkEvent} (he : KeepsNumbers e)
    (hstart : e = .a .start → k = 0) : (handle e).wp (recorded (Invariant k received [] []) (h ++ [.inl e])) l [] := by
  have hevent : Invariant k received [] [] l (h ++ [.inl e]) := hI.log rfl
  have hunlogged {l' : Link} (hl' : Invariant k received [] [] l' (h ++ [.inl e])) :
      recorded (Invariant k received [] []) (h ++ [.inl e]) l' [] := by
    rw [recorded_nil]
    exact hl'
  cases e with
  | a event => exact hevent.localA fun hevent => hstart (congrArg _ hevent)
  | b event => exact hevent.localB he
  | deliverToA => exact hevent.deliverToA
  | deliverToB => exact hevent.deliverToB
  | dropAB i =>
    have hlost := (List.eraseIdx_sublist l.ab i).filterMap dataEntry
    exact hunlogged (hevent.lose (List.Sublist.refl _) (List.Sublist.refl _) hlost)
  | dropBA i =>
    have hsub := List.eraseIdx_sublist l.ba i
    exact hunlogged (hevent.lose hsub (hsub.filterMap ackNumber) (List.Sublist.refl _))
  | aliveA eAliveState => exact hunlogged (hevent.congrA rfl rfl rfl)
  | aliveB eAliveState => exact hunlogged (hevent.congrB rfl)

theorem freshlyStarted (k : Nat) : Invariant k [] [] [] freshlyStarted [] where
  trail _ := by
    have hentries : underWay [] [] Link.freshlyStarted = [(0, none)] := by decide +kernel
    have hseq : seq Link.freshlyStarted.a.sSeqOutgoing = 0 := by decide +kernel
    rw [hentries, hseq]
    exact .of_clean (List.pairwise_pair.mpr (ne_next 0))
  sendable := by
    have hall : (Link.freshlyStarted.ba.all fun buffer =>
        decide ((deserializeFrame buffer).hdlcFrameType = .uTEST)) = true := by decide +kernel
    intro buffer hbuffer
    have ht := of_decide_eq_true (List.all_eq_true.mp hall buffer hbuffer)
    exact ⟨by simp [ht], by simp [ht]⟩
  deliveredFirst := Justified.nil

theorem run (hI : Invariant k received [] [] l h) {es : List LinkEvent} (hes : ∀ e ∈ es, KeepsNumbers e)
    (hstart : .a .start ∈ es → k = 0) :
    Invariant k received [] [] (run Link.handle es l).1 (h ++ Reactive.log Link.handle l es) :=
  history_invariant Link.handle (C := fun _ e => KeepsNumbers e ∧ (e = .a .start → k = 0))
    (fun _ _ _ he hI => hI.handle he.1 he.2) hI
    (along_of_forall Link.handle (fun e he _ => ⟨hes e he, fun heq => hstart (heq ▸ he)⟩) _)

theorem run_steady (k : Nat) {es : List LinkEvent}
    (hes : Along Link.handle (fun _ e => ¬ Resets e) Link.freshlyStarted es) :
    Invariant k [] [] [] (Reactive.run Link.handle es Link.freshlyStarted).1 (history es) := by
  refine history_invariant Link.handle (h := []) (fun _ _ e he hI => ?_) (freshlyStarted k) hes
  refine hI.handle (keepsNumbers_of_not_resets he) ?_
  rintro rfl
  exact absurd (.inl rfl) he

end Invariant

theorem removed_received (es : List LinkEvent) (hes : ∀ e ∈ es, ¬ Resets e) (pre post : History)
    (payload : Payload) (h : history es = pre ++ .inr (.a (.popFrontReliable payload)) :: post) :
    payload ∈ receivedByB pre :=
  (Invariant.run_steady (removals pre + 1) (along_of_forall _ (fun e he _ => hes e he) _)).deliveredFirst pre _ post h
    (Nat.lt_succ_self _)

/-- Both sides receive the probe of the other one, whose write completes. -/
def introduction : List LinkEvent :=
  [.deliverToA, .deliverToB, .a .triggerNextHDLCFrame, .b .triggerNextHDLCFrame]

def exchange (payload : Payload) : List LinkEvent :=
  [.a (.sendPayload payload true), .deliverToB, .deliverToA]

theorem removed_received_exchange :
    [0x41] ∈ receivedByB (beforeRemoval (history (introduction ++ exchange [0x41]))) :=
  removed_received (introduction ++ exchange [0x41]) (by decide) _
    (afterRemoval (history (introduction ++ exchange [0x41]))) _ (by decide +kernel)

/-- A is stopped and started as often as it likes, and B never. If the numbers under way are
settled for `k` payloads at the last `Start` of A, B has received each of the first `k` payloads
that A removes afterwards. -/
theorem removed_received_settled (es later : List LinkEvent) (hB : ∀ e ∈ es ++ later, KeepsNumbers e)
    (hA : .a .start ∉ later) (k : Nat)
    (hsettled : Settled k (receivedByB (history es)) (run handle es freshlyStarted).1)
    (pre post : History) (payload : Payload)
    (h : log handle (run handle es freshlyStarted).1 (.a .start :: later) =
      pre ++ .inr (.a (.popFrontReliable payload)) :: post)
    (hk : removals pre < k) : payload ∈ receivedByB (history es ++ pre) := by
  have hbefore := (Invariant.freshlyStarted 0).run (fun e he => hB e (List.mem_append_left _ he)) fun _ => rfl
  have hstarted := hbefore.startA hsettled
  have hafter := Invariant.run hstarted (fun e he => hB e (List.mem_append_right _ he)) fun hmem => absurd hmem hA
  rw [receivedByB_append]
  exact hafter.deliveredFirst pre _ post h hk

/-- A is stopped while its I-frame is under way. -/
def headUnderWay : List LinkEvent := introduction ++ [.a (.sendPayload [0x41] true), .a .stop]

/-- The I-frame arrives after the restart, and again with the number that B then expects. -/
def headRepeated : List LinkEvent :=
  [.deliverToB, .deliverToA, .a .triggerNextHDLCFrame, .deliverToB, .b .triggerNextHDLCFrame, .deliverToB, .deliverToA]

theorem removed_received_headUnderWay :
    [0x41] ∈ receivedByB (history headUnderWay ++
      beforeRemoval (log handle (run handle headUnderWay freshlyStarted).1 (.a .start :: headRepeated))) :=
  removed_received_settled headUnderWay headRepeated (by decide) (by decide) 1 (by decide +kernel) _
    (afterRemoval (log handle (run handle headUnderWay freshlyStarted).1 (.a .start :: headRepeated))) _
    (by decide +kernel) (by decide +kernel)

/-- A restarts when B expects number 1. The first I-frame after the restart is lost, and a
N(R) that was under way before acknowledges it. -/
def unsettledRun : List LinkEvent :=
  introduction ++ exchange [0x41] ++
    [.b .triggerNextHDLCFrame,
      .a .stop, .a (.sendPayload [0x42] true), .a .start, .a .triggerNextHDLCFrame,
      .b (.sendPayload [0x55] false), .b .triggerNextHDLCFrame, .b (.sendPayload [0x56] true),
      .deliverToA, .dropAB 1, .deliverToA]

theorem removed_not_received :
    ¬ ∀ pre payload post,
      history unsettledRun = pre ++ .inr (.a (.popFrontReliable payload)) :: post →
        payload ∈ receivedByB pre := by
  intro hall
  have hreceived := hall (beforeRemoval (history unsettledRun)) [0x42]
    (afterRemoval (history unsettledRun)) (by decide +kernel)
  have hnot : [0x42] ∉ receivedByB (beforeRemoval (history unsettledRun)) := by decide +kernel
  exact hnot hreceived

end Hdlcd.Link
