import Hdlcd.Protocol.History

/-! Two HDLC entities over a pair of channels. The channels deliver in order and may lose
any frame; what they carry is the unescaped buffer of each frame. -/

namespace Hdlcd
open Reactive Action

structure Link where
  a : ProtocolState
  b : ProtocolState
  -- under way from A to B, the next one to arrive first
  ab : List (List UInt8)
  ba : List (List UInt8)
  deriving DecidableEq

inductive LinkEvent
  | a (event : LocalEvent)
  | b (event : LocalEvent)
  | deliverToA
  | deliverToB
  | dropAB (i : Nat)
  | dropBA (i : Nat)
  -- the alive state changes
  | aliveA (eAliveState : EAliveState)
  | aliveB (eAliveState : EAliveState)
  deriving DecidableEq, Repr

inductive LinkEffect
  | a (effect : Effect)
  | b (effect : Effect)
  | receivedByA (hdlcFrame : HdlcFrame)
  | receivedByB (hdlcFrame : HdlcFrame)
  deriving DecidableEq, Repr

namespace Link
open FrameParser Framing

def seq (n : UInt8) : Fin 8 := ⟨n.toNat % 8, Nat.mod_lt _ (by decide)⟩

def next (n : Fin 8) : Fin 8 := n + 1

theorem ne_next (n : Fin 8) : n ≠ next n := by
  revert n
  decide

theorem next_injective : Function.Injective next := by
  unfold Function.Injective
  decide

theorem seq_and_seven (n : UInt8) : seq (n &&& 0x07) = seq n := by
  apply Fin.ext
  show (n &&& 0x07).toNat % 8 = n.toNat % 8
  rw [and_seven_toNat, Nat.mod_mod]

theorem seq_add_one (n : UInt8) : seq (n + 1) = next (seq n) := by
  apply Fin.ext
  show (n + 1).toNat % 8 = (n.toNat % 8 + 1) % 8
  rw [UInt8.toNat_add]
  simp only [UInt8.reduceToNat]
  omega

theorem seq_of_acknowledges {s : ProtocolState} {rSeq : UInt8} (h : s.acknowledges rSeq = true) :
    seq rSeq = next (seq s.sSeqOutgoing) := by
  rw [ProtocolState.acknowledges, beq_iff_eq] at h
  rw [h, seq_and_seven, seq_add_one]

theorem acknowledges_of_seq {s : ProtocolState} {rSeq : UInt8} (hlt : rSeq < 8)
    (h : seq rSeq = next (seq s.sSeqOutgoing)) : s.acknowledges rSeq = true := by
  rw [← seq_add_one] at h
  have hmod : rSeq.toNat % 8 = (s.sSeqOutgoing + 1).toNat % 8 := congrArg Fin.val h
  rw [ProtocolState.acknowledges, beq_iff_eq]
  apply UInt8.toNat_inj.mp
  rw [and_seven_toNat, ← hmod]
  exact (Nat.mod_eq_of_lt (UInt8.lt_iff_toNat_lt.mp hlt)).symm

def buffers (effects : List Effect) : List (List UInt8) :=
  effects.filterMap fun
    | .transmitHDLCFrame _ buffer => some buffer
    | _ => none

def actA (act : ProtocolState.Act) : Action Link LinkEffect := fun l =>
  ({ l with a := (act l.a).1, ab := l.ab ++ buffers (act l.a).2 }, (act l.a).2.map .a)

def actB (act : ProtocolState.Act) : Action Link LinkEffect := fun l =>
  ({ l with b := (act l.b).1, ba := l.ba ++ buffers (act l.b).2 }, (act l.b).2.map .b)

def deliverToA : Action Link LinkEffect := fun l =>
  match l.ba with
  | [] => (l, [])
  | buffer :: rest =>
    (branch (·.a.started)
      ((emit [.receivedByA (deserializeFrame buffer)]).andThen
        (actA (ProtocolState.handle (.frame buffer false)))) skip) { l with ba := rest }

def deliverToB : Action Link LinkEffect := fun l =>
  match l.ab with
  | [] => (l, [])
  | buffer :: rest =>
    (branch (·.b.started)
      ((emit [.receivedByB (deserializeFrame buffer)]).andThen
        (actB (ProtocolState.handle (.frame buffer false)))) skip) { l with ab := rest }

def setAlive (eAliveState : EAliveState) (s : ProtocolState) : ProtocolState :=
  { s with aliveState := { s.aliveState with eAliveState := eAliveState } }

def handle : LinkEvent → Action Link LinkEffect
  | .a event => actA (ProtocolState.handleLocal event)
  | .b event => actB (ProtocolState.handleLocal event)
  | .deliverToA => deliverToA
  | .deliverToB => deliverToB
  | .dropAB i => update fun l => { l with ab := l.ab.eraseIdx i }
  | .dropBA i => update fun l => { l with ba := l.ba.eraseIdx i }
  | .aliveA eAliveState => update fun l => { l with a := setAlive eAliveState l.a }
  | .aliveB eAliveState => update fun l => { l with b := setAlive eAliveState l.b }

def freshlyStarted : Link :=
  (run handle [.a .start, .b .start]
    { a := ProtocolState.initial, b := ProtocolState.initial, ab := [], ba := [] }).1

abbrev History := List (LinkEvent ⊕ LinkEffect)

def history (es : List LinkEvent) : History := log handle freshlyStarted es

def receivedByB (h : History) : List Payload :=
  h.filterMap fun
    | .inr (.receivedByB f) => if f.isIFrame then some f.payload else none
    | _ => none

def Resets : LinkEvent → Prop
  | .a event | .b event => ProtocolState.Resets event
  | _ => False

instance : ∀ e, Decidable (Resets e)
  | .a event | .b event => inferInstanceAs (Decidable (ProtocolState.Resets event))
  | .deliverToA | .deliverToB | .dropAB _ | .dropBA _ | .aliveA _ | .aliveB _ => isFalse id

def isRemoval : LinkEvent ⊕ LinkEffect → Bool
  | .inr (.a (.popFrontReliable _)) => true
  | _ => false

/-- Splits the history at the last payload that A removes. -/
def beforeRemoval (h : History) : History := h.rdropWhile (!isRemoval ·) |>.dropLast

def afterRemoval (h : History) : History := h.rtakeWhile (!isRemoval ·)

theorem buffers_concat (o : List Effect) (x : Effect) :
    buffers (o ++ [x]) = buffers o ++ buffers [x] := List.filterMap_append

theorem wp_actA {act : ProtocolState.Act} {I : Link → History → Prop} {l : Link} {h : History} :
    (actA act).wp (recorded I h) l [] ↔ act.wp (fun s o =>
      I { l with a := s, ab := l.ab ++ buffers o } (h ++ o.map (.inr ∘ .a))) l.a [] := by
  simp only [wp, actA, recorded, List.nil_append, List.map_map]

theorem wp_actB {act : ProtocolState.Act} {I : Link → History → Prop} {l : Link} {h : History} :
    (actB act).wp (recorded I h) l [] ↔ act.wp (fun s o =>
      I { l with b := s, ba := l.ba ++ buffers o } (h ++ o.map (.inr ∘ .b))) l.b [] := by
  simp only [wp, actB, recorded, List.nil_append, List.map_map]

theorem deliverToA_nil {l : Link} (h : l.ba = []) : deliverToA l = (l, []) := by
  rw [deliverToA, h]

theorem deliverToA_cons {l : Link} {buffer : List UInt8} {rest : List (List UInt8)}
    (h : l.ba = buffer :: rest) :
    deliverToA l = (branch (·.a.started)
      ((emit [.receivedByA (deserializeFrame buffer)]).andThen
        (actA (ProtocolState.handle (.frame buffer false)))) skip) { l with ba := rest } := by
  rw [deliverToA, h]

theorem deliverToB_nil {l : Link} (h : l.ab = []) : deliverToB l = (l, []) := by
  rw [deliverToB, h]

theorem deliverToB_cons {l : Link} {buffer : List UInt8} {rest : List (List UInt8)}
    (h : l.ab = buffer :: rest) :
    deliverToB l = (branch (·.b.started)
      ((emit [.receivedByB (deserializeFrame buffer)]).andThen
        (actB (ProtocolState.handle (.frame buffer false)))) skip) { l with ab := rest } := by
  rw [deliverToB, h]

theorem receivedByB_append (h h' : History) :
    receivedByB (h ++ h') = receivedByB h ++ receivedByB h' := List.filterMap_append

end Link
end Hdlcd
