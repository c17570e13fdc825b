import Mathlib.Algebra.Group.Nat.Defs
import Mathlib.Data.List.Basic

/-! The lock counter of a serial port, and the guards of a client: which locks and which
alive state it was told. -/

namespace Hdlcd

/-- Each lock is held by a client, so only the decrement of `m_NbrOfLocks` could wrap. -/
structure SerialPortLock where
  nbrOfLocks : Nat := 0
  deriving DecidableEq, Repr

namespace SerialPortLock

/-- The second component tells whether the serial port is now suspended. -/
def suspendSerialPort (l : SerialPortLock) : SerialPortLock × Bool :=
  ({ nbrOfLocks := l.nbrOfLocks + 1 }, l.nbrOfLocks + 1 == 1)

/-- The second component tells whether the serial port is now resumed. -/
def resumeSerialPort (l : SerialPortLock) : SerialPortLock × Bool :=
  let nbrOfLocks := if l.nbrOfLocks = 0 then 2 ^ 64 - 1 else l.nbrOfLocks - 1
  ({ nbrOfLocks := nbrOfLocks }, nbrOfLocks == 0)

def getSerialPortState (l : SerialPortLock) : Bool := l.nbrOfLocks != 0

def getLockHolders (l : SerialPortLock) : Nat := l.nbrOfLocks

end SerialPortLock

structure AliveGuard where
  alive : Bool := true
  deriving DecidableEq, Repr

/-- The second component tells whether the state changed. -/
def AliveGuard.updateSerialPortState (g : AliveGuard) (alive : Bool) : AliveGuard × Bool :=
  ({ g with alive := alive }, g.alive != alive)

structure LockGuard where
  lockedBySelf : Bool := false
  lockedByOthers : Bool := false
  lastLockedBySelf : Bool := false
  lastLockedByOthers : Bool := false
  deriving DecidableEq, Repr

/-- The second component tells whether the state changed. -/
def LockGuard.updateSerialPortState (g : LockGuard) (lockHolders : Nat) : LockGuard × Bool :=
  let lockedByOthers :=
    if g.lockedBySelf then decide (lockHolders > 1) else decide (lockHolders > 0)
  if g.lastLockedBySelf ≠ g.lockedBySelf ∨ g.lastLockedByOthers ≠ lockedByOthers then
    ({ g with
        lockedByOthers := lockedByOthers
        lastLockedBySelf := g.lockedBySelf
        lastLockedByOthers := lockedByOthers }, true)
  else ({ g with lockedByOthers := lockedByOthers }, false)

/-- Whether another client holds a lock, seen by a client. -/
def LockGuard.others (lockedBySelf : Bool) (lockHolders : Nat) : Bool :=
  if lockedBySelf then decide (lockHolders > 1) else decide (lockHolders > 0)

structure LockGuard.Updated (g : LockGuard) (lockHolders : Nat) (u : LockGuard × Bool) : Prop where
  self : u.1.lockedBySelf = g.lockedBySelf
  others : u.1.lockedByOthers = LockGuard.others g.lockedBySelf lockHolders
  lastSelf : u.1.lastLockedBySelf = g.lockedBySelf
  lastOthers : u.1.lastLockedByOthers = u.1.lockedByOthers
  changed : u.2 = true ↔ (g.lastLockedByOthers, g.lastLockedBySelf) ≠
    (u.1.lastLockedByOthers, u.1.lastLockedBySelf)

theorem LockGuard.updated (g : LockGuard) (lockHolders : Nat) :
    g.Updated lockHolders (g.updateSerialPortState lockHolders) := by
  have hothers : (if g.lockedBySelf then decide (lockHolders > 1) else decide (lockHolders > 0)) =
      LockGuard.others g.lockedBySelf lockHolders := rfl
  unfold updateSerialPortState
  dsimp only
  rw [hothers]
  split_ifs with hchanged
  · refine ⟨rfl, rfl, rfl, rfl, iff_of_true rfl fun heq => ?_⟩
    obtain ⟨hothers, hself⟩ := Prod.mk.inj heq
    exact hchanged.elim (fun h => h hself) fun h => h hothers
  · obtain ⟨hself, hothers⟩ := not_or.mp hchanged
    exact ⟨rfl, rfl, not_not.mp hself, not_not.mp hothers, iff_of_false Bool.false_ne_true (not_not.mpr rfl)⟩

end Hdlcd
