import Hdlcd.Library.DeadlineTimer

/-! The alive state and baud rate detection of AliveState.cpp. The registered callbacks
are listed in the order in which they are invoked. -/

namespace Hdlcd

inductive EAliveState
  | probing
  | found
  | reprobing
  deriving DecidableEq, Repr

inductive AliveCallback
  | sendProbe
  | changeBaudrate
  deriving DecidableEq, Repr

structure AliveState where
  eAliveState : EAliveState := .probing
  frameWasReceived : Bool := false
  probeCounter : Nat := 0
  stateTimer : DeadlineTimer Unit := {}
  probeTimer : DeadlineTimer Unit := {}
  deriving DecidableEq, Repr

namespace AliveState

def reset (a : AliveState) : AliveState :=
  { a with eAliveState := .probing, frameWasReceived := false, probeCounter := 0 }

def startStateTimer (a : AliveState) : AliveState :=
  { a with stateTimer := a.stateTimer.asyncWait () }

def startProbeTimer (a : AliveState) : AliveState :=
  { a with probeTimer := a.probeTimer.asyncWait () }

def start (a : AliveState) : AliveState × List AliveCallback :=
  let a := { a with probeCounter := 0, eAliveState := .probing, frameWasReceived := false }
  let a := { a with stateTimer := a.stateTimer.cancel, probeTimer := a.probeTimer.cancel }
  (a.startStateTimer.startProbeTimer, [.sendProbe])

def stop (a : AliveState) : AliveState :=
  reset { a with stateTimer := a.stateTimer.cancel, probeTimer := a.probeTimer.cancel }

/-- The second component tells whether the state changed. -/
def onFrameReceived (a : AliveState) : AliveState × Bool :=
  let a := { a with frameWasReceived := true }
  if a.eAliveState = .probing then ({ a with eAliveState := .found }, true)
  else ({ a with eAliveState := .found }, false)

def isAlive (a : AliveState) : Bool := a.eAliveState == .found || a.eAliveState == .reprobing

/-- `none` stands for the `assert(false)`. -/
def onStateTimeout (a : AliveState) : Option AliveState :=
  match a.eAliveState with
  | .found =>
    if a.frameWasReceived then some { a with frameWasReceived := false }
    else some { a with eAliveState := .reprobing }
  | .reprobing =>
    if !a.frameWasReceived then some { a with eAliveState := .probing }
    else none
  | .probing => some a

def onProbeTimeout (a : AliveState) : AliveState × List AliveCallback :=
  match a.eAliveState with
  | .probing =>
    -- for each fourth probe another baud rate is selected
    let probeCounter := (a.probeCounter + 1) &&& 0x03
    ({ a with probeCounter := probeCounter },
      if probeCounter = 0 then [.changeBaudrate, .sendProbe] else [.sendProbe])
  | .reprobing => (a, [.sendProbe])
  | .found => (a, [])

theorem isAlive_onFrameReceived (a : AliveState) : a.onFrameReceived.1.isAlive = true := by
  unfold onFrameReceived
  dsimp only
  split_ifs <;> rfl

theorem isAlive_of_onStateTimeout {a a' : AliveState} (h : a.onStateTimeout = some a')
    (halive : a'.isAlive = true) : a.isAlive = true := by
  unfold onStateTimeout at h
  cases hstate : a.eAliveState with
  | probing =>
    simp only [hstate, Option.some.injEq] at h
    rw [← h, isAlive, hstate] at halive
    exact absurd halive (by decide)
  | found | reprobing => simp [isAlive, hstate]

theorem isAlive_onProbeTimeout (a : AliveState) : a.onProbeTimeout.1.isAlive = a.isAlive := by
  unfold onProbeTimeout
  split <;> rfl

end AliveState
end Hdlcd
