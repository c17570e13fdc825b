import Mathlib.Data.List.Basic

/-! The serial port object of the I/O library. An operation is pending until it completes;
then its handler is queued with the result, and closing the port no longer reaches it. -/

namespace Hdlcd

/-- What comes of opening the device. -/
inductive OpenResult
  | opened
  -- `open` throws
  | failed
  -- `set_option` throws when the device is open
  | notConfigured
  deriving DecidableEq, Repr

/-- What the handler of a read is told. -/
inductive ReadResult
  | success (bytesRead : Nat)
  | error
  deriving DecidableEq, Repr

inductive WriteResult
  | success (bytesSent : Nat)
  | error
  deriving DecidableEq, Repr

/-- The length of the read buffer. -/
def maxLength : Nat := 1024

/-- What the device brings: at least one byte, and at most as many as the read buffer holds. -/
inductive ReadCompletion
  | success (bytes : List UInt8)
  | error
  deriving DecidableEq, Repr

namespace ReadCompletion

def bytes : ReadCompletion → List UInt8
  | .success bytes => bytes
  | .error => []

def result : ReadCompletion → ReadResult
  | .success bytes => .success bytes.length
  | .error => .error

def valid : ReadCompletion → Bool
  | .success bytes => bytes ≠ [] && bytes.length ≤ maxLength
  | .error => true

end ReadCompletion

structure ReadOperation where
  -- the opening of the port in which it was started
  opening : Nat
  result : Option ReadResult
  deriving DecidableEq, Repr

structure WriteOperation where
  opening : Nat
  buffer : List UInt8
  result : Option WriteResult
  deriving DecidableEq, Repr

structure SerialPort where
  isOpen : Bool := false
  -- how often the port was opened
  openings : Nat := 0
  reads : List ReadOperation := []
  writes : List WriteOperation := []
  deriving DecidableEq, Repr

def ReadOperation.complete (result : ReadResult) (r : ReadOperation) : ReadOperation :=
  match r.result with
  | none => { r with result := some result }
  | some _ => r

def WriteOperation.complete (result : WriteResult) (w : WriteOperation) : WriteOperation :=
  match w.result with
  | none => { w with result := some result }
  | some _ => w

namespace SerialPort

def openPort (p : SerialPort) : SerialPort := { p with isOpen := true, openings := p.openings + 1 }

/-- The pending operations are aborted. -/
def close (p : SerialPort) : SerialPort :=
  { p with
    isOpen := false
    reads := p.reads.map (.complete .error)
    writes := p.writes.map (.complete .error) }

/-- On a closed port an operation fails at once. -/
def asyncReadSome (p : SerialPort) : SerialPort :=
  { p with reads := p.reads ++ [⟨p.openings, if p.isOpen then none else some .error⟩] }

def asyncWriteSome (p : SerialPort) (buffer : List UInt8) : SerialPort :=
  { p with writes := p.writes ++ [⟨p.openings, buffer, if p.isOpen then none else some .error⟩] }

/-- The read has not completed yet. -/
def readPending (p : SerialPort) (i : Nat) : Bool := (p.reads[i]?).any (·.result.isNone)

def readCompletes (p : SerialPort) (i : Nat) (result : ReadResult) : SerialPort :=
  { p with reads := p.reads.modify i (.complete result) }

def writeCompletes (p : SerialPort) (i : Nat) (result : WriteResult) : SerialPort :=
  { p with writes := p.writes.modify i (.complete result) }

end SerialPort
end Hdlcd
