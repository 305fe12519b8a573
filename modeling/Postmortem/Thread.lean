/-
Postmortem/Thread.lean

Threads of a captured process.
-/
import Postmortem.Address
import Postmortem.Document

namespace Postmortem

/-- What a process ran on. Registers are understood for the named ones. -/
inductive Architecture where
  | x86_64
  | arm64
  | unknown (name : String)
  deriving DecidableEq

namespace Architecture

def text : Architecture → String
  | x86_64 => "x86_64"
  | arm64 => "arm64"
  | unknown name => name

/-- How many bytes a pointer takes. -/
def pointerSize : Architecture → Nat
  | x86_64 | arm64 | unknown _ => 8

def document : Architecture → Document
  | x86_64 => .text "X86_64"
  | arm64 => .text "Arm64"
  | unknown name => .record [("Unknown", .text name)]

end Architecture

/-- The registers a walk up the stack starts from. -/
structure Registers where
  architecture : Architecture
  pc : Address
  sp : Address
  fp : Address
  deriving DecidableEq

/-- Registers that hold nothing. -/
def Registers.zero : Registers := ⟨.x86_64, .null, .null, .null⟩

/-- A thread at the time of capture. -/
structure ThreadInfo where
  /-- Its place among the threads. -/
  index : Nat
  /-- The number the kernel gave it. -/
  id : UInt64
  /-- The signal that stopped it. -/
  stopSignal : Option Nat
  registers : Registers
  deriving DecidableEq

def ThreadInfo.document (t : ThreadInfo) : Document :=
  .record
    [("index", .nat t.index), ("id", .nat t.id.toNat), ("stop_signal", .nullable .nat t.stopSignal),
     ("pc", .text t.registers.pc.text)]

end Postmortem
