/-
Postmortem/Synthetic/Memory.lean

Memory made by hand.

A sparse memory has the bytes that were written to it and no others.  Ranges
can be poisoned: a read that touches one fails, whatever was written there.
-/
import Postmortem.Image
import Std.Data.HashMap

namespace Postmortem.Synthetic

structure SparseMemory where
  bytes : Std.HashMap UInt64 UInt8
  /-- Ranges that cannot be read, each from its start to before its stop. -/
  poisoned : List (Nat × Nat)
  generation : Nat

namespace SparseMemory

/-- Memory with nothing in it. -/
def empty : SparseMemory := ⟨∅, [], 0⟩

/-- Writes bytes from an address on, around the end of memory if need be. -/
def write (m : SparseMemory) (a : Address) : List UInt8 → SparseMemory
  | [] => m
  | b :: bs => write { m with bytes := m.bytes.insert a.word b } (a.add 1) bs

/-- Writes a word. -/
def writeWord (m : SparseMemory) (a : Address) (w : UInt64) : SparseMemory :=
  m.write a (Word.toBytes 8 w.toNat)

/-- The end of `length` bytes from `start` on; ranges do not go around the end of memory. -/
def rangeStop (start length : Nat) : Nat := min (start + length) (UInt64.size - 1)

/-- Makes `length` bytes unreadable. -/
def poison (m : SparseMemory) (a : Address) (length : Nat) : SparseMemory :=
  { m with poisoned := m.poisoned ++ [(a.word.toNat, rangeStop a.word.toNat length)] }

/-- Lets the process run on: what was read before says nothing any more. -/
def advanceGeneration (m : SparseMemory) : SparseMemory :=
  { m with generation := m.generation + 1 }

/-- Whether `length` bytes from an address on touch a poisoned range. -/
def isPoisoned (m : SparseMemory) (a : Address) (length : Nat) : Bool :=
  let start := a.word.toNat
  m.poisoned.any fun range => start < range.2 && range.1 < rangeStop start length

/-- The bytes from an address on, behind `found`, last first. -/
def collect (bytes : Std.HashMap UInt64 UInt8) :
    Nat → UInt64 → List UInt8 → Option (List UInt8)
  | 0, _, found => some found.reverse
  | n + 1, a, found =>
    match bytes[a]? with
    | some b => collect bytes n (a + 1) (b :: found)
    | none => none

theorem length_collect (bytes : Std.HashMap UInt64 UInt8) (n : Nat) (a : UInt64)
    (found : List UInt8) {all : List UInt8} (h : collect bytes n a found = some all) :
    all.length = found.length + n := by
  induction n generalizing a found with
  | zero => simp only [collect, Option.some.injEq] at h; simp [← h]
  | succ n ih =>
    unfold collect at h
    split at h
    · have := ih _ _ h
      simp only [List.length_cons] at this
      omega
    · cases h

/-- The bytes from an address on, if all are there. -/
def fetch (m : SparseMemory) (a : Address) (length : Nat) : Option (List UInt8) :=
  if m.isPoisoned a length then none else collect m.bytes length a.word []

theorem length_fetch (m : SparseMemory) (a : Address) (n : Nat) (bytes : List UInt8)
    (h : m.fetch a n = some bytes) : bytes.length = n := by
  unfold fetch at h
  split at h
  · cases h
  · simpa using length_collect _ _ _ _ h

/-- The memory as an image. -/
def image (m : SparseMemory) : Image := ⟨m.generation, m.fetch, m.length_fetch⟩

end SparseMemory

end Postmortem.Synthetic
