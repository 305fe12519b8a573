/-
Postmortem/Elf/Data.lean

The bytes of a file, and the records in them.

A record is a run of bytes whose numbers stand at fixed offsets.  A run is
found whole or not at all, so a record that was found has all its numbers.
-/
import Postmortem.Word

namespace Postmortem

/-- Which byte of a number is stored first. -/
inductive ByteOrder where
  | little
  | big
  deriving DecidableEq

/-- The number that bytes store. -/
def ByteOrder.number : ByteOrder → List UInt8 → Nat
  | little, bytes => Word.ofBytes bytes
  | big, bytes => Word.ofBytes bytes.reverse

/-- The contents of a file. -/
abbrev FileData := Array UInt8

/-- The bytes from `start` on, as many as `length`, if the file has them all. -/
def FileData.slice? (d : FileData) (start length : Nat) : Option (List UInt8) :=
  if start + length ≤ d.size then some (d.extract start (start + length)).toList else none

theorem FileData.length_slice? {d : FileData} {start length : Nat} {bytes : List UInt8}
    (h : d.slice? start length = some bytes) : bytes.length = length := by
  unfold FileData.slice? at h
  split at h
  · simp only [Option.some.injEq] at h
    subst h
    simp
    omega
  · cases h

/-- The number of `width` bytes at an offset of a record. -/
def ByteOrder.field (o : ByteOrder) (record : List UInt8) (offset width : Nat) : Nat :=
  o.number ((record.drop offset).take width)

/-- The number of `width` bytes at an offset, if the record has them. -/
def ByteOrder.field? (o : ByteOrder) (record : List UInt8) (offset width : Nat) : Option Nat :=
  if offset + width ≤ record.length then some (o.field record offset width) else none

/-- The first `count` records of `size` bytes. -/
def records (size : Nat) : Nat → List UInt8 → List (List UInt8)
  | 0, _ => []
  | count + 1, bytes => bytes.take size :: records size count (bytes.drop size)

/-- Cuts `bytes` into records of `size` bytes, without what is left over. -/
def recordsOf (size : Nat) (bytes : List UInt8) : List (List UInt8) :=
  records size (bytes.length / size) bytes

/-- The bytes from `position` to before the first zero, if there is one among the next `limit`. -/
def FileData.untilZero? (d : FileData) : Nat → Nat → Option (List UInt8)
  | 0, _ => none
  | limit + 1, position =>
    match d[position]? with
    | none => none
    | some b => if b = 0 then some [] else (d.untilZero? limit (position + 1)).map (b :: ·)

end Postmortem
