/-
Postmortem/Image.lean

Images of a process's memory.

An image answers a request for bytes with exactly the bytes asked for, or not
at all.  Its generation tells one image from another: whatever was read under
one generation says nothing about the next.
-/
import Postmortem.Failure

namespace Postmortem

/-- No single read of bytes is longer than this. -/
def maxReadBytes : Nat := 64 * 1024 * 1024

/-- The memory of a process as it was captured. -/
structure Image where
  generation : Nat
  /-- The bytes from an address on, if all of them were captured. -/
  fetch : Address → Nat → Option (List UInt8)
  length_fetch : ∀ a n bytes, fetch a n = some bytes → bytes.length = n

/-- Whether words of `width` bytes exist. -/
def isWordWidth (width : Nat) : Bool := width == 1 || width == 2 || width == 4 || width == 8

/-- The unsigned number that one, two, four or eight bytes store; `a` is where they came from. -/
def decodeUnsigned (a : Address) (bytes : List UInt8) : Except Failure UInt64 :=
  if isWordWidth bytes.length then .ok (UInt64.ofNat (Word.ofBytes bytes))
  else .error (.unreadable a bytes.length)

namespace Image

/-- The unsigned number of `width` bytes at `a`. -/
def unsigned? (m : Image) (a : Address) (width : Nat) : Option UInt64 :=
  if isWordWidth width then (m.fetch a width).map fun bytes => UInt64.ofNat (Word.ofBytes bytes)
  else none

/-- The word at `a`. -/
def word? (m : Image) (a : Address) : Option UInt64 := m.unsigned? a 8

/-- The image that captured nothing. -/
def empty : Image := ⟨0, fun _ n => if n = 0 then some [] else none, by
  intro a n bytes h
  split at h <;> simp_all⟩

end Image

end Postmortem
