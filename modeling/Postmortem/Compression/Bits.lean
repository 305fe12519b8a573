/-
Postmortem/Compression/Bits.lean

Bits of compressed data.

A byte is read from its lowest bit on; some data is read backwards instead,
from the highest bit of its last byte on.  A number takes so many bits in a
row, and either its lowest or its highest bit comes first.
-/

namespace Postmortem.Compression

/-- Bits, in the order in which they are read. -/
abbrev Bits : Type := List Bool

/-- The bits of a byte, lowest first. -/
def byteBits (b : UInt8) : Bits := (List.range 8).map b.toNat.testBit

/-- The bits of bytes, lowest first. -/
def bitsOf (bytes : List UInt8) : Bits := bytes.flatMap byteBits

/-- The bits of bytes that are read backwards.  In the last byte, the highest bit that is set marks
the start. -/
def backwardBits? (bytes : List UInt8) : Option Bits := do
  let last ← bytes.getLast?
  guard (last ≠ 0)
  pure ((bitsOf bytes).reverse.dropWhile (!·)).tail

/-- Takes a number of so many bits, lowest first, from the front. -/
def low? : Nat → Bits → Option (Nat × Bits)
  | 0, bits => some (0, bits)
  | _ + 1, [] => none
  | count + 1, b :: bits => do
    let (n, rest) ← low? count bits
    pure (b.toNat + 2 * n, rest)

/-- Takes a number of so many bits, highest first, from the front, behind bits worth `n`. -/
def highFrom? (n : Nat) : Nat → Bits → Option (Nat × Bits)
  | 0, bits => some (n, bits)
  | _ + 1, [] => none
  | count + 1, b :: bits => highFrom? (2 * n + b.toNat) count bits

/-- Takes a number of so many bits, highest first, from the front. -/
def high? (count : Nat) (bits : Bits) : Option (Nat × Bits) := highFrom? 0 count bits

/-- All numbers together. -/
def total : List Nat → Nat
  | [] => 0
  | n :: rest => n + total rest

/-- The number of bits that a number takes. -/
def bitLength (n : Nat) : Nat := if n = 0 then 0 else n.log2 + 1

end Postmortem.Compression
