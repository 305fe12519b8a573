/-
Postmortem/Compression/Zlib.lean

Compressed data between a header and a checksum.

The header tells the method and how far back repeated pieces may be; the
checksum is that of the expanded data.  Data that ends too early is expanded
as far as it goes, and no more is expanded than there is room for.
-/
import Postmortem.Compression.Deflate

namespace Postmortem.Compression.Zlib

open Expanding

/-- The modulus of the checksum: the largest prime of sixteen bits. -/
def modulus : Nat := 65521

/-- The sum of the bytes, and the sum of all such sums on the way. -/
def sums (bytes : Array UInt8) : Nat × Nat :=
  bytes.foldl (fun (a, b) byte =>
    let a := (a + byte.toNat) % modulus
    (a, (b + a) % modulus)) (1, 0)

/-- The checksum of bytes. -/
def checksum (bytes : Array UInt8) : Nat := (sums bytes).2 <<< 16 + (sums bytes).1

/-- Whether two bytes are a header of data that can be expanded. -/
def isHeader (method flags : Nat) : Bool :=
  (256 * method + flags) % 31 == 0 && !flags.testBit 5 && method % 16 == 8 && method / 16 ≤ 7

/-- A number of four bytes, highest first. -/
def stored : Expanding Nat := do
  pure ((← numbers 8 4).foldl (256 * · + ·) 0)

/-- All of the data; at most `limit` blocks, each with at most `limit` symbols. -/
def whole (limit : Nat) : Expanding Unit := do
  let method ← number 8
  if !isHeader method (← number 8) then throw .corrupt
  blocks limit limit
  align
  if (← stored) ≠ checksum (← get).output then throw .corrupt

/-- What compressed bytes expand to, up to `room` bytes; nothing if they are corrupt. -/
def expand? (room : Nat) (bytes : List UInt8) : Option (Array UInt8) :=
  match (whole (8 * bytes.length + 1)).run ⟨[], bytes, #[], room⟩ with
  | .ok _ e => some e.output
  | .error .corrupt _ => none
  | .error _ e => some e.output

end Postmortem.Compression.Zlib
