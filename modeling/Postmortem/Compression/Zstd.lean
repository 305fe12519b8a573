/-
Postmortem/Compression/Zstd.lean

Compressed data in frames.

A frame has a header and blocks; a block holds bytes as they are, one byte
many times, or literals and sequences.  Codes and distances are kept from one
block of a frame to the next.  Frames stand one after the other, and some are
only passed.
-/
import Postmortem.Compression.Literals
import Postmortem.Compression.Sequences

namespace Postmortem.Compression.Zstd

/-- A number of some bytes, lowest first. -/
def numberOf (bytes : List UInt8) : Nat := bytes.foldr (fun b n => b.toNat + 256 * n) 0

/-- Takes a number of so many bytes from the front. -/
def take? (count : Nat) (bytes : List UInt8) : Option (Nat × List UInt8) :=
  if count ≤ bytes.length then some (numberOf (bytes.take count), bytes.drop count) else none

/-! ### Blocks -/

/-- What is kept from one block to the next. -/
structure Progress where
  output : Array UInt8
  literalCode : Option PrefixCode
  sequenceCodes : Option SequenceCodes
  distances : Sequence.Distances

/-- The progress before the first block. -/
def Progress.start : Progress := ⟨#[], none, none, .start⟩

/-- Writes again what was written `distance` bytes ago, and what follows it. -/
def repeated (distance : Nat) : Nat → Array UInt8 → Array UInt8
  | 0, output => output
  | count + 1, output =>
    repeated distance count (output.push (output.getD (output.size - distance) 0))

/-- Follows sequences, and writes the literals that are left over. -/
def follow? : List Sequence → List UInt8 → Sequence.Distances → Array UInt8 →
    Option (Array UInt8 × Sequence.Distances)
  | [], literals, d, output => some (output ++ literals, d)
  | s :: rest, literals, d, output => do
    guard (s.literals ≤ literals.length)
    let output := output ++ literals.take s.literals
    let d := s.distances d
    guard (0 < d.first ∧ d.first ≤ output.size)
    follow? rest (literals.drop s.literals) d (repeated d.first s.length output)

/-- A block of literals and sequences. -/
def compressed? (p : Progress) (bytes : List UInt8) : Option Progress := do
  let (literals, literalCode, bytes) ← Literals.read? p.literalCode bytes
  let (sequences, sequenceCodes) ← Sequence.read? p.sequenceCodes bytes
  let (output, distances) ← follow? sequences literals p.distances p.output
  pure ⟨output, literalCode, sequenceCodes, distances⟩

/-- No block is larger than this. -/
def maxBlock : Nat := 128 * 1024

/-- A block of a kind, of so many bytes, and what stands behind it. -/
def block? (kind size : Nat) (p : Progress) (bytes : List UInt8) :
    Option (Progress × List UInt8) := do
  guard (size ≤ maxBlock)
  match kind with
  | 0 =>
    guard (size ≤ bytes.length)
    pure ({ p with output := p.output ++ bytes.take size }, bytes.drop size)
  | 1 =>
    match bytes with
    | [] => none
    | b :: rest => pure ({ p with output := p.output ++ List.replicate size b }, rest)
  | 2 =>
    guard (size ≤ bytes.length)
    pure (← compressed? p (bytes.take size), bytes.drop size)
  | _ => none

/-- The blocks up to the last one; at most `limit` of them. -/
def blocks? : Nat → Progress → List UInt8 → Option (Progress × List UInt8)
  | 0, _, _ => none
  | limit + 1, p, bytes => do
    let (head, bytes) ← take? 3 bytes
    let (p, bytes) ← block? (head / 2 % 4) (head / 8) p bytes
    if head % 2 = 1 then pure (p, bytes) else blocks? limit p bytes

/-! ### Frames -/

/-- No frame needs more bytes of what was written before than this. -/
def maxWindow : Nat := 100 * 1024 * 1024

/-- The largest window that a header can tell. -/
def windowOf (descriptor : Nat) : Nat :=
  let base := (1 : Nat) <<< (10 + descriptor / 8)
  base + base / 8 * (descriptor % 8)

/-- The size of a frame of a kind, and how many bytes tell it. -/
def sizeWidth (descriptor : Nat) : Nat :=
  match descriptor / 64 with
  | 0 => if descriptor.testBit 5 then 1 else 0
  | kind => 1 <<< kind

/-- How many bytes tell the dictionary. -/
def dictionaryWidth (descriptor : Nat) : Nat :=
  match descriptor % 4 with
  | 3 => 4
  | n => n

/-- What stands behind the header of a frame, if the frame can be expanded, and whether a checksum
follows the frame. -/
def header? (bytes : List UInt8) : Option (Bool × List UInt8) := do
  let (descriptor, bytes) ← take? 1 bytes
  let isSingle := descriptor.testBit 5
  let (window, bytes) ← take? (if isSingle then 0 else 1) bytes
  let (dictionary, bytes) ← take? (dictionaryWidth descriptor) bytes
  let (size, bytes) ← take? (sizeWidth descriptor) bytes
  guard (dictionary = 0 ∧ (if isSingle then size else windowOf window) ≤ maxWindow)
  pure (descriptor.testBit 2, bytes)

/-- The mark of a frame. -/
def mark : Nat := 0xfd2fb528

/-- The first of the sixteen marks of frames that are passed. -/
def passedMark : Nat := 0x184d2a50

/-- What a frame expands to, and what stands behind it. -/
def frame? (bytes : List UInt8) : Option (Array UInt8 × List UInt8) := do
  let (found, bytes) ← take? 4 bytes
  if found / 16 = passedMark / 16 then
    let (size, bytes) ← take? 4 bytes
    guard (size ≤ bytes.length)
    pure (#[], bytes.drop size)
  else
    guard (found = mark)
    let (hasChecksum, bytes) ← header? bytes
    let (p, bytes) ← blocks? bytes.length .start bytes
    let (_, bytes) ← take? (if hasChecksum then 4 else 0) bytes
    pure (p.output, bytes)

/-- What frames expand to, behind what was expanded before; at most `limit` of them. -/
def expandFrom? : Nat → Array UInt8 → List UInt8 → Option (Array UInt8)
  | _, output, [] => some output
  | 0, _, _ => none
  | limit + 1, output, bytes => do
    let (found, rest) ← frame? bytes
    expandFrom? limit (output ++ found) rest

/-- What compressed bytes expand to; nothing if they are corrupt. -/
def expand? (bytes : List UInt8) : Option (Array UInt8) := expandFrom? bytes.length #[] bytes

end Postmortem.Compression.Zstd
