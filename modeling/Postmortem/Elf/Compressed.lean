/-
Postmortem/Elf/Compressed.lean

Sections that are stored compressed.

A flag says that a section is compressed; then a header in front of it tells
the method and how many bytes it expands to.  An older form has no flag: the
name of the section marks it, and its header begins with the method's name.
A section must expand to just as many bytes as its header tells.
-/
import Postmortem.Compression.Zlib
import Postmortem.Compression.Zstd
import Postmortem.Elf.Header

namespace Postmortem.Elf

open Compression

/-- How the bytes of a section are stored. -/
inductive Method where
  | plain
  | zlib
  | zstd
  deriving DecidableEq

/-- Where the bytes of a section are, and how they are stored. -/
structure Stored where
  method : Method
  offset : Nat
  size : Nat
  /-- How many bytes they expand to. -/
  expandedSize : Nat

namespace Stored

/-! ### Headers -/

/-- The method of a number. -/
def methodOf : Nat → Option Method
  | 1 => some .zlib
  | 2 => some .zstd
  | _ => none

/-- What the header of a section with the flag tells. -/
def ofFlagged (d : FileData) (e : Encoding) (s : Section) : Except ElfFault Stored := do
  let headerSize := if e.is64 then 24 else 12
  match s.fileRange? with
  | none => throw .compressedSectionType
  | some (offset, size) =>
    match d.slice? offset headerSize with
    | none => throw .compressedHeader
    | some header =>
      if size < headerSize then throw .compressedSize
      match methodOf (e.order.field header 0 4) with
      | none => throw .compressionKind
      | some method =>
        pure ⟨method, offset + headerSize, size - headerSize, e.pick header (4, 4) (8, 8)⟩

/-- How the header of a section with the mark begins. -/
def olderMark : List UInt8 := "ZLIB".toUTF8.toList ++ [0, 0, 0, 0]

/-- What the header of a section with the mark tells. -/
def ofMarked (d : FileData) (s : Section) : Except ElfFault Stored := do
  match s.fileRange? with
  | none => throw .olderSectionType
  | some (offset, size) =>
    match d.slice? offset 8, d.slice? (offset + 8) 4 with
    | none, _ => throw .olderTooShort
    | some mark, told =>
      if mark ≠ olderMark then throw .olderHeader
      match told with
      | none => throw .olderTooShort
      | some told =>
        if size < 12 then throw .olderTooShort
        pure ⟨.zlib, offset + 12, size - 12, ByteOrder.big.number told⟩

/-! ### Bytes -/

/-- No section expands to as many bytes as this. -/
def tooLarge : Nat := 1 <<< 40

/-- What bytes expand to by a method, up to `room` bytes if the method stops there. -/
def expandedBy (room : Nat) (bytes : List UInt8) : Method → Except ElfFault FileData
  | .plain => .ok bytes.toArray
  | .zlib => (Zlib.expand? room bytes).elim (.error .corruptZlib) .ok
  | .zstd => (Zstd.expand? bytes).elim (.error .corruptZstd) .ok

/-- The bytes that are stored. -/
def expanded (d : FileData) (x : Stored) : Except ElfFault FileData := do
  match d.slice? x.offset x.size with
  | none => throw .sectionData
  | some bytes =>
    if x.method ≠ .plain ∧ tooLarge ≤ x.expandedSize then throw .expandedTooLarge
    let found ← expandedBy x.expandedSize bytes x.method
    if found.size ≠ x.expandedSize then throw .expandedSize
    pure found

end Stored

namespace Section

/-- Where the bytes of a section are and how they are stored; `isMarked` tells whether its name
marks it as compressed. -/
def stored (s : Section) (d : FileData) (e : Encoding) (isMarked : Bool) :
    Except ElfFault Stored :=
  if s.isCompressed then Stored.ofFlagged d e s
  else if isMarked then Stored.ofMarked d s
  else
    match s.fileRange? with
    | none => .ok ⟨.plain, 0, 0, 0⟩
    | some (offset, size) => .ok ⟨.plain, offset, size, size⟩

/-- The bytes of a section; `isMarked` tells whether its name marks it as compressed. -/
def expanded (s : Section) (d : FileData) (e : Encoding) (isMarked : Bool) :
    Except ElfFault FileData := do
  (← s.stored d e isMarked).expanded d

end Section

end Postmortem.Elf
