/-
Postmortem/Elf/Header.lean

The header of an ELF file and the tables it points to.

The header's first bytes tell the class, by which addresses take four or
eight bytes, and the byte order; both hold for the whole file.  A table is a
number of entries of one size at an offset.  Counts that do not fit into the
header stand in the first section's header instead.
-/
import Postmortem.Elf.Data
import Postmortem.Elf.Fault

namespace Postmortem.Elf

/-- How the numbers of a file are written. -/
structure Encoding where
  is64 : Bool
  order : ByteOrder
  deriving DecidableEq

/-- A number at one of two offsets, by class; `wide` numbers take eight bytes in the larger. -/
def Encoding.pick (e : Encoding) (record : List UInt8) (small large : Nat × Nat) : Nat :=
  let place := if e.is64 then large else small
  e.order.field record place.1 place.2

/-! ### The header -/

structure Header where
  encoding : Encoding
  type : Nat
  machine : Nat
  programOffset : Nat
  programEntrySize : Nat
  programCount : Nat
  sectionOffset : Nat
  sectionEntrySize : Nat
  sectionCount : Nat
  /-- The section that holds the names of the sections. -/
  namesIndex : Nat

/-- The size of a header. -/
def headerSize (is64 : Bool) : Nat := if is64 then 64 else 52

/-- The byte order that the header's mark tells. -/
def byteOrderOf : UInt8 → Option ByteOrder
  | 1 => some .little
  | 2 => some .big
  | _ => none

/-- The encoding that the first bytes of a header tell, for files of one class. -/
def encodingOf (is64 : Bool) : List UInt8 → Option Encoding
  | 0x7f :: 0x45 :: 0x4c :: 0x46 :: wordClass :: order :: version :: _ =>
    if wordClass = (if is64 then 2 else 1) ∧ version = 1 then
      (byteOrderOf order).map (⟨is64, ·⟩)
    else none
  | _ => none

/-- The header of a file of one class. -/
def Header.parse (d : FileData) (is64 : Bool) : Except ElfFault Header :=
  match d.slice? 0 (headerSize is64) with
  | none => .error .truncatedHeader
  | some record =>
    match encodingOf is64 record with
    | none => .error .unsupportedHeader
    | some e =>
      .ok {
        encoding := e
        type := e.order.field record 16 2
        machine := e.order.field record 18 2
        programOffset := e.pick record (28, 4) (32, 8)
        programEntrySize := e.pick record (42, 2) (54, 2)
        programCount := e.pick record (44, 2) (56, 2)
        sectionOffset := e.pick record (32, 4) (40, 8)
        sectionEntrySize := e.pick record (46, 2) (58, 2)
        sectionCount := e.pick record (48, 2) (60, 2)
        namesIndex := e.pick record (50, 2) (62, 2) }

/-! ### Sections -/

/-- An entry of the section table. -/
structure Section where
  name : Nat
  type : Nat
  flags : Nat
  address : Nat
  offset : Nat
  size : Nat
  link : Nat
  info : Nat

namespace Section

/-- The size of an entry. -/
def entrySize (is64 : Bool) : Nat := if is64 then 64 else 40

def ofRecord (e : Encoding) (record : List UInt8) : Section where
  name := e.order.field record 0 4
  type := e.order.field record 4 4
  flags := e.pick record (8, 4) (8, 8)
  address := e.pick record (12, 4) (16, 8)
  offset := e.pick record (16, 4) (24, 8)
  size := e.pick record (20, 4) (32, 8)
  link := e.pick record (24, 4) (40, 4)
  info := e.pick record (28, 4) (44, 4)

def symbolTableType : Nat := 2
def stringTableType : Nat := 3
def addedRelocationsType : Nat := 4
def noBitsType : Nat := 8
def relocationsType : Nat := 9
def dynamicSymbolsType : Nat := 11
def extendedIndexesType : Nat := 18
def compactRelocationsType : Nat := 0x40000014

/-- Whether the section takes no place in the file. -/
def isNoBits (s : Section) : Bool := s.type == noBitsType

def isThreadLocal (s : Section) : Bool := s.flags.testBit 10

def isCompressed (s : Section) : Bool := s.flags.testBit 11

def isRelocations (s : Section) : Bool :=
  s.type == relocationsType || s.type == addedRelocationsType
    || s.type == compactRelocationsType

/-- Where the section is in the file. -/
def fileRange? (s : Section) : Option (Nat × Nat) :=
  if s.isNoBits then none else some (s.offset, s.size)

/-- The bytes of the section; none if they are not all in the file. -/
def data? (s : Section) (d : FileData) : Option (List UInt8) :=
  match s.fileRange? with
  | none => some []
  | some (offset, size) => d.slice? offset size

end Section

/-- The header of the first section, if there is a section table. -/
def firstSection? (d : FileData) (h : Header) : Except ElfFault (Option Section) :=
  if h.sectionOffset = 0 then .ok none
  else if h.sectionEntrySize ≠ Section.entrySize h.encoding.is64 then .error .sectionEntrySize
  else
    match d.slice? h.sectionOffset (Section.entrySize h.encoding.is64) with
    | none => .error .firstSection
    | some record => .ok (some (.ofRecord h.encoding record))

/-- The number of sections; a zero in the header means that the first section has it. -/
def sectionCount (d : FileData) (h : Header) : Except ElfFault Nat := do
  if h.sectionCount ≠ 0 then pure h.sectionCount
  else pure (((← firstSection? d h).map Section.size).getD 0)

/-- The sections of a file. -/
def sections (d : FileData) (h : Header) : Except ElfFault (List Section) := do
  if h.sectionOffset = 0 then pure []
  else
    let count ← sectionCount d h
    if count = 0 then pure []
    else
      let size := Section.entrySize h.encoding.is64
      if h.sectionEntrySize ≠ size then throw .sectionEntrySize
      match d.slice? h.sectionOffset (count * size) with
      | none => throw .sectionTable
      | some bytes => pure ((recordsOf size bytes).map (Section.ofRecord h.encoding))

/-! ### Program headers -/

/-- An entry of the program header table. -/
structure Segment where
  type : Nat
  offset : Nat
  address : Nat
  fileSize : Nat
  align : Nat

namespace Segment

/-- The size of an entry. -/
def entrySize (is64 : Bool) : Nat := if is64 then 56 else 32

def ofRecord (e : Encoding) (record : List UInt8) : Segment where
  type := e.order.field record 0 4
  offset := e.pick record (4, 4) (8, 8)
  address := e.pick record (8, 4) (16, 8)
  fileSize := e.pick record (16, 4) (32, 8)
  align := e.pick record (28, 4) (48, 8)

/-- Whether the segment is memory of the process. -/
def isLoad (s : Segment) : Bool := s.type == 1

/-- Whether the segment holds notes. -/
def isNotes (s : Segment) : Bool := s.type == 4

/-- Whether the byte at an address is in the file. -/
def captures (s : Segment) (address : Nat) : Bool :=
  s.address ≤ address && address - s.address < s.fileSize

theorem lt_of_captures {s : Segment} {address : Nat} (h : s.captures address = true) :
    address - s.address < s.fileSize := by
  simp only [captures, Bool.and_eq_true, decide_eq_true_eq] at h
  exact h.2

end Segment

/-- The number of program headers; the largest number that fits into the header means that the
first section has it. -/
def programCount (d : FileData) (h : Header) : Except ElfFault Nat := do
  if h.programCount < 0xffff then pure h.programCount
  else
    match ← firstSection? d h with
    | some first => pure first.info
    | none => throw .programCount

/-- The program headers of a file. -/
def segments (d : FileData) (h : Header) : Except ElfFault (List Segment) := do
  if h.programOffset = 0 then pure []
  else
    let count ← programCount d h
    if count = 0 then pure []
    else
      let size := Segment.entrySize h.encoding.is64
      if h.programEntrySize ≠ size then throw .programEntrySize
      match d.slice? h.programOffset (count * size) with
      | none => throw .programTable
      | some bytes => pure ((recordsOf size bytes).map (Segment.ofRecord h.encoding))

end Postmortem.Elf
