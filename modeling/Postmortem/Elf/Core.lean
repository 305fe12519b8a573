/-
Postmortem/Elf/Core.lean

Core files.

A core file is what the kernel keeps of a process that died.  Load segments
hold its memory, as much of it as was kept; notes of the name `CORE` hold the
registers of each thread and the table of the files that were mapped.
`Core.read` gathers bytes over the segments, and an address that no segment
captures ends it.
-/
import Postmortem.Elf.Note
import Postmortem.Image
import Postmortem.Text.Utf8
import Postmortem.Thread

namespace Postmortem

/-- A part of a file that was mapped into the process. -/
structure Mapping where
  start : Address
  /-- The first address behind it. -/
  stop : Address
  /-- Where it starts in the file. -/
  offset : Nat
  path : String

def Mapping.contains (m : Mapping) (a : Address) : Bool :=
  m.start.word ≤ a.word && a.word < m.stop.word

namespace Elf

/-! ### Threads -/

/-- Where the registers of a thread's note have the program counter, the stack pointer and the
frame pointer. -/
def registerSlots : Architecture → Option (Nat × Nat × Nat)
  | .x86_64 => some (16, 19, 4)
  | .arm64 => some (32, 31, 29)
  | .unknown _ => none

/-- The number of `width` bytes at an offset of a note; notes store numbers low byte first. -/
def noteField? (descriptor : List UInt8) (offset width : Nat) : Option Nat :=
  ByteOrder.little.field? descriptor offset width

/-- The registers that a thread's note keeps. -/
def registers? (a : Architecture) (descriptor : List UInt8) : Option Registers := do
  let (pc, sp, fp) ← registerSlots a
  let register (slot : Nat) : Option Address :=
    (noteField? descriptor (112 + 8 * slot) 8).map fun n => ⟨UInt64.ofNat n⟩
  pure ⟨a, ← register pc, ← register sp, ← register fp⟩

/-- The thread that a note describes. -/
def thread? (a : Architecture) (index : Nat) (descriptor : List UInt8) : Option ThreadInfo := do
  let registers ← registers? a descriptor
  let id ← noteField? descriptor 32 4
  let signal ← noteField? descriptor 12 2
  pure ⟨index, UInt64.ofNat id, if signal = 0 then none else some signal, registers⟩

/-! ### Mapped files -/

/-- What follows the first zero of `bytes`, if there is one. -/
def afterZero? (bytes : List UInt8) : Option (List UInt8) :=
  (bytes.dropWhile (· != 0)).tail?

/-- A mapping, from a row of the table and the bytes of a path. -/
def Mapping.ofRow (pageSize : Nat) (row path : List UInt8) : Mapping where
  start := ⟨UInt64.ofNat (ByteOrder.little.field row 0 8)⟩
  stop := ⟨UInt64.ofNat (ByteOrder.little.field row 8 8)⟩
  offset := min (ByteOrder.little.field row 16 8 * pageSize) (UInt64.size - 1)
  path := Utf8.decodeLossy path

/-- A mapping for each row; `names` holds their paths, one after the other with zeros between. -/
def mappingsOf (pageSize : Nat) : List (List UInt8) → Option (List UInt8) → Option (List Mapping)
  | [], _ => some []
  | _ :: _, none => none
  | row :: rows, some names =>
    (mappingsOf pageSize rows (afterZero? names)).map
      (Mapping.ofRow pageSize row (names.takeWhile (· != 0)) :: ·)

/-- The mapped files that a note lists: their number, the size of a page, the rows of a table,
the paths. -/
def mappings? (descriptor : List UInt8) : Option (List Mapping) := do
  let count ← noteField? descriptor 0 8
  let pageSize ← noteField? descriptor 8 8
  let table := 24 * count
  if descriptor.length < 16 + table then none
  else
    mappingsOf pageSize (recordsOf 24 ((descriptor.drop 16).take table))
      (some (descriptor.drop (16 + table)))

/-! ### Notes -/

def coreType : Nat := 4
def threadNoteType : Nat := 1
def fileNoteType : Nat := 0x46494c45

/-- What the notes of a core file tell. -/
structure Testimony where
  threads : List ThreadInfo
  mappings : List Mapping

/-- Takes a note in.  A later table of mapped files replaces an earlier one. -/
def Testimony.add (a : Architecture) (t : Testimony) (n : Note) : Except ElfFault Testimony :=
  if n.name ≠ "CORE".toUTF8.toList then .ok t
  else if n.type = threadNoteType then
    match thread? a t.threads.length n.descriptor with
    | some thread => .ok { t with threads := t.threads ++ [thread] }
    | none => .error (.threadNote t.threads.length)
  else if n.type = fileNoteType then
    match mappings? n.descriptor with
    | some mappings => .ok { t with mappings := mappings }
    | none => .error .fileNote
  else .ok t

/-- The notes of a segment, up to the first fault. -/
def segmentNotes (d : FileData) (order : ByteOrder) (s : Segment) : List (Except ElfFault Note) :=
  match d.slice? s.offset s.fileSize with
  | none => [.error .noteSegment]
  | some bytes =>
    match noteAlignment s.align with
    | .error e => [.error e]
    | .ok align => notes order align.1 align.2 bytes

/-- What the notes of all segments tell, unless there is a fault in one of them. -/
def Testimony.gather (a : Architecture) (notes : List (Except ElfFault Note)) :
    Except ElfFault Testimony :=
  notes.foldlM (fun t n => do t.add a (← n)) ⟨[], []⟩

end Elf

/-! ### The file -/

/-- A core file. -/
structure Core where
  path : String
  architecture : Architecture
  threads : List ThreadInfo
  mappings : List Mapping
  data : FileData
  /-- The memory of the process. -/
  segments : List Elf.Segment

namespace Core

open Elf

/-- What a core file ran on. -/
def architectureOf : Nat → Except ElfFault Architecture
  | 62 => .ok .x86_64
  | 183 => .ok .arm64
  | machine => .error (.machine machine)

/-- Reads a core file of the 64-bit class. -/
def ofData (path : String) (d : FileData) : Except ElfFault Core := do
  let header ← Header.parse d true
  if header.type ≠ coreType then throw .notCore
  let architecture ← architectureOf header.machine
  let programs ← Elf.segments d header
  let notes := (programs.filter Segment.isNotes).flatMap (segmentNotes d header.encoding.order)
  let testimony ← Testimony.gather architecture notes
  pure ⟨path, architecture, testimony.threads, testimony.mappings, d,
    programs.filter Segment.isLoad⟩

/-- Reads a core file. -/
def parse (path : String) (d : FileData) : Except Failure Core :=
  match ofData path d with
  | .ok c => .ok c
  | .error e => .error (.target (.core path e))

/-- The mapped file that an address lies in. -/
def mappingFor? (c : Core) (a : Address) : Option Mapping :=
  c.mappings.find? (·.contains a)

/-! ### Memory -/

/-- The bytes of `length` addresses from `cursor` on, over as many segments as it takes. -/
def read (c : Core) (cursor length : Nat) : Option (List UInt8) :=
  if _hl : length = 0 then some []
  else
    match _hs : c.segments.find? (·.captures cursor) with
    | none => none
    | some s => do
      let start := cursor - s.address
      let count := min (s.fileSize - start) length
      let bytes ← c.data.slice? (s.offset + start) count
      pure (bytes ++ (← read c (cursor + count) (length - count)))
termination_by length
decreasing_by
  have hc : s.captures cursor = true := by simpa using List.find?_some _hs
  have := Segment.lt_of_captures hc
  omega

theorem length_read (c : Core) (cursor length : Nat) {bytes : List UInt8}
    (h : c.read cursor length = some bytes) : bytes.length = length := by
  fun_induction c.read cursor length generalizing bytes with
  | case1 => simp only [Option.some.injEq] at h; simp [← h]
  | case2 => cases h
  | case3 =>
    rename_i cursor length _ s _ start count ih
    simp only [Option.bind_eq_bind, Option.bind_eq_some_iff, Option.pure_def,
      Option.some.injEq] at h
    obtain ⟨first, hfirst, rest, hrest, rfl⟩ := h
    have := FileData.length_slice? hfirst
    have := ih hrest
    have := Nat.min_le_right (s.fileSize - start) length
    simp only [List.length_append]
    omega

/-- The bytes from an address on, if all were captured. -/
def fetch (c : Core) (a : Address) (length : Nat) : Option (List UInt8) :=
  if maxReadBytes < length then none else c.read a.word.toNat length

/-- The memory of the process, as the image of a generation. -/
def image (c : Core) (generation : Nat) : Image where
  generation := generation
  fetch := c.fetch
  length_fetch := by
    intro a n bytes h
    unfold fetch at h
    split at h
    · cases h
    · exact length_read c _ _ h

end Core

end Postmortem
