/-
Postmortem/Proofs/CoreImage.lean

Core files as they are written.

A core image says what a process was when it died: its machine, the threads with
their registers, the files that were mapped, the parts of its memory.  `encode` lays
it out as a file: the header, a table of programs, the notes, the bytes of the
memory.  The first program stands for the notes, and each of the others for a part of
the memory (`programs`); where a part is in the file follows from the sizes of those
before it (`placed`).

Offsets, slots and sizes are those of the format, written down here once more; the
reader is not asked.  Not every image can be encoded: the format has room for so many
bytes of a note, and for so many of the file (`Encodable`).
-/
import Mathlib.Order.CompletePartialOrder
import Mathlib.Order.Interval.Set.Disjoint
import Postmortem.Elf.Core
import Postmortem.Proofs.Records
import Postmortem.Proofs.Utf8Codec

namespace Postmortem

/-! ### Notes -/

/-- Bytes, and zeros up to a multiple of four. -/
def aligned (bytes : List UInt8) : List UInt8 :=
  bytes ++ List.replicate ((4 - bytes.length % 4) % 4) 0

/-- What a note starts with: the sizes of name and descriptor, the type. -/
def Elf.Note.header (n : Note) : Record :=
  [⟨4, n.name.length + 1⟩, ⟨4, n.descriptor.length⟩, ⟨4, n.type⟩]

/-- A note as it is written, with a zero behind the name. -/
def Elf.Note.encode (n : Note) : List UInt8 :=
  n.header.bytes ++ aligned (n.name ++ [0]) ++ aligned n.descriptor

namespace CoreImage

/-- The name of the notes that tell of the process: `CORE`. -/
def noteName : List UInt8 := [0x43, 0x4f, 0x52, 0x45]

/-! ### Machines and threads -/

/-- The machines whose registers are known. -/
inductive Machine where
  | x86_64
  | arm64
  deriving DecidableEq

namespace Machine

/-- The number that stands for a machine in a header. -/
def number : Machine → UInt16
  | x86_64 => 62
  | arm64 => 183

def architecture : Machine → Architecture
  | x86_64 => .x86_64
  | arm64 => .arm64

/-- Which of the registers is the program counter. -/
def pcSlot : Machine → ℕ
  | x86_64 => 16
  | arm64 => 32

/-- Which of the registers is the stack pointer. -/
def spSlot : Machine → ℕ
  | x86_64 => 19
  | arm64 => 31

/-- Which of the registers is the frame pointer. -/
def fpSlot : Machine → ℕ
  | x86_64 => 4
  | arm64 => 29

end Machine

/-- A thread, and the signal that stopped it; zero if none did. -/
structure Thread where
  id : UInt32
  signal : UInt16
  pc : UInt64
  sp : UInt64
  fp : UInt64

namespace Thread

/-- What a register holds; those that nobody asks for hold nothing. -/
def register (t : Thread) (m : Machine) (slot : ℕ) : ℕ :=
  if slot = m.pcSlot then t.pc.toNat
  else if slot = m.spSlot then t.sp.toNat
  else if slot = m.fpSlot then t.fp.toNat
  else 0

/-- The state of a thread: the signal, the number of the thread, thirty-five registers. -/
def state (t : Thread) (m : Machine) : Record :=
  [⟨12, 0⟩, ⟨2, t.signal.toNat⟩, ⟨18, 0⟩, ⟨4, t.id.toNat⟩, ⟨76, 0⟩] ++
    (List.range 35).map fun slot => ⟨8, t.register m slot⟩

def note (t : Thread) (m : Machine) : Elf.Note := ⟨noteName, 1, (t.state m).bytes⟩

/-- What is told of the thread at a place. -/
def info (t : Thread) (m : Machine) (index : ℕ) : ThreadInfo where
  index := index
  id := t.id.toUInt64
  stopSignal := if t.signal = 0 then none else some t.signal.toNat
  registers := ⟨m.architecture, ⟨t.pc⟩, ⟨t.sp⟩, ⟨t.fp⟩⟩

end Thread

/-! ### Mapped files and memory -/

/-- A part of a file that was mapped, from a page of it on. -/
structure MappedFile where
  start : UInt64
  stop : UInt64
  page : UInt64
  path : String

namespace MappedFile

def row (f : MappedFile) : Record := [⟨8, f.start.toNat⟩, ⟨8, f.stop.toNat⟩, ⟨8, f.page.toNat⟩]

/-- The path, with a zero behind it. -/
def pathBytes (f : MappedFile) : List UInt8 := Utf8.bytesOf f.path ++ [0]

/-- What is told of the mapped file. -/
def mapping (f : MappedFile) (pageSize : UInt64) : Mapping where
  start := ⟨f.start⟩
  stop := ⟨f.stop⟩
  offset := f.page.toNat * pageSize.toNat
  path := f.path

end MappedFile

/-- A part of the memory, of which the first bytes were kept. -/
structure Load where
  address : UInt64
  bytes : List UInt8
  memorySize : UInt64

/-- The addresses of the bytes that were kept. -/
def Load.range (l : Load) : Set ℕ := Set.Ico l.address.toNat (l.address.toNat + l.bytes.length)

/-! ### Programs -/

/-- An entry of the table behind the header. -/
structure Program where
  type : UInt32
  offset : ℕ
  address : UInt64
  fileSize : ℕ
  memorySize : UInt64
  align : UInt64

namespace Program

/-- The entry as it is written: readable, and at the same physical address. -/
def record (p : Program) : Record :=
  [⟨4, p.type.toNat⟩, ⟨4, 4⟩, ⟨8, p.offset⟩, ⟨8, p.address.toNat⟩, ⟨8, p.address.toNat⟩,
    ⟨8, p.fileSize⟩, ⟨8, p.memorySize.toNat⟩, ⟨8, p.align.toNat⟩]

/-- The entry as it is read. -/
def segment (p : Program) : Elf.Segment :=
  ⟨p.type.toNat, p.offset, p.address.toNat, p.fileSize, p.align.toNat⟩

end Program

/-- The program of a part of the memory whose bytes are at an offset. -/
def Load.program (l : Load) (offset : ℕ) : Program :=
  ⟨1, offset, l.address, l.bytes.length, l.memorySize, 0x1000⟩

/-- The parts of the memory, each with the offset of its bytes when the first ones are at
`offset`. -/
def placed : ℕ → List Load → List (ℕ × Load)
  | _, [] => []
  | offset, l :: loads => (offset, l) :: placed (offset + l.bytes.length) loads

end CoreImage

/-! ### Images -/

open CoreImage in
/-- What a core file is made of. -/
structure CoreImage where
  machine : Machine
  threads : List Thread
  pageSize : UInt64
  files : List MappedFile
  /-- How many notes of threads come before the one of the mapped files. -/
  filesPlace : ℕ
  loads : List Load

namespace CoreImage

variable (image : CoreImage)

/-- What the table of the mapped files starts with: how many there are, and the size of a page. -/
def fileHeader : Record := [⟨8, image.files.length⟩, ⟨8, image.pageSize.toNat⟩]

/-- The table of the mapped files: a row for each, and behind them the paths. -/
def fileTable : List UInt8 :=
  image.fileHeader.bytes ++ image.files.flatMap (·.row.bytes) ++
    image.files.flatMap MappedFile.pathBytes

/-- The notes: one for each thread, and one for the mapped files among them. -/
def notes : List Elf.Note :=
  (image.threads.take image.filesPlace).map (·.note image.machine) ++
    ⟨noteName, 0x46494c45, image.fileTable⟩ ::
      (image.threads.drop image.filesPlace).map (·.note image.machine)

def noteBytes : List UInt8 := image.notes.flatMap Elf.Note.encode

/-- Where the notes start: behind the header and the table. -/
def notesOffset : ℕ := 64 + 56 * (1 + image.loads.length)

/-- The program of the notes. -/
def notesProgram : Program := ⟨4, image.notesOffset, 0, image.noteBytes.length, 0, 4⟩

/-- The parts of the memory, each with the offset of its bytes. -/
def placedLoads : List (ℕ × Load) :=
  placed (image.notesOffset + image.noteBytes.length) image.loads

/-- The table: the notes, and each part of the memory. -/
def programs : List Program :=
  image.notesProgram :: image.placedLoads.map fun l => l.2.program l.1

/-- The header: the mark of the format, 64 bits, low bytes first; a core file; where the table is,
and the sizes of the header, of an entry and of the table.  There are no sections. -/
def header : Record :=
  [⟨1, 0x7f⟩, ⟨1, 0x45⟩, ⟨1, 0x4c⟩, ⟨1, 0x46⟩, ⟨1, 2⟩, ⟨1, 1⟩, ⟨1, 1⟩, ⟨9, 0⟩, ⟨2, 4⟩,
    ⟨2, image.machine.number.toNat⟩, ⟨4, 1⟩, ⟨8, 0⟩, ⟨8, 64⟩, ⟨8, 0⟩, ⟨4, 0⟩, ⟨2, 64⟩, ⟨2, 56⟩,
    ⟨2, 1 + image.loads.length⟩, ⟨2, 0⟩, ⟨2, 0⟩, ⟨2, 0⟩]

/-- The bytes of the file. -/
def encode : List UInt8 :=
  image.header.bytes ++ image.programs.flatMap (·.record.bytes) ++ image.noteBytes ++
    image.loads.flatMap Load.bytes

/-- The contents of the file. -/
def data : FileData := image.encode.toArray

/-- The image is one of a process, and the format has room for it. -/
structure Encodable : Prop where
  /-- No path has a zero in it. -/
  paths : ∀ f ∈ image.files, '\x00' ∉ f.path.toList
  /-- The places in the mapped files are numbers of eight bytes. -/
  offsets : ∀ f ∈ image.files, f.page.toNat * image.pageSize.toNat < 2 ^ 64
  loads_lt : image.loads.length < 65000
  /-- The addresses of the memory are numbers of eight bytes. -/
  addresses : ∀ l ∈ image.loads, l.address.toNat + l.bytes.length < 2 ^ 64
  disjoint : image.loads.Pairwise fun l l' => Disjoint l.range l'.range
  /-- The size of a note is a number of four bytes. -/
  fileTable_lt : image.fileTable.length < 2 ^ 32
  /-- The places in the core file are numbers of eight bytes. -/
  encode_lt : image.encode.length < 2 ^ 64

end CoreImage

end Postmortem
