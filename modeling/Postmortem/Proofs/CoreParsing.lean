/-
Postmortem/Proofs/CoreParsing.lean

Reading a core file undoes writing it.

The header and the entries of the table behind it are records, read field by field
(`parse_data`, `segments_data`); the places that they tell are those where the parts of
the file were put, since every size in front of a part is known.  The notes are read
as they were written, and so is the file as a whole (`ofData_data`).

The memory is told by the programs alone.  They capture the addresses of the bytes
that were kept, no address twice, and the byte at each of them is the one that was
written (`holds_core`); so a read gathers them, whatever segments it meets.

Main result: `parse_encode`.
-/
import Postmortem.Proofs.CoreMemory
import Postmortem.Proofs.CoreNotes

namespace Postmortem

namespace CoreImage

variable {image : CoreImage}

/-! ### The header and the table -/

theorem length_header (image : CoreImage) : image.header.bytes.length = 64 := by
  rw [Record.length_bytes]
  simp [header, Record.size]

theorem length_placed (offset : ℕ) (loads : List Load) :
    (placed offset loads).length = loads.length := by
  induction loads generalizing offset with
  | nil => rfl
  | cons l loads ih => rw [placed, List.length_cons, ih, List.length_cons]

theorem length_programs (image : CoreImage) : image.programs.length = 1 + image.loads.length := by
  rw [programs, List.length_cons, List.length_map, placedLoads, length_placed, Nat.add_comm]

theorem Program.length_record (p : Program) : p.record.bytes.length = 56 := Record.length_bytes _

theorem length_programTable (image : CoreImage) :
    (image.programs.flatMap (·.record.bytes)).length = 56 * (1 + image.loads.length) := by
  rw [length_table Program.length_record, length_programs, Nat.mul_comm]

/-- The header as it is read. -/
def readHeader (image : CoreImage) : Elf.Header where
  encoding := ⟨true, .little⟩
  type := 4
  machine := image.machine.number.toNat
  programOffset := 64
  programEntrySize := 56
  programCount := 1 + image.loads.length
  sectionOffset := 0
  sectionEntrySize := 0
  sectionCount := 0
  namesIndex := 0

theorem parse_data (himage : image.Encodable) :
    Elf.Header.parse image.data true = .ok image.readHeader := by
  have hslice : image.data.slice? 0 64 = some image.header.bytes := by
    have hpart := slice?_append [] image.header.bytes
      (image.programs.flatMap (·.record.bytes) ++ (image.noteBytes ++
        image.loads.flatMap Load.bytes))
    rw [length_header, List.nil_append, ← List.append_assoc, ← List.append_assoc] at hpart
    exact hpart
  have hcount := himage.loads_lt
  have hencoding : Elf.encodingOf true image.header.bytes = some ⟨true, .little⟩ := rfl
  rw [Elf.Header.parse, show Elf.headerSize true = 64 from rfl, hslice]
  dsimp only
  rw [hencoding]
  simp only [Elf.Encoding.pick, if_true, readHeader, Except.ok.injEq, Elf.Header.mk.injEq, true_and]
  and_intros
  · exact Record.field_bytes rfl (by decide)
  · exact Record.field_bytes rfl image.machine.number.toNat_lt
  · exact Record.field_bytes rfl (by decide)
  · exact Record.field_bytes rfl (by decide)
  · exact Record.field_bytes rfl (by omega)
  -- There are no sections: what tells of them is zero.
  all_goals exact Record.field_bytes rfl (by decide)

/-! ### Programs -/

/-- The places in the file are numbers of eight bytes. -/
structure Program.Fits (p : Program) : Prop where
  offset_lt : p.offset < 2 ^ 64
  fileSize_lt : p.fileSize < 2 ^ 64

theorem Program.ofRecord_record {p : Program} (hp : p.Fits) :
    Elf.Segment.ofRecord ⟨true, .little⟩ p.record.bytes = p.segment := by
  have hoffset := hp.offset_lt
  have hfileSize := hp.fileSize_lt
  simp only [Elf.Segment.ofRecord, segment, Elf.Encoding.pick, if_true, Elf.Segment.mk.injEq]
  and_intros
  · exact Record.field_bytes rfl p.type.toNat_lt
  · exact Record.field_bytes rfl (by omega)
  · exact Record.field_bytes rfl p.address.toNat_lt
  · exact Record.field_bytes rfl (by omega)
  · exact Record.field_bytes rfl p.align.toNat_lt

/-- A part of the memory is behind those before it. -/
theorem exists_of_mem_placed {offset place : ℕ} {l : Load} {loads : List Load}
    (hmem : (place, l) ∈ placed offset loads) :
    ∃ before after, loads = before ++ l :: after ∧
      place = offset + (before.flatMap Load.bytes).length := by
  induction loads generalizing offset with
  | nil => cases hmem
  | cons m loads ih =>
    rcases List.mem_cons.mp hmem with heq | hmem
    · cases heq
      exact ⟨[], loads, rfl, rfl⟩
    · obtain ⟨before, after, rfl, rfl⟩ := ih hmem
      refine ⟨m :: before, after, rfl, ?_⟩
      rw [List.flatMap_cons, List.length_append, Nat.add_assoc]

theorem length_encode (image : CoreImage) :
    image.encode.length = image.notesOffset + image.noteBytes.length +
      (image.loads.flatMap Load.bytes).length := by
  rw [encode, List.length_append, List.length_append, List.length_append, length_header,
    length_programTable, notesOffset]

theorem fits_of_mem_programs (himage : image.Encodable) {p : Program}
    (hp : p ∈ image.programs) : p.Fits := by
  have hlt := himage.encode_lt
  rw [length_encode] at hlt
  rcases List.mem_cons.mp hp with rfl | hp
  · exact ⟨by dsimp only [notesProgram]; omega, by dsimp only [notesProgram]; omega⟩
  · obtain ⟨⟨place, l⟩, hl, rfl⟩ := List.mem_map.mp hp
    obtain ⟨before, after, hloads, rfl⟩ := exists_of_mem_placed hl
    rw [hloads, List.flatMap_append, List.flatMap_cons, List.length_append, List.length_append]
      at hlt
    exact ⟨by dsimp only [Load.program]; omega, by dsimp only [Load.program]; omega⟩

/-- The programs are read as they were written. -/
theorem segments_data (himage : image.Encodable) :
    Elf.segments image.data image.readHeader = .ok (image.programs.map Program.segment) := by
  have hslice : image.data.slice? 64 ((1 + image.loads.length) * 56) =
      some (image.programs.flatMap (·.record.bytes)) := by
    have hpart := slice?_append image.header.bytes (image.programs.flatMap (·.record.bytes))
      (image.noteBytes ++ image.loads.flatMap Load.bytes)
    rw [length_header, length_programTable, Nat.mul_comm, ← List.append_assoc] at hpart
    exact hpart
  have hlt := himage.loads_lt
  have hcount : Elf.programCount image.data image.readHeader = .ok (1 + image.loads.length) :=
    if_pos (show 1 + image.loads.length < 0xffff by omega)
  have hread : (image.programs.map (·.record.bytes)).map (Elf.Segment.ofRecord ⟨true, .little⟩) =
      image.programs.map Program.segment := by
    rw [List.map_map]
    exact List.map_congr_left fun p hp => Program.ofRecord_record (fits_of_mem_programs himage hp)
  have htable : image.data.slice? image.readHeader.programOffset
      ((1 + image.loads.length) * Elf.Segment.entrySize image.readHeader.encoding.is64) =
      some (image.programs.flatMap (·.record.bytes)) := hslice
  have hne : 1 + image.loads.length ≠ 0 := by omega
  have hoffset : image.readHeader.programOffset ≠ 0 := (by decide : (64 : ℕ) ≠ 0)
  have hsize : ¬ image.readHeader.programEntrySize ≠
      Elf.Segment.entrySize image.readHeader.encoding.is64 := fun hne => hne rfl
  rw [Elf.segments, if_neg hoffset, hcount]
  dsimp only [bind, Except.bind]
  rw [if_neg hne, if_neg hsize, htable]
  show Except.ok ((recordsOf 56 _).map (Elf.Segment.ofRecord ⟨true, .little⟩)) = Except.ok _
  rw [recordsOf_flatMap Program.length_record (by decide), hread]

/-! ### The file -/

theorem segmentNotes_data (himage : image.Encodable) :
    Elf.segmentNotes image.data .little image.notesProgram.segment = image.notes.map .ok := by
  have hslice : image.data.slice? image.notesOffset image.noteBytes.length =
      some image.noteBytes := by
    have hpart := slice?_append (image.header.bytes ++ image.programs.flatMap (·.record.bytes))
      image.noteBytes (image.loads.flatMap Load.bytes)
    rw [List.length_append, length_header, length_programTable] at hpart
    exact hpart
  have hnotes : image.data.slice? image.notesProgram.segment.offset
      image.notesProgram.segment.fileSize = some image.noteBytes := hslice
  rw [Elf.segmentNotes, hnotes]
  exact Elf.notes_flatMap_encode fun n hn => fits_of_mem_notes himage hn

/-- What is read of the file of an image. -/
def core (image : CoreImage) (path : String) : Core where
  path := path
  architecture := image.machine.architecture
  threads := image.threads.mapIdx fun i t => t.info image.machine i
  mappings := image.files.map (·.mapping image.pageSize)
  data := image.data
  segments := image.placedLoads.map fun l => (l.2.program l.1).segment

theorem ofData_data (himage : image.Encodable) (path : String) :
    Core.ofData path image.data = .ok (image.core path) := by
  have harchitecture : Core.architectureOf image.readHeader.machine =
      .ok image.machine.architecture := by
    show Core.architectureOf image.machine.number.toNat = _
    cases image.machine <;> rfl
  have hnotes : (image.programs.map Program.segment).filter Elf.Segment.isNotes =
      [image.notesProgram.segment] := by
    rw [programs, List.map_cons, List.filter_cons_of_pos rfl, List.map_map,
      List.filter_eq_nil_iff.mpr]
    intro s hs
    obtain ⟨l, -, rfl⟩ := List.mem_map.mp hs
    exact Bool.false_ne_true
  have hloads : (image.programs.map Program.segment).filter Elf.Segment.isLoad =
      image.placedLoads.map fun l => (l.2.program l.1).segment := by
    rw [programs, List.map_cons, List.filter_cons_of_neg Bool.false_ne_true, List.map_map,
      List.filter_eq_self.mpr]
    · rfl
    · intro s hs
      obtain ⟨l, -, rfl⟩ := List.mem_map.mp hs
      rfl
  have htype : ¬ image.readHeader.type ≠ Elf.coreType := fun hne => hne rfl
  have horder : image.readHeader.encoding.order = .little := rfl
  rw [Core.ofData, parse_data himage]
  dsimp only [bind, Except.bind]
  rw [if_neg htype, harchitecture]
  dsimp only
  rw [segments_data himage]
  dsimp only
  rw [hnotes, hloads, horder, List.flatMap_singleton, segmentNotes_data himage,
    gather_notes himage]
  rfl

/-! ### Memory -/

theorem map_snd_placed (offset : ℕ) (loads : List Load) :
    (placed offset loads).map Prod.snd = loads := by
  induction loads generalizing offset with
  | nil => rfl
  | cons l loads ih => rw [placed, List.map_cons, ih]

theorem captures_program {l : Load} {place a : ℕ} :
    (l.program place).segment.captures a = true ↔ a ∈ l.range := by
  rw [Load.range, Set.mem_Ico, Elf.Segment.captures, Bool.and_eq_true, decide_eq_true_eq,
    decide_eq_true_eq]
  show l.address.toNat ≤ a ∧ a - l.address.toNat < l.bytes.length ↔ _
  omega

theorem apart_segments (himage : image.Encodable) (path : String) :
    (image.core path).segments.Pairwise Elf.Segment.Apart := by
  have hdisjoint := himage.disjoint
  rw [← map_snd_placed (image.notesOffset + image.noteBytes.length) image.loads, List.pairwise_map]
    at hdisjoint
  refine List.pairwise_map.mpr (hdisjoint.imp ?_)
  intro l l' hranges a ⟨ha, ha'⟩
  exact Set.disjoint_left.mp hranges (captures_program.mp ha) (captures_program.mp ha')

/-- The file has the bytes of a part of the memory where its program says. -/
theorem getElem?_data {place : ℕ} {l : Load} (hl : (place, l) ∈ image.placedLoads) {i : ℕ}
    (hi : i < l.bytes.length) : image.data[place + i]? = some l.bytes[i] := by
  obtain ⟨before, after, hloads, rfl⟩ := exists_of_mem_placed hl
  have hdata : image.encode = (image.header.bytes ++ image.programs.flatMap (·.record.bytes) ++
      image.noteBytes ++ before.flatMap Load.bytes) ++ (l.bytes ++ after.flatMap Load.bytes) := by
    rw [encode, hloads, List.flatMap_append, List.flatMap_cons, ← List.append_assoc]
  have hplace : (image.header.bytes ++ image.programs.flatMap (·.record.bytes) ++
      image.noteBytes ++ before.flatMap Load.bytes).length =
        image.notesOffset + image.noteBytes.length + (before.flatMap Load.bytes).length := by
    rw [List.length_append, List.length_append, List.length_append, length_header,
      length_programTable, notesOffset]
  rw [data, List.getElem?_toArray, hdata, List.getElem?_append_right (by omega), hplace,
    Nat.add_sub_cancel_left, List.getElem?_append_left hi, List.getElem?_eq_getElem hi]

theorem holds_core {l : Load} (hl : l ∈ image.loads) {i : ℕ} (hi : i < l.bytes.length)
    (path : String) : (image.core path).Holds (l.address.toNat + i) l.bytes[i] := by
  obtain ⟨place, hplaced⟩ : ∃ place, (place, l) ∈ image.placedLoads := by
    rw [← map_snd_placed (image.notesOffset + image.noteBytes.length) image.loads] at hl
    obtain ⟨⟨place, l⟩, hmem, rfl⟩ := List.mem_map.mp hl
    exact ⟨place, hmem⟩
  refine ⟨(l.program place).segment, List.mem_map_of_mem hplaced, ?_, ?_⟩
  · rw [captures_program, Load.range, Set.mem_Ico]
    omega
  · show image.data[place + (l.address.toNat + i - l.address.toNat)]? = _
    rw [Nat.add_sub_cancel_left]
    exact getElem?_data hplaced hi

/-- A part of the bytes that were kept is read at its addresses. -/
theorem read_core (himage : image.Encodable) {l : Load} (hl : l ∈ image.loads) {start length : ℕ}
    (hle : start + length ≤ l.bytes.length) (path : String) :
    (image.core path).read (l.address.toNat + start) length =
      some ((l.bytes.drop start).take length) := by
  rw [Core.read_eq_some_iff (apart_segments himage path), List.forall₂_iff_get]
  refine ⟨by simp; omega, ?_⟩
  intro i hi hi'
  rw [List.length_range'] at hi
  simp only [List.get_eq_getElem, List.getElem_range', Nat.one_mul, List.getElem_take,
    List.getElem_drop, Nat.add_assoc]
  exact holds_core hl (by omega) path

theorem fetch_core (himage : image.Encodable) {l : Load} (hl : l ∈ image.loads) {start length : ℕ}
    (hle : start + length ≤ l.bytes.length) (hlength : length ≤ maxReadBytes) (path : String) :
    (image.core path).fetch ⟨l.address + .ofNat start⟩ length =
      some ((l.bytes.drop start).take length) := by
  have hbelow := himage.addresses l hl
  have haddress : (l.address + .ofNat start).toNat = l.address.toNat + start := by
    have hstart : start < UInt64.size := by
      simp only [UInt64.size]
      omega
    rw [UInt64.toNat_add, UInt64.toNat_ofNat_of_lt' hstart, Nat.mod_eq_of_lt (by omega)]
  rw [Core.fetch, if_neg (by omega), haddress]
  exact read_core himage hl hle path

end CoreImage

/-- The answers to requests for so many bytes each, one behind the other. -/
def Core.fetchAll (c : Core) : Address → List ℕ → Option (List UInt8)
  | _, [] => some []
  | a, n :: lengths =>
    (c.fetch a n).bind fun bytes => (c.fetchAll (a.add (.ofNat n)) lengths).map (bytes ++ ·)

namespace CoreImage

variable {image : CoreImage}

theorem fetchAll_core (himage : image.Encodable) {l : Load} (hl : l ∈ image.loads) {start : ℕ}
    {lengths : List ℕ} (hlengths : ∀ n ∈ lengths, n ≤ maxReadBytes)
    (hle : start + lengths.sum ≤ l.bytes.length) (path : String) :
    (image.core path).fetchAll ⟨l.address + .ofNat start⟩ lengths =
      some ((l.bytes.drop start).take lengths.sum) := by
  induction lengths generalizing start with
  | nil => rfl
  | cons n lengths ih =>
    rw [List.sum_cons] at hle ⊢
    have hnext : (⟨l.address + .ofNat start⟩ : Address).add (.ofNat n) =
        ⟨l.address + .ofNat (start + n)⟩ := by
      rw [Address.add, UInt64.ofNat_add, UInt64.add_assoc]
    have hrest := ih (fun k hk => hlengths k (List.mem_cons_of_mem _ hk))
      (show start + n + lengths.sum ≤ l.bytes.length by omega)
    rw [Core.fetchAll, fetch_core himage hl (by omega) (hlengths n List.mem_cons_self), hnext,
      hrest, List.take_add, List.drop_drop]
    rfl

/-- A core file that was written is read, and what is read is what was written: the threads in
order, the mapped files in order, and the memory.  Any part of the bytes of a segment is read at its
addresses: by one request, if it is not larger than requests may be, and by several requests one
behind the other, however the part is divided among them. -/
theorem parse_encode (himage : image.Encodable) (path : String) :
    ∃ c, Core.parse path image.data = .ok c ∧
      c.architecture = image.machine.architecture ∧
      c.threads = image.threads.mapIdx (fun i t => t.info image.machine i) ∧
      c.mappings = image.files.map (·.mapping image.pageSize) ∧
      ∀ l ∈ image.loads, ∀ start,
        (∀ length ≤ maxReadBytes, start + length ≤ l.bytes.length →
          c.fetch ⟨l.address + .ofNat start⟩ length = some ((l.bytes.drop start).take length)) ∧
        ∀ lengths : List ℕ, (∀ n ∈ lengths, n ≤ maxReadBytes) →
          start + lengths.sum ≤ l.bytes.length →
          c.fetchAll ⟨l.address + .ofNat start⟩ lengths =
            some ((l.bytes.drop start).take lengths.sum) := by
  refine ⟨image.core path, ?_, rfl, rfl, rfl, ?_⟩
  · rw [Core.parse, ofData_data himage]
  · intro l hl start
    constructor
    · intro length hlength hle
      exact fetch_core himage hl hle hlength path
    · intro lengths hlengths hle
      exact fetchAll_core himage hl hlengths hle path

/-- Two threads, of which a signal stopped the first, with the note of a mapped file between them;
and two parts of the memory that meet, the later one first. -/
def twoThreads : CoreImage where
  machine := .arm64
  threads := [⟨4242, 11, 0x401000, 0x7ff00000, 0x7ff00010⟩, ⟨4243, 0, 0x402000, 0x7fe00000, 0⟩]
  pageSize := 0x1000
  files := [⟨0x400000, 0x405000, 2, "/usr/bin/é"⟩]
  filesPlace := 1
  loads := [⟨0x7ff00003, [4, 5], 0x80⟩, ⟨0x7ff00000, [1, 2, 3], 3⟩]

theorem parse_encode_twoThreads :
    twoThreads.Encodable ∧ ∃ c, Core.parse "sample.core" twoThreads.data = .ok c ∧
      c.threads = [
        ⟨0, 4242, some 11, ⟨.arm64, ⟨0x401000⟩, ⟨0x7ff00000⟩, ⟨0x7ff00010⟩⟩⟩,
        ⟨1, 4243, none, ⟨.arm64, ⟨0x402000⟩, ⟨0x7fe00000⟩, ⟨0⟩⟩⟩] ∧
      c.mappings = [⟨⟨0x400000⟩, ⟨0x405000⟩, 0x2000, "/usr/bin/é"⟩] ∧
      c.fetch ⟨0x7ff00001⟩ 2 = some [2, 3] := by
  have himage : twoThreads.Encodable := by
    constructor
    · decide +kernel
    · decide +kernel
    · decide +kernel
    · decide +kernel
    · refine .cons ?_ (List.pairwise_singleton _ _)
      intro l hl
      cases List.mem_singleton.mp hl
      exact Set.Ico_disjoint_Ico.mpr (by decide)
    · decide +kernel
    · decide +kernel
  obtain ⟨c, hc, -, hthreads, hmappings, hmemory⟩ := parse_encode himage "sample.core"
  have hread := (hmemory _ (.tail _ (.head _)) 1).1 2 (by decide) (by decide)
  exact ⟨himage, c, hc, hthreads, hmappings, hread⟩

end CoreImage

end Postmortem
