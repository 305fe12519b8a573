/-
Postmortem/Proofs/CoreNotes.lean

Reading the notes of a core file undoes writing them.

A note starts with its sizes, so where its name and its descriptor are follows from
what is written in front of them, with the padding (`first_encode_append`); it ends
where the next one starts, and notes that follow each other are read one by one
(`notes_flatMap_encode`).  What the notes of the process contain is read field by field:
the state of a thread is a record of which the registers are a part at the multiples
of eight (`at?_state`), and the table of the mapped files has as many paths as rows,
each up to its zero (`mappingsOf_rows`).

Main result: `gather_notes`.
-/
import Postmortem.Proofs.CoreImage

namespace Postmortem

open CoreImage

/-! ### Notes -/

theorem length_aligned (bytes : List UInt8) :
    (aligned bytes).length = Elf.padded 4 bytes.length := by
  rw [aligned, List.length_append, List.length_replicate, Elf.padded]
  omega

theorem withoutZeros_append_zero {name : List UInt8} (hname : 0 ∉ name) :
    Elf.withoutZeros (name ++ [0]) = name := by
  have hkeep : name.reverse.dropWhile (· == 0) = name.reverse := by
    cases hreverse : name.reverse with
    | nil => rfl
    | cons b bs =>
      have hb : b ∈ name := by
        rw [← List.mem_reverse, hreverse]
        exact List.mem_cons_self
      have hne : (b == 0) = false := by
        rw [beq_eq_false_iff_ne]
        rintro rfl
        exact hname hb
      rw [List.dropWhile_cons_of_neg (by rw [hne]; decide)]
  rw [Elf.withoutZeros, List.reverse_append, List.reverse_singleton, List.singleton_append,
    List.dropWhile_cons_of_pos rfl, hkeep, List.reverse_reverse]

namespace Elf

theorem le_padded (n : ℕ) : n ≤ padded 4 n := by
  unfold padded
  omega

theorem padded_add {m n : ℕ} (hm : m % 4 = 0) : padded 4 (m + n) = m + padded 4 n := by
  unfold padded
  omega

namespace Note

variable {n : Note} {rest : List UInt8}

/-- The format has room for the note, and its name has no zeros. -/
structure Fits (n : Note) : Prop where
  name : 0 ∉ n.name
  name_lt : n.name.length + 1 < 2 ^ 32
  descriptor_lt : n.descriptor.length < 2 ^ 32
  type_lt : n.type < 2 ^ 32

theorem length_header (n : Note) : n.header.bytes.length = 12 := Record.length_bytes _

theorem length_encode (n : Note) :
    n.encode.length = 12 + padded 4 (n.name.length + 1) + padded 4 n.descriptor.length := by
  rw [encode, List.length_append, List.length_append, length_header, length_aligned,
    length_aligned, List.length_append, List.length_singleton]

theorem encode_ne_nil (n : Note) : n.encode ≠ [] := by
  intro hnil
  have hlength := n.length_encode
  rw [hnil, List.length_nil] at hlength
  omega

/-- The name is where the sizes end. -/
theorem take_name_encode :
    ((n.encode ++ rest).drop 12).take (n.name.length + 1) = n.name ++ [0] := by
  have hlength : (n.name ++ [0]).length = n.name.length + 1 := by
    rw [List.length_append, List.length_singleton]
  rw [encode, aligned, List.append_assoc, List.append_assoc, List.append_assoc,
    List.drop_left' n.length_header, List.take_left' hlength]

/-- The descriptor is where the padding of the name ends. -/
theorem take_descriptor_encode :
    ((n.encode ++ rest).drop (12 + padded 4 (n.name.length + 1))).take n.descriptor.length =
      n.descriptor := by
  have hlength : (n.header.bytes ++ aligned (n.name ++ [0])).length =
      12 + padded 4 (n.name.length + 1) := by
    rw [List.length_append, length_header, length_aligned, List.length_append,
      List.length_singleton]
  rw [encode, List.append_assoc, List.drop_left' hlength, aligned, List.append_assoc,
    List.take_left' rfl]

/-- The note in front is the one that was written. -/
theorem first_encode_append (hn : n.Fits) :
    first .little 4 (n.encode ++ rest) = .ok (n, n.encode.length) := by
  have hfield {offset value : ℕ} (hat : n.header.at? offset = some ⟨4, value⟩)
      (hvalue : value < 2 ^ 32) :
      ByteOrder.little.field (n.encode ++ rest) offset 4 = value := by
    rw [encode, List.append_assoc, List.append_assoc]
    exact Record.field_bytes_append hat (by omega)
  have hstart : padded 4 (12 + (n.name.length + 1)) = 12 + padded 4 (n.name.length + 1) :=
    padded_add (by decide)
  have hnext : padded 4 (12 + padded 4 (n.name.length + 1) + n.descriptor.length) =
      n.encode.length := by
    rw [length_encode]
    exact padded_add (by unfold padded; omega)
  have hname := le_padded (n.name.length + 1)
  have hdescriptor := le_padded n.descriptor.length
  have hlength : (n.encode ++ rest).length = 12 + padded 4 (n.name.length + 1) +
      padded 4 n.descriptor.length + rest.length := by
    rw [List.length_append, length_encode]
  rw [first, if_neg (by omega)]
  dsimp only
  rw [hfield rfl hn.name_lt, hfield rfl hn.descriptor_lt, hfield rfl hn.type_lt, hstart,
    if_neg (by omega), if_neg (by omega), take_name_encode, take_descriptor_encode, hnext,
    withoutZeros_append_zero hn.name]

end Note

/-- Notes that follow each other are read one by one. -/
theorem notes_flatMap_encode {ns : List Note} (hns : ∀ n ∈ ns, n.Fits) :
    notes .little 4 (by decide) (ns.flatMap Note.encode) = ns.map .ok := by
  induction ns with
  | nil =>
    rw [List.flatMap_nil, notes, dif_pos rfl]
    rfl
  | cons n ns ih =>
    have hfirst : Note.first .little 4 ((n :: ns).flatMap Note.encode) =
        .ok (n, n.encode.length) := by
      rw [List.flatMap_cons]
      exact Note.first_encode_append (hns n List.mem_cons_self)
    have hne : (n :: ns).flatMap Note.encode ≠ [] := by
      rw [List.flatMap_cons]
      exact List.append_ne_nil_of_left_ne_nil n.encode_ne_nil _
    rw [notes, dif_neg hne]
    split
    case h_1 e herror => cases hfirst.symm.trans herror
    case h_2 n' next hnext =>
      cases hfirst.symm.trans hnext
      rw [List.flatMap_cons, List.drop_left' rfl, ih fun n hn => hns n (List.mem_cons_of_mem _ hn),
        List.map_cons]

end Elf

namespace CoreImage

/-! ### Threads -/

theorem Machine.registerSlots_architecture (m : Machine) :
    Elf.registerSlots m.architecture = some (m.pcSlot, m.spSlot, m.fpSlot) := by
  cases m <;> rfl

namespace Thread

variable {t : Thread} {m : Machine}

/-- The registers stand behind each other from the 112th byte on. -/
theorem at?_state {slot : ℕ} (hslot : slot < 35) :
    (t.state m).at? (112 + 8 * slot) = some ⟨8, t.register m slot⟩ := by
  have hpos : ∀ f ∈ ([⟨12, 0⟩, ⟨2, t.signal.toNat⟩, ⟨18, 0⟩, ⟨4, t.id.toNat⟩, ⟨76, 0⟩] : Record),
      0 < f.width := by
    simp
  rw [state, Record.at?_append hpos (Nat.le_add_right 112 _), List.range_eq_range']
  show Record.at? _ (112 + 8 * slot - 112) = _
  rw [Nat.add_sub_cancel_left, Record.at?_map_range' (by decide) hslot, Nat.zero_add]

theorem register?_state {slot : ℕ} {word : UInt64} (hslot : slot < 35)
    (hword : t.register m slot = word.toNat) :
    (Elf.noteField? (t.state m).bytes (112 + 8 * slot) 8).map
      (fun n => (⟨UInt64.ofNat n⟩ : Address)) = some ⟨word⟩ := by
  have hat := at?_state (t := t) (m := m) hslot
  rw [hword] at hat
  rw [Elf.noteField?, Record.field?_bytes hat word.toNat_lt, Option.map_some, UInt64.ofNat_toNat]

theorem registers?_state :
    Elf.registers? m.architecture (t.state m).bytes =
      some ⟨m.architecture, ⟨t.pc⟩, ⟨t.sp⟩, ⟨t.fp⟩⟩ := by
  have hslots : m.pcSlot < 35 ∧ m.spSlot < 35 ∧ m.fpSlot < 35 := by
    cases m <;> decide
  have hpc : t.register m m.pcSlot = t.pc.toNat := by cases m <;> rfl
  have hsp : t.register m m.spSlot = t.sp.toNat := by cases m <;> rfl
  have hfp : t.register m m.fpSlot = t.fp.toNat := by cases m <;> rfl
  rw [Elf.registers?, m.registerSlots_architecture]
  simp only [Option.bind_eq_bind, Option.bind_some, register?_state hslots.1 hpc,
    register?_state hslots.2.1 hsp, register?_state hslots.2.2 hfp]
  rfl

/-- A thread is read as it was written. -/
theorem thread?_state (index : ℕ) :
    Elf.thread? m.architecture index (t.state m).bytes = some (t.info m index) := by
  have hid : Elf.noteField? (t.state m).bytes 32 4 = some t.id.toNat :=
    Record.field?_bytes rfl t.id.toNat_lt
  have hsignal : Elf.noteField? (t.state m).bytes 12 2 = some t.signal.toNat :=
    Record.field?_bytes rfl t.signal.toNat_lt
  have hzero : t.signal.toNat = 0 ↔ t.signal = 0 := by
    rw [← UInt16.toNat_inj]
    rfl
  rw [Elf.thread?, registers?_state, hid, hsignal]
  simp only [Option.bind_eq_bind, Option.bind_some, hzero, UInt64.ofNat_uInt32ToNat]
  rfl

end Thread

/-! ### Mapped files -/

section

variable {path rest : List UInt8}

theorem ne_zero_of_mem (hpath : 0 ∉ path) : ∀ b ∈ path, (b != 0) = true := by
  intro b hb
  rw [bne_iff_ne]
  rintro rfl
  exact hpath hb

theorem takeWhile_append_zero (hpath : 0 ∉ path) :
    (path ++ 0 :: rest).takeWhile (· != 0) = path := by
  rw [List.takeWhile_append_of_pos (ne_zero_of_mem hpath),
    List.takeWhile_cons_of_neg (by decide), List.append_nil]

theorem afterZero?_append_zero (hpath : 0 ∉ path) :
    Elf.afterZero? (path ++ 0 :: rest) = some rest := by
  rw [Elf.afterZero?, List.dropWhile_append_of_pos (ne_zero_of_mem hpath),
    List.dropWhile_cons_of_neg (by decide)]
  rfl

end

namespace MappedFile

variable {f : MappedFile} {pageSize : UInt64}

theorem length_row (f : MappedFile) : f.row.bytes.length = 24 := Record.length_bytes _

theorem ofRow_row (hoffset : f.page.toNat * pageSize.toNat < 2 ^ 64) :
    Elf.Mapping.ofRow pageSize.toNat f.row.bytes (Utf8.bytesOf f.path) = f.mapping pageSize := by
  have hstart : ByteOrder.little.field f.row.bytes 0 8 = f.start.toNat :=
    Record.field_bytes rfl f.start.toNat_lt
  have hstop : ByteOrder.little.field f.row.bytes 8 8 = f.stop.toNat :=
    Record.field_bytes rfl f.stop.toNat_lt
  have hpage : ByteOrder.little.field f.row.bytes 16 8 = f.page.toNat :=
    Record.field_bytes rfl f.page.toNat_lt
  have hmin : min (f.page.toNat * pageSize.toNat) (UInt64.size - 1) =
      f.page.toNat * pageSize.toNat := by
    rw [Nat.min_eq_left]
    simp only [UInt64.size]
    omega
  rw [Elf.Mapping.ofRow, hstart, hstop, hpage, hmin, UInt64.ofNat_toNat, UInt64.ofNat_toNat,
    Utf8.decodeLossy_bytesOf]
  rfl

end MappedFile

/-- The rows meet their paths. -/
theorem mappingsOf_rows {files : List MappedFile} {pageSize : UInt64}
    (hpaths : ∀ f ∈ files, '\x00' ∉ f.path.toList)
    (hoffsets : ∀ f ∈ files, f.page.toNat * pageSize.toNat < 2 ^ 64) :
    Elf.mappingsOf pageSize.toNat (files.map (·.row.bytes))
      (some (files.flatMap MappedFile.pathBytes)) = some (files.map (·.mapping pageSize)) := by
  induction files with
  | nil => rfl
  | cons f files ih =>
    have hpath := Utf8.zero_not_mem_bytesOf (hpaths f List.mem_cons_self)
    have hrest := ih (fun g hg => hpaths g (List.mem_cons_of_mem _ hg))
      fun g hg => hoffsets g (List.mem_cons_of_mem _ hg)
    have hnames : (f :: files).flatMap MappedFile.pathBytes =
        Utf8.bytesOf f.path ++ 0 :: files.flatMap MappedFile.pathBytes := by
      rw [List.flatMap_cons, MappedFile.pathBytes, List.append_assoc, List.singleton_append]
    rw [hnames, List.map_cons, Elf.mappingsOf, afterZero?_append_zero hpath, hrest,
      takeWhile_append_zero hpath, MappedFile.ofRow_row (hoffsets f List.mem_cons_self)]
    rfl

variable {image : CoreImage}

theorem length_fileHeader (image : CoreImage) : image.fileHeader.bytes.length = 16 :=
  Record.length_bytes _

theorem length_rows (files : List MappedFile) :
    (files.flatMap (·.row.bytes)).length = 24 * files.length := by
  rw [length_table MappedFile.length_row, Nat.mul_comm]

/-- The mapped files are read as they were written. -/
theorem mappings?_fileTable (himage : image.Encodable) :
    Elf.mappings? image.fileTable = some (image.files.map (·.mapping image.pageSize)) := by
  have hlength : image.fileTable.length = 16 + 24 * image.files.length +
      (image.files.flatMap MappedFile.pathBytes).length := by
    rw [fileTable, List.length_append, List.length_append, length_fileHeader, length_rows]
  have hlt := himage.fileTable_lt
  have hcount : Elf.noteField? image.fileTable 0 8 = some image.files.length := by
    rw [fileTable, List.append_assoc]
    exact Record.field?_bytes_append rfl (by omega)
  have hpage : Elf.noteField? image.fileTable 8 8 = some image.pageSize.toNat := by
    rw [fileTable, List.append_assoc]
    exact Record.field?_bytes_append rfl image.pageSize.toNat_lt
  have htable : (image.fileTable.drop 16).take (24 * image.files.length) =
      image.files.flatMap (·.row.bytes) := by
    rw [fileTable, List.append_assoc, List.drop_left' image.length_fileHeader,
      List.take_left' (length_rows _)]
  have hnames : image.fileTable.drop (16 + 24 * image.files.length) =
      image.files.flatMap MappedFile.pathBytes := by
    rw [fileTable, List.drop_left']
    rw [List.length_append, length_fileHeader, length_rows]
  rw [Elf.mappings?, hcount, hpage]
  simp only [Option.bind_eq_bind, Option.bind_some]
  rw [if_neg (by omega), htable, hnames, recordsOf_flatMap MappedFile.length_row (by decide),
    mappingsOf_rows himage.paths himage.offsets]

/-! ### What the notes tell -/

theorem Thread.length_state (t : Thread) (m : Machine) : (t.state m).bytes.length = 392 := by
  rw [Record.length_bytes]
  simp [state, Record.size, Function.comp_def, List.map_const']

theorem fits_note {type : ℕ} {descriptor : List UInt8} (htype : type < 2 ^ 32)
    (hdescriptor : descriptor.length < 2 ^ 32) :
    (⟨noteName, type, descriptor⟩ : Elf.Note).Fits where
  name := (by decide : 0 ∉ noteName)
  name_lt := (by decide : noteName.length + 1 < 2 ^ 32)
  descriptor_lt := hdescriptor
  type_lt := htype

theorem fits_of_mem_notes (himage : image.Encodable) {n : Elf.Note} (hn : n ∈ image.notes) :
    n.Fits := by
  have hthread {threads : List Thread} (hn : n ∈ threads.map (·.note image.machine)) : n.Fits := by
    obtain ⟨t, -, rfl⟩ := List.mem_map.mp hn
    exact fits_note (by decide) (by rw [t.length_state]; decide)
  rcases List.mem_append.mp hn with hn | hn
  · exact hthread hn
  · rcases List.mem_cons.mp hn with rfl | hn
    · exact fits_note (by decide) himage.fileTable_lt
    · exact hthread hn

theorem noteName_eq : noteName = "CORE".toUTF8.toList := by
  decide +kernel

section

open Elf

variable {m : Machine} {told : Testimony}

theorem add_thread (t : Thread) :
    told.add m.architecture (t.note m) =
      .ok { told with threads := told.threads ++ [t.info m told.threads.length] } := by
  have hname : ¬ (t.note m).name ≠ "CORE".toUTF8.toList := fun hne => hne noteName_eq
  have htype : (t.note m).type = threadNoteType := rfl
  have hthread : thread? m.architecture told.threads.length (t.note m).descriptor =
      some (t.info m told.threads.length) := Thread.thread?_state _
  rw [Testimony.add, if_neg hname, if_pos htype, hthread]

/-- Threads are told of in order, each by its place. -/
theorem add_threads (threads : List Thread) :
    (threads.map (·.note m)).foldlM (Testimony.add m.architecture) told =
      .ok { told with
        threads := told.threads ++
          threads.mapIdx fun i t => t.info m (told.threads.length + i) } := by
  induction threads generalizing told with
  | nil =>
    rw [List.mapIdx_nil, List.append_nil]
    rfl
  | cons t threads ih =>
    rw [List.map_cons, List.foldlM_cons, add_thread]
    show List.foldlM _ _ _ = _
    rw [ih, List.mapIdx_cons, List.length_append, List.length_singleton, List.append_assoc]
    simp only [List.singleton_append, Nat.add_zero, Nat.add_assoc, Nat.add_comm 1]

theorem add_files (himage : image.Encodable) :
    told.add m.architecture ⟨noteName, 0x46494c45, image.fileTable⟩ =
      .ok { told with mappings := image.files.map (·.mapping image.pageSize) } := by
  have hname : ¬ noteName ≠ "CORE".toUTF8.toList := fun hne => hne noteName_eq
  have hthread : ¬ 0x46494c45 = threadNoteType := by decide
  have hfiles : 0x46494c45 = fileNoteType := rfl
  rw [Testimony.add, if_neg hname, if_neg hthread, if_pos hfiles]
  dsimp only
  rw [mappings?_fileTable himage]

/-- The notes tell of all threads and all mapped files, wherever the note of the files is. -/
theorem gather_notes (himage : image.Encodable) :
    Testimony.gather image.machine.architecture (image.notes.map .ok) =
      .ok ⟨image.threads.mapIdx fun i t => t.info image.machine i,
        image.files.map (·.mapping image.pageSize)⟩ := by
  have hsplit : image.threads.mapIdx (fun i t => t.info image.machine i) =
      (image.threads.take image.filesPlace).mapIdx (fun i t => t.info image.machine i) ++
        (image.threads.drop image.filesPlace).mapIdx fun i t =>
          t.info image.machine ((image.threads.take image.filesPlace).length + i) := by
    conv_lhs => rw [← List.take_append_drop image.filesPlace image.threads, List.mapIdx_append]
    simp only [Nat.add_comm]
  rw [Testimony.gather, List.foldlM_map]
  show image.notes.foldlM (Testimony.add image.machine.architecture) ⟨[], []⟩ = _
  rw [notes, List.foldlM_append, add_threads]
  show List.foldlM _ _ _ = _
  rw [List.foldlM_cons, add_files himage]
  show List.foldlM _ _ _ = _
  rw [add_threads, hsplit]
  simp

end

end CoreImage

end Postmortem
