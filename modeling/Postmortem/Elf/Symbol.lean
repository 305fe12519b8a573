/-
Postmortem/Elf/Symbol.lean

Names and symbols of an ELF file.

Names lie in string sections, each ended by a zero; an entry tells where its
name starts.  A symbol names an address and says which section it is in.  A
table of symbols has a string section for its names, and a section of
extended indexes for symbols whose section does not fit into their entry.
-/
import Postmortem.Elf.Header
import Postmortem.Text.Utf8

namespace Postmortem.Elf

/-! ### Names -/

/-- Where the names of a string section start and stop in the file; none where there are none. -/
abbrev StringTable := Option (Nat × Nat)

/-- The names in a section, if its end is a position at all. -/
def stringTable (s : Section) (overflow : ElfFault) : Except ElfFault StringTable :=
  match s.fileRange? with
  | none => .ok none
  | some (offset, size) =>
    if offset + size < UInt64.size then .ok (some (offset, offset + size)) else .error overflow

/-- The bytes of a name. -/
def StringTable.bytes? (t : StringTable) (d : FileData) (name : Nat) : Option (List UInt8) := do
  let (start, stop) ← t
  if d.size < stop then none else d.untilZero? (stop - (start + name)) (start + name)

/-- The names of the sections. -/
def sectionNames (h : Header) : List Section → Except ElfFault StringTable
  | [] => .ok none
  | first :: rest =>
    let index := if h.namesIndex = 0xffff then first.link else h.namesIndex
    if index = 0 then .error .noSectionNames
    else
      match (first :: rest)[index]? with
      | none => .error .sectionNames
      | some s => stringTable s .sectionNamesSize

/-- The names that a table's link leads to; no names if it leads nowhere. -/
def linkedNames (sections : List Section) (link : Nat) : Except ElfFault StringTable :=
  if link = 0 then .ok none
  else
    match sections[link]? with
    | none => .error .sectionIndex
    | some s =>
      if s.type = Section.stringTableType then stringTable s .stringSectionSize
      else .error .notStringSection

/-! ### Symbols -/

structure Symbol where
  /-- The name, if it can be read. -/
  name : Option String
  type : Nat
  /-- The section index of the entry itself. -/
  mark : Nat
  /-- The section that the symbol is in. -/
  home? : Option Nat
  address : Nat
  size : Nat

namespace Symbol

/-- The size of an entry. -/
def entrySize (is64 : Bool) : Nat := if is64 then 24 else 16

/-- The section index that says that the index stands elsewhere. -/
def extendedMark : Nat := 0xffff

/-- The section that a symbol is in; indexes from `0xff00` on are no sections. -/
def sectionOf? (mark : Nat) (extended : Option Nat) : Option Nat :=
  if mark = extendedMark then extended.filter (· ≠ 0)
  else if mark = 0 ∨ 0xff00 ≤ mark then none
  else some mark

/-- Whether the symbol has a place in this file. -/
def isDefined (s : Symbol) : Bool := s.mark != 0 && (s.mark < 0xff00 || s.mark == extendedMark)

/-- Whether the symbol is a function of this file. -/
def isFunction (s : Symbol) : Bool := s.type == 2 && s.isDefined

/-- A symbol, from its entry. -/
def ofRecord (d : FileData) (e : Encoding) (names : StringTable) (record : List UInt8)
    (extended : Option Nat) : Symbol :=
  let mark := e.pick record (14, 2) (6, 2)
  { name := (names.bytes? d (e.order.field record 0 4)).bind Utf8.decode?
    type := e.pick record (12, 1) (4, 1) % 16
    mark := mark
    home? := sectionOf? mark extended
    address := e.pick record (4, 4) (8, 8)
    size := e.pick record (8, 4) (16, 8) }

end Symbol

/-- The bytes of a section that holds entries of one size. -/
def tableBytes (d : FileData) (s : Section) (size : Nat) (fault : ElfFault) :
    Except ElfFault (List UInt8) :=
  match s.data? d with
  | none => .error fault
  | some bytes => if bytes.length % size = 0 then .ok bytes else .error fault

/-- The extended section indexes for the symbol table with a given index; the last such section
counts. -/
def extendedIndexes (d : FileData) (e : Encoding) (sections : List Section) (index : Nat) :
    Except ElfFault (List Nat) :=
  (sections.filter fun s => s.type == Section.extendedIndexesType && s.link == index).foldlM
    (fun _ s => do
      let bytes ← tableBytes d s 4 .extendedIndexes
      pure ((recordsOf 4 bytes).map e.order.number)) []

/-- Symbols, each with its extended section index if there is one. -/
def symbolsOf (d : FileData) (e : Encoding) (names : StringTable) :
    List (List UInt8) → List Nat → List Symbol
  | [], _ => []
  | record :: records, extended =>
    Symbol.ofRecord d e names record extended.head? :: symbolsOf d e names records extended.tail

/-- The index of the first section of a type and the symbols in it, without the first, which is
none.  The index of no section is zero. -/
def symbolTable (d : FileData) (e : Encoding) (sections : List Section) (type : Nat) :
    Except ElfFault (Nat × List Symbol) :=
  match sections.zipIdx.find? (fun s => s.1.type == type) with
  | none => .ok (0, [])
  | some (s, index) => do
    let size := Symbol.entrySize e.is64
    let bytes ← tableBytes d s size .symbolTable
    let names ← linkedNames sections s.link
    let extended ← extendedIndexes d e sections index
    pure (index, symbolsOf d e names (recordsOf size bytes).tail extended.tail)

/-! ### Relocations -/

/-- Refuses relocations, by the symbols of the section `symbols`, of sections that are not there
or are relocations themselves. -/
def checkRelocations (sections : List Section) (symbols : Nat) : Except ElfFault Unit :=
  sections.reverse.forM fun s =>
    if s.isRelocations && s.link == symbols && s.info != 0 then
      match sections[s.info]? with
      | none => .error .relocationTarget
      | some target => if target.isRelocations then .error .relocatedRelocations else .ok ()
    else .ok ()

end Postmortem.Elf
