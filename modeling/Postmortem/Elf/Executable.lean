/-
Postmortem/Elf/Executable.lean

Executables.

An executable tells what a core file leaves out: the constants that its build
exports, the functions that its code consists of, and the sections that
describe its source.  Constants stand in its data, under symbols with a mark
of their own; all other symbols that are functions are kept in the order of
their addresses, one for each.
-/
import Postmortem.Elf.Compressed
import Postmortem.Elf.Symbol
import Postmortem.Failure
import Postmortem.Layout
import Postmortem.Thread
import Std.Data.HashMap

namespace Postmortem

/-- A function of an executable. -/
structure FunctionSymbol where
  address : Nat
  /-- How many bytes it takes; zero if that is not known. -/
  size : Nat
  name : String

namespace FunctionSymbol

def contains (f : FunctionSymbol) (address : Nat) : Bool :=
  f.address ≤ address && (f.size == 0 || address - f.address < f.size)

/-- Functions without those that start where the one before them does; `last` is where the one
before all of them starts. -/
def distinctFrom (last : Nat) : List FunctionSymbol → List FunctionSymbol
  | [] => []
  | f :: fs => if f.address = last then distinctFrom last fs else f :: distinctFrom f.address fs

/-- Functions without those that start where the one before them does. -/
def distinct : List FunctionSymbol → List FunctionSymbol
  | [] => []
  | f :: fs => f :: distinctFrom f.address fs

/-- Functions by address; of those with one address, the first. -/
def table (fs : List FunctionSymbol) : List FunctionSymbol :=
  distinct (fs.mergeSort fun f g => f.address ≤ g.address)

/-- The function in a table that an address lies in. -/
def at? (table : List FunctionSymbol) (address : Nat) : Option FunctionSymbol :=
  ((table.takeWhile (·.address ≤ address)).getLast?).filter (·.contains address)

end FunctionSymbol

/-- An executable. -/
structure Executable where
  path : String
  architecture : Architecture
  order : ByteOrder
  /-- The lowest address of its image. -/
  base : Address
  /-- The constants by their full symbol names. -/
  constants : Std.HashMap String Int
  functions : List FunctionSymbol
  /-- The sections that describe the source, by name. -/
  debugSections : List (String × FileData)
  /-- How many bytes the file has. -/
  size : Nat

namespace Elf

/-- The first bytes of archives, of files for several machines, and of libraries that only name
what another file has. -/
def otherMarks : List (List UInt8) :=
  [[0x21, 0x3c, 0x61, 0x72, 0x63, 0x68, 0x3e, 0x0a],
   [0x21, 0x3c, 0x74, 0x68, 0x69, 0x6e, 0x3e, 0x0a],
   [0x64, 0x79, 0x6c, 0x64, 0x5f, 0x76, 0x31, 0x20],
   [0xca, 0xfe, 0xba, 0xbe],
   [0xca, 0xfe, 0xba, 0xbf],
   [0x00, 0x00, 0xff, 0xff, 0x00, 0x00]]

/-- The class that the first bytes of a file tell. -/
def classOf (d : FileData) : Except ElfFault Bool :=
  match d.slice? 0 16 with
  | none => .error .unreadableMagic
  | some (0x7f :: 0x45 :: 0x4c :: 0x46 :: 1 :: _) => .ok false
  | some (0x7f :: 0x45 :: 0x4c :: 0x46 :: 2 :: _) => .ok true
  | some (0x4d :: 0x5a :: _) => .error .unknownDosProgram
  | some bytes =>
    .error (if otherMarks.any (·.isPrefixOf bytes) then .unsupportedFormat else .unknownMagic)

/-- What an executable runs on. -/
def architectureOf (h : Header) : Architecture :=
  if h.encoding.is64 && h.machine == 62 then .x86_64
  else if h.encoding.is64 && h.machine == 183 then .arm64
  else .unknown "unknown"

/-- The lowest address of the segments that are loaded. -/
def baseOf (segments : List Segment) : Nat :=
  ((segments.filter Segment.isLoad).map (·.address)).min?.getD 0

/-! ### Constants -/

/-- The number that a symbol names: eight bytes or four, with a sign; zero where the data of the
file starts as zeros. -/
def constant? (d : FileData) (order : ByteOrder) (sections : List Section) (s : Symbol) :
    Option Int := do
  let home ← sections[← s.home?]?
  if home.isNoBits && !home.isThreadLocal then pure 0
  else
    let (start, size) ← home.fileRange?
    let width := if s.size = 8 then 8 else 4
    guard (start + size ≤ d.size && home.address ≤ s.address)
    let offset := s.address - home.address
    guard (offset + width ≤ size)
    let n := order.number (← d.slice? (start + offset) width)
    pure (if width = 8 then Word.signed (UInt64.ofNat n) else Word.signed32 n)

/-- Whether a symbol is the name of a constant. -/
def isConstantName (name : String) : Bool := (exportedName "").toList.isPrefixOf name.toList

/-- The constants among some symbols; a later one of the same name replaces an earlier one. -/
def constantsOf (d : FileData) (order : ByteOrder) (sections : List Section)
    (symbols : List Symbol) : Std.HashMap String Int :=
  symbols.foldl (fun constants s =>
    match s.name with
    | none => constants
    | some name =>
      if isConstantName name then
        match constant? d order sections s with
        | some value => constants.insert name value
        | none => constants
      else constants) ∅

/-- The function that a symbol names, if it names one. -/
def functionOf? (s : Symbol) : Option FunctionSymbol := do
  let name ← s.name
  guard (!isConstantName name && s.isFunction && !name.isEmpty)
  pure ⟨s.address, s.size, name⟩

/-! ### Debug sections -/

/-- The sections that describe the source. -/
def debugSectionNames : List String :=
  [".debug_abbrev", ".debug_addr", ".debug_info", ".debug_line", ".debug_line_str",
   ".debug_ranges", ".debug_rnglists", ".debug_str", ".debug_str_offsets", ".debug_loc",
   ".debug_loclists"]

/-- The name of a debug section that is marked as compressed. -/
def compressedName (name : String) : String := ".z" ++ (name.drop 1).toString

/-- The first section of a name. -/
def sectionNamed? (d : FileData) (names : StringTable) (sections : List Section) (name : String) :
    Option Section :=
  sections.find? fun s => names.bytes? d s.name == some name.toUTF8.toList

/-- The bytes of the debug section of a name, if there is one, compressed or not. -/
def debugSection? (d : FileData) (e : Encoding) (names : StringTable) (sections : List Section)
    (name : String) : Option (Except ElfFault FileData) :=
  match sectionNamed? d names sections name with
  | some s => some (s.expanded d e false)
  | none => (sectionNamed? d names sections (compressedName name)).map (·.expanded d e true)

/-- The debug sections that are there, up to a fault. -/
def debugSections (d : FileData) (e : Encoding) (names : StringTable) (sections : List Section) :
    List String → Except TargetFault (List (String × FileData))
  | [] => .ok []
  | name :: rest => do
    match debugSection? d e names sections name with
    | none => debugSections d e names sections rest
    | some (.error fault) => .error (.debugSection name fault)
    | some (.ok data) => pure ((name, data) :: (← debugSections d e names sections rest))

end Elf

namespace Executable

open Elf

/-- The tables of an executable. -/
structure Tables where
  header : Header
  segments : List Segment
  sections : List Section
  names : StringTable
  symbols : List Symbol

/-- Reads the tables of an executable. -/
def tables (d : FileData) : Except ElfFault Tables := do
  let header ← Header.parse d (← classOf d)
  let e := header.encoding
  let segments ← Elf.segments d header
  let sections ← Elf.sections d header
  let names ← sectionNames header sections
  let (index, symbols) ← symbolTable d e sections Section.symbolTableType
  let (_, dynamic) ← symbolTable d e sections Section.dynamicSymbolsType
  checkRelocations sections index
  pure ⟨header, segments, sections, names, symbols ++ dynamic⟩

/-- An executable, from its tables. -/
def ofTables (path : String) (d : FileData) (t : Tables) : Except TargetFault Executable := do
  let e := t.header.encoding
  let debug ← Elf.debugSections d e t.names t.sections debugSectionNames
  pure {
    path := path
    architecture := architectureOf t.header
    order := e.order
    base := ⟨UInt64.ofNat (baseOf t.segments)⟩
    constants := constantsOf d e.order t.sections t.symbols
    functions := FunctionSymbol.table (t.symbols.filterMap functionOf?)
    debugSections := debug
    size := d.size }

/-- Reads an executable. -/
def parse (path : String) (d : FileData) : Except Failure Executable :=
  match tables d with
  | .error e => .error (.target (.executable path e))
  | .ok t =>
    match ofTables path d t with
    | .error e => .error (.target e)
    | .ok x => .ok x

/-- The constants that an executable exports.  Its path and its size are its identity. -/
def exports (x : Executable) : Exports where
  target := mixHash (hash x.path) (hash x.size)
  resolve := fun name => x.constants[name]?

end Executable

end Postmortem
