/-
Postmortem/Dwarf/Line.lean

Tables of source lines.

The table of a unit is written as a program for a small machine, whose
registers are an address and a place in the source.  Instructions move them,
and some add a row or a file to the table; rows up to an end mark are a
sequence.  The row for an address is the last one at or before it in the
sequence that covers it.
-/
import Postmortem.Dwarf.Range
import Postmortem.Text.Utf8

namespace Postmortem.Dwarf

/-! ### Files -/

/-- A source file as the table names it. -/
structure FileEntry where
  path : Value
  directory : Nat

/-- The field of an entry, and the form it is stored in. -/
structure EntryField where
  content : Nat
  form : Nat

/-- The header of a line program, and where the program is. -/
structure LineHeader where
  encoding : Encoding
  minInstruction : Nat
  maxOperations : Nat
  lineBase : Int
  lineRange : Nat
  opcodeBase : Nat
  /-- How many numbers follow each of the standard opcodes. -/
  operands : List Nat
  directories : List Value
  files : List FileEntry
  first : Nat
  stop : Nat

namespace LineHeader

/-- A directory, up to an empty one. -/
def plainDirectory : Cursor (Option Value) := do
  let path ← Cursor.text
  pure (if path.isEmpty then none else some (.text path))

/-- What follows the name of a file: its directory, its time and its size. -/
def plainFileOf (path : List UInt8) : Cursor FileEntry := do
  let directory ← Cursor.unsigned
  let _ ← Cursor.unsigned
  let _ ← Cursor.unsigned
  pure ⟨.text path, directory⟩

/-- A file, up to one with an empty name. -/
def plainFile : Cursor (Option FileEntry) := do
  let path ← Cursor.text
  if path.isEmpty then pure none else do pure (some (← plainFileOf path))

/-- The fields of entries, of which one is the path. -/
def fields : Cursor (List EntryField) := do
  let fields ← Cursor.times (do pure ⟨← Cursor.unsigned, ← Cursor.unsignedShort⟩) (← Cursor.byte)
  guard (fields.countP (·.content == 1) = 1)
  pure fields

/-- The forms that fields can have: numbers, texts and blocks. -/
def fieldForms : List Nat :=
  [0x03, 0x04, 0x05, 0x06, 0x07, 0x08, 0x09, 0x0a, 0x0b, 0x0c, 0x0d, 0x0e, 0x0f, 0x17, 0x1a, 0x1d,
    0x1e, 0x1f, 0x25, 0x26, 0x27, 0x28, 0x1f02, 0x1f21]

/-- A file, from its fields. -/
def fieldsFrom (e : Encoding) : List EntryField → FileEntry → Cursor FileEntry
  | [], file => pure file
  | f :: rest, file => do
    guard (f.form ∈ fieldForms)
    let value ← Value.ofForm e 0 f.form
    fieldsFrom e rest <|
      match f.content, value with
      | 1, path => { file with path := path }
      | 2, .number directory => { file with directory := directory }
      | _, _ => file

/-- A row of files, each with the same fields. -/
def markedFiles (e : Encoding) : Cursor (List FileEntry) := do
  let fields ← fields
  Cursor.times (fieldsFrom e fields ⟨.other, 0⟩) (← Cursor.unsigned)

/-- The directories and the files of a table. -/
def tables (e : Encoding) : Cursor (List Value × List FileEntry) := do
  if e.version ≤ 4 then
    let directories ← Cursor.many plainDirectory
    pure (directories, ← Cursor.many plainFile)
  else
    let directories ← markedFiles e
    pure (directories.map (·.path), ← markedFiles e)

/-- What stands in a header behind its own length; the program is from `first` to `stop`. -/
def behindLength (e : Encoding) (first stop : Nat) : Cursor LineHeader := do
  let minInstruction ← Cursor.byte
  let maxOperations ← if 4 ≤ e.version then Cursor.byte else pure 1
  let _ ← Cursor.byte
  let lineBase ← Cursor.signedByte
  let lineRange ← Cursor.byte
  let opcodeBase ← Cursor.byte
  guard (minInstruction ≠ 0 ∧ maxOperations ≠ 0 ∧ lineRange ≠ 0 ∧ opcodeBase ≠ 0)
  let operands ← Cursor.times Cursor.byte (opcodeBase - 1)
  let (directories, files) ← tables e
  pure ⟨e, minInstruction, maxOperations, lineBase, lineRange, opcodeBase, operands, directories,
    files, first, stop⟩

/-- What stands in a header behind the length of the whole. -/
def body (stop offsetSize addressSize : Nat) : Cursor LineHeader := do
  let version ← Cursor.number 2
  guard (2 ≤ version ∧ version ≤ 5)
  let addressSize ←
    if version = 5 then do
      let addressSize ← Cursor.byte
      guard (UnitHeader.isAddressSize addressSize)
      guard ((← Cursor.byte) = 0)
      pure addressSize
    else pure addressSize
  let length ← Cursor.number offsetSize
  let first := (← Cursor.position) + length
  Cursor.within length (behindLength ⟨version, addressSize, offsetSize⟩ first stop)

/-- The header at an offset, for a unit whose addresses take so many bytes. -/
def at? (s : Sections) (offset addressSize : Nat) : Option LineHeader :=
  Cursor.readIn (s.find ".debug_line") s.order offset do
    let (length, offsetSize) ← Cursor.length
    let stop := (← Cursor.position) + length
    Cursor.within length (body stop offsetSize addressSize)

end LineHeader

/-! ### The machine -/

/-- The registers. -/
structure LineState where
  address : Nat
  operation : Nat
  file : Nat
  line : Nat
  column : Nat
  /-- Whether the code of this sequence was discarded. -/
  isDiscarded : Bool

def LineState.start : LineState := ⟨0, 0, 1, 1, 0, false⟩

/-- What an instruction does to the table. -/
inductive LineEffect where
  | none
  | row
  | endSequence
  /-- Adds a file. -/
  | file (f : FileEntry)

namespace LineState

/-- Moves the line, to no less than zero. -/
def advanceLine (s : LineState) (by_ : Int) : LineState :=
  { s with line := (s.line + by_).toNat % UInt64.size }

/-- Moves the address by operations; none if there is no such address. -/
def advance? (h : LineHeader) (s : LineState) (operations : Nat) : Option LineState :=
  if s.isDiscarded then some s
  else
    let count := (s.operation + operations) % UInt64.size
    let address := s.address + h.minInstruction * (count / h.maxOperations) % UInt64.size
    if address < Range.space h.encoding then
      some { s with address := address, operation := count % h.maxOperations }
    else none

/-- Moves to an address; going back, or to no address, discards the code. -/
def moveTo (h : LineHeader) (s : LineState) (address : Nat) : LineState :=
  if address < s.address ∨ address = Range.space h.encoding - 1 then
    { s with isDiscarded := true }
  else { s with address := address, operation := 0, isDiscarded := false }

/-- An opcode that moves line and address at once. -/
def special? (h : LineHeader) (s : LineState) (opcode : Nat) : Option LineState :=
  let adjusted := opcode - h.opcodeBase
  (s.advanceLine (h.lineBase + (adjusted % h.lineRange : Nat))).advance? h (adjusted / h.lineRange)

/-- An extended instruction, behind its length. -/
def extended (h : LineHeader) (s : LineState) : Cursor (LineState × LineEffect) := do
  match ← Cursor.byte with
  | 1 => pure (s, .endSequence)
  | 2 => pure (s.moveTo h (← Cursor.number h.encoding.addressSize), .none)
  | 3 =>
    if h.encoding.version ≤ 4 then do
      pure (s, .file (← LineHeader.plainFileOf (← Cursor.text)))
    else pure (s, .none)
  | 4 => do
    let _ ← Cursor.unsigned
    pure (s, .none)
  | _ => pure (s, .none)

/-- An instruction with a standard opcode. -/
def standard (h : LineHeader) (s : LineState) (opcode : Nat) : Cursor (LineState × LineEffect) := do
  match opcode with
  | 1 => pure (s, .row)
  | 2 => pure (← (s.advance? h (← Cursor.unsigned)).elim failure pure, .none)
  | 3 => pure (s.advanceLine (← Cursor.signed), .none)
  | 4 => pure ({ s with file := ← Cursor.unsigned }, .none)
  | 5 => pure ({ s with column := ← Cursor.unsigned }, .none)
  | 6 | 7 | 10 | 11 => pure (s, .none)
  | 8 =>
    pure (← (s.advance? h ((255 - h.opcodeBase) / h.lineRange)).elim failure pure, .none)
  | 9 =>
    let address := s.address + (← Cursor.number 2)
    guard (s.isDiscarded ∨ address < Range.space h.encoding)
    pure (if s.isDiscarded then s else { s with address := address, operation := 0 }, .none)
  | 12 =>
    let _ ← Cursor.unsigned
    pure (s, .none)
  | opcode =>
    let _ ← Cursor.times Cursor.unsigned (h.operands.getD (opcode - 1) 0)
    pure (s, .none)

/-- An instruction. -/
def step (h : LineHeader) (s : LineState) : Cursor (LineState × LineEffect) := do
  let opcode ← Cursor.byte
  if opcode = 0 then Cursor.within (← Cursor.unsigned) (extended h s)
  else if h.opcodeBase ≤ opcode then
    pure (← (s.special? h opcode).elim failure pure, .row)
  else standard h s opcode

end LineState

/-! ### Rows -/

structure LineRow where
  address : Nat
  file : Nat
  line : Nat
  column : Nat

/-- Rows up to an end mark. -/
abbrev LineSequence : Type := List LineRow

/-- What a program has written. -/
structure LineOutput where
  /-- The rows of the open sequence, last first. -/
  rows : List LineRow
  /-- The closed sequences and the addresses that they cover. -/
  sequences : List (LineSequence × Range)
  /-- The files that were added, last first. -/
  files : List FileEntry

namespace LineOutput

def start : LineOutput := ⟨[], [], []⟩

/-- Adds a row; it replaces one before it at its address. -/
def push (o : LineOutput) (r : LineRow) : LineOutput :=
  match o.rows with
  | [] => { o with rows := [r] }
  | last :: rest =>
    { o with rows := if last.address = r.address then r :: rest else r :: last :: rest }

/-- Ends the open sequence, if it has rows. -/
def close (o : LineOutput) (stop : Nat) : LineOutput :=
  match o.rows.getLast? with
  | none => o
  | some first =>
    { o with rows := [], sequences := o.sequences ++ [(o.rows.reverse, ⟨first.address, stop⟩)] }

/-- What a program writes; at most `limit` instructions are run. -/
def runFrom (h : LineHeader) : Nat → LineState → LineOutput → Cursor LineOutput
  | 0, _, _ => failure
  | limit + 1, s, o => do
    if ← Cursor.isAtEnd then pure o
    else
      let (s, effect) ← s.step h
      match effect with
      | .none => runFrom h limit s o
      | .file f => runFrom h limit s { o with files := f :: o.files }
      | .row =>
        runFrom h limit s
          (if s.isDiscarded then o else o.push ⟨s.address, s.file, s.line, s.column⟩)
      | .endSequence => runFrom h limit .start (if s.isDiscarded then o else o.close s.address)

/-- What the program of a table writes. -/
def of? (s : Sections) (h : LineHeader) : Option LineOutput :=
  Cursor.readAt ⟨s.find ".debug_line", h.stop, s.order⟩ h.first do
    runFrom h ((← Cursor.left) + 1) .start start

end LineOutput

/-! ### Paths -/

/-- Whether a path starts with a separator, or with one behind a drive of one letter. -/
def startsAt (separator : Char) (path : List Char) : Bool :=
  match path with
  | first :: rest =>
    first == separator || (first.utf8Size == 1 && rest.take 2 == [':', separator])
  | [] => false

/-- Whether a path starts at a root that slashes lead from. -/
def isRooted (path : List Char) : Bool := startsAt '/' path

/-- Whether a path starts at a root that backslashes lead from. -/
def isDriveRooted (path : List Char) : Bool := startsAt '\\' path

/-- The path `path` seen from `base`. -/
def joined (base path : List Char) : List Char :=
  if isRooted path || isDriveRooted path then path
  else
    let separator := if isDriveRooted base then '\\' else '/'
    if base.isEmpty || base.getLast? == some separator then base ++ path
    else base ++ [separator] ++ path

/-- The characters of a path. -/
def pathChars (bytes : List UInt8) : List Char := (Utf8.decodeLossy bytes).toList

/-- The path of a file: under the directory of the unit, and under its own unless that is the
first. -/
def filePath? (u : UnitReader) (directory : Option (List UInt8)) (h : LineHeader)
    (file : FileEntry) : Option String := do
  let base := (directory.map pathChars).getD []
  let home :=
    if file.directory = 0 then none
    else
      h.directories[if h.encoding.version ≤ 4 then file.directory - 1 else file.directory]?
  let base ←
    match home with
    | none => some base
    | some home => (u.text? home).map fun bytes => joined base (pathChars bytes)
  pure (String.ofList (joined base (pathChars (← u.text? file.path))))

/-- The paths of the files of a table, as rows number them.  Up to version 4 the first number is
that of the unit's own file, if it has a name. -/
def filePaths? (u : UnitReader) (directory name : Option (List UInt8)) (h : LineHeader)
    (files : List FileEntry) : Option (List String) :=
  if h.encoding.version ≤ 4 then do
    let own ←
      match name with
      | none => some ""
      | some name => filePath? u directory h ⟨.text name, 0⟩
    pure (own :: (← files.mapM (filePath? u directory h)))
  else do
    let paths ← files.mapM (filePath? u directory h)
    pure (if paths.isEmpty then [""] else paths)

/-! ### Tables -/

/-- The source lines of a unit. -/
structure LineTable where
  /-- The paths of the source files, as rows number them. -/
  paths : List String
  /-- The sequences by the addresses that they cover. -/
  sequences : List (LineSequence × Range)

namespace LineTable

/-- The table of a unit that has a directory and a name. -/
def read? (u : UnitReader) (directory name : Option (List UInt8)) (h : LineHeader) :
    Option LineTable := do
  let o ← LineOutput.of? u.sections h
  let paths ← filePaths? u directory name h (h.files ++ o.files.reverse)
  pure ⟨paths, Range.inOrder o.sequences⟩

/-- The row for an address. -/
def row? (t : LineTable) (address : Nat) : Option LineRow := do
  ((← Range.covering? t.sequences address).takeWhile (·.address ≤ address)).getLast?

end LineTable

end Postmortem.Dwarf
