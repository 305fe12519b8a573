/-
Postmortem/Dwarf/Unit.lean

Units, and the entries in them.

A unit describes what one run of a compiler made.  Its entries form a tree;
here they stand in the order in which they are stored, each with its depth.
An entry starts with a code, and the abbreviation of that code tells what the
entry is and which attributes it has.
-/
import Postmortem.Dwarf.Attribute

namespace Postmortem.Dwarf

/-! ### Sections -/

/-- The sections that describe a program. -/
structure Sections where
  order : ByteOrder
  find : String → FileData

namespace Sections

/-- The text at an offset of a section. -/
def textAt? (s : Sections) (name : String) (offset : Nat) : Option (List UInt8) :=
  Cursor.readIn (s.find name) s.order offset Cursor.text

end Sections

/-! ### Abbreviations -/

structure Abbreviation where
  code : Nat
  tag : Nat
  hasChildren : Bool
  specs : List Spec

namespace Abbreviation

/-- The specification of an attribute, if there is one more. -/
def spec : Cursor (Option Spec) := do
  let name ← Cursor.unsignedShort
  let form ← Cursor.unsignedShort
  if name = 0 ∧ form = 0 then pure none
  else
    guard (name ≠ 0 ∧ form ≠ 0)
    let implicit ← if form = implicitForm then some <$> Cursor.signed else pure none
    pure (some ⟨name, form, implicit⟩)

/-- An abbreviation, if there is one more. -/
def next : Cursor (Option Abbreviation) := do
  let code ← Cursor.unsigned
  if code = 0 then pure none
  else
    let tag ← Cursor.unsignedShort
    let children ← Cursor.byte
    guard (tag ≠ 0 ∧ children ≤ 1)
    pure (some ⟨code, tag, children = 1, ← Cursor.many spec⟩)

/-- The abbreviations at an offset, which have different codes. -/
def table? (s : Sections) (offset : Nat) : Option (List Abbreviation) := do
  let table ← Cursor.readIn (s.find ".debug_abbrev") s.order offset (Cursor.many next)
  guard (table.map (·.code)).Nodup
  pure table

end Abbreviation

/-! ### Unit headers -/

/-- Where a unit is and how it is stored. -/
structure UnitHeader where
  /-- Where the unit starts. -/
  start : Nat
  /-- Where its entries start, and where they stop. -/
  first : Nat
  stop : Nat
  encoding : Encoding
  abbreviations : Nat
  /-- What kind of unit it is; one that is compiled by itself before there were kinds. -/
  kind : Nat

namespace UnitHeader

/-- Whether addresses take so many bytes anywhere. -/
def isAddressSize (n : Nat) : Bool := n == 1 || n == 2 || n == 4 || n == 8

/-- How many bytes the header of a kind has for itself, if there is such a kind. -/
def extraSize? (kind offsetSize : Nat) : Option Nat :=
  if kind = 1 ∨ kind = 3 then some 0
  else if kind = 4 ∨ kind = 5 then some 8
  else if kind = 2 ∨ kind = 6 then some (8 + offsetSize)
  else none

/-- What stands in a header behind its length. -/
def body (start stop offsetSize : Nat) : Cursor UnitHeader := do
  let version ← Cursor.number 2
  guard (2 ≤ version ∧ version ≤ 5)
  if version = 5 then
    let kind ← Cursor.byte
    let addressSize ← Cursor.byte
    guard (isAddressSize addressSize)
    let abbreviations ← Cursor.number offsetSize
    match extraSize? kind offsetSize with
    | none => failure
    | some extra =>
      Cursor.skip extra
      pure ⟨start, ← Cursor.position, stop, ⟨version, addressSize, offsetSize⟩, abbreviations,
        kind⟩
  else
    let abbreviations ← Cursor.number offsetSize
    let addressSize ← Cursor.byte
    guard (isAddressSize addressSize)
    pure ⟨start, ← Cursor.position, stop, ⟨version, addressSize, offsetSize⟩, abbreviations, 1⟩

/-- A header; the cursor moves behind its unit. -/
def next : Cursor UnitHeader := do
  let start ← Cursor.position
  let (length, offsetSize) ← Cursor.length
  let stop := (← Cursor.position) + length
  Cursor.within length (body start stop offsetSize)

/-- The headers of all units. -/
def all? (s : Sections) : Option (List UnitHeader) :=
  Cursor.readIn (s.find ".debug_info") s.order 0 (Cursor.toEnd next)

/-- Whether the unit only describes types. -/
def isOfTypes (h : UnitHeader) : Bool := h.kind == 2 || h.kind == 6

/-- Whether the unit is a part that others refer to. -/
def isPartial (h : UnitHeader) : Bool := h.kind == 3

end UnitHeader

/-! ### Units -/

/-- A unit, and what its values are read against. -/
structure UnitReader where
  sections : Sections
  header : UnitHeader
  abbreviations : List Abbreviation
  /-- Where the tables of the unit start among those of all units. -/
  strings : Nat
  addresses : Nat
  ranges : Nat
  /-- What relative ranges of the unit are relative to. -/
  low : Nat

namespace UnitReader

def encoding (u : UnitReader) : Encoding := u.header.encoding

/-- Reads entries of the unit from a position on. -/
def readAt {α : Type} (u : UnitReader) (position : Nat) (c : Cursor α) : Option α :=
  Cursor.readAt ⟨u.sections.find ".debug_info", u.header.stop, u.sections.order⟩ position c

/-! ### Values -/

/-- The number of `width` bytes at an index of a table of a section. -/
def indexed? (u : UnitReader) (table : String) (start width index : Nat) : Option Nat :=
  Cursor.readIn (u.sections.find table) u.sections.order (start + width * index)
    (Cursor.number width)

/-- The address at an index. -/
def addressAt? (u : UnitReader) (index : Nat) : Option Nat :=
  u.indexed? ".debug_addr" u.addresses u.encoding.addressSize index

/-- The offset of the list of ranges at an index. -/
def rangesAt? (u : UnitReader) (index : Nat) : Option Nat :=
  (u.indexed? ".debug_rnglists" u.ranges u.encoding.offsetSize index).map (u.ranges + ·)

/-- The text that a value stands for. -/
def text? (u : UnitReader) : Value → Option (List UInt8)
  | .text bytes => some bytes
  | .string offset => u.sections.textAt? ".debug_str" offset
  | .lineString offset => u.sections.textAt? ".debug_line_str" offset
  | .stringIndex index => do
    let offset ← u.indexed? ".debug_str_offsets" u.strings u.encoding.offsetSize index
    u.sections.textAt? ".debug_str" offset
  | _ => none

/-- The address under a name, if there is one; fails if a table does not have it. -/
def address? (u : UnitReader) (a : Attributes) (name : Nat) : Option (Option Nat) :=
  match a.get? name with
  | some (.address n) => some (some n)
  | some (.addressIndex index) => (u.addressAt? index).map some
  | _ => some none

end UnitReader

/-! ### Entries -/

structure Entry where
  /-- How many entries it is inside of. -/
  depth : Int
  tag : Nat
  attributes : Attributes

/-- Entries in a row. -/
structure Entries where
  list : List Entry
  /-- How many entries are still open behind the last one. -/
  depth : Int

namespace Entry

/-- The entry at the cursor, if it is not the end of a row of children, and the depth of what
comes next. -/
def next (u : UnitReader) (depth : Int) : Cursor (Option Entry × Int) := do
  let code ← Cursor.unsigned
  if code = 0 then pure (none, depth - 1)
  else
    match u.abbreviations.find? (·.code == code) with
    | none => failure
    | some a =>
      let attributes ← Attributes.read u.encoding a.specs
      pure (some ⟨depth, a.tag, attributes⟩, if a.hasChildren then depth + 1 else depth)

/-- All entries up to the end of a unit; at most `limit` of them. `found` are those before, last
first. -/
def allFrom (u : UnitReader) : Nat → Int → List Entry → Cursor Entries
  | 0, _, _ => failure
  | limit + 1, depth, found => do
    if ← Cursor.isAtEnd then pure ⟨found.reverse, depth⟩
    else
      let (entry, depth) ← next u depth
      allFrom u limit depth (entry.toList ++ found)

end Entry

namespace UnitReader

/-- All entries of the unit. -/
def entries? (u : UnitReader) : Option Entries :=
  u.readAt u.header.first do Entry.allFrom u ((← Cursor.left) + 1) 0 []

/-- The entry at a position among those of all units, if it is in this one. -/
def entryAt? (u : UnitReader) (position : Nat) : Option Entry := do
  guard (u.header.first ≤ position ∧ position < u.header.stop)
  (← u.readAt position (Entry.next u 0)).1

/-- The unit of a header, and the attributes of its first entry. -/
def open? (s : Sections) (h : UnitHeader) : Option (UnitReader × Attributes) := do
  let u : UnitReader := ⟨s, h, ← Abbreviation.table? s h.abbreviations, 0, 0, 0, 0⟩
  let a := (← u.entryAt? h.first).attributes
  let start (names : List Nat) : Nat := (a.offset? names).getD 0
  let u := { u with
    strings := start [stringsBaseName]
    addresses := start [addressesBaseName, olderAddressesBaseName]
    ranges := start [rangesBaseName, olderRangesBaseName] }
  pure ({ u with low := (← u.address? a lowName).getD 0 }, a)

end UnitReader

end Postmortem.Dwarf
