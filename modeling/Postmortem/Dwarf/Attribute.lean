/-
Postmortem/Dwarf/Attribute.lean

Attributes of the entries that describe a program.

An attribute has a name and a value, and its form says how the value is
stored.  Some values are indexes into tables, and stay so here.  Forms that
lead nowhere (blocks, places in other files) are passed over: their value is
`Value.other`.
-/
import Postmortem.Dwarf.Cursor

namespace Postmortem.Dwarf

/-- How the values of a unit are stored. -/
structure Encoding where
  version : Nat
  addressSize : Nat
  offsetSize : Nat

/-- What an attribute says. -/
inductive Value where
  | address (n : Nat)
  /-- An address, by its place in the table of addresses. -/
  | addressIndex (index : Nat)
  | number (n : Nat)
  /-- An offset into a section that the attribute's name tells. -/
  | offset (n : Nat)
  /-- A list of ranges, by its place in the table of lists. -/
  | rangesIndex (index : Nat)
  /-- The position of an entry among those of its unit. -/
  | nearby (position : Nat)
  /-- The position of an entry among all. -/
  | entry (position : Nat)
  | text (bytes : List UInt8)
  /-- A text among the strings of the program. -/
  | string (offset : Nat)
  /-- A text among the strings of the program, by its place in the table of strings. -/
  | stringIndex (index : Nat)
  /-- A text among the strings of the line tables. -/
  | lineString (offset : Nat)
  | other

/-- The name of an attribute and how its value is stored. -/
structure Spec where
  name : Nat
  form : Nat
  /-- The value itself, if the form has it here. -/
  implicit : Option Int

/-! ### Names -/

def nameName : Nat := 0x03
def lineTableName : Nat := 0x10
def lowName : Nat := 0x11
def highName : Nat := 0x12
def directoryName : Nat := 0x1b
def originName : Nat := 0x31
def specificationName : Nat := 0x47
def rangesName : Nat := 0x55
def callColumnName : Nat := 0x57
def callFileName : Nat := 0x58
def callLineName : Nat := 0x59
def linkageName : Nat := 0x6e
def stringsBaseName : Nat := 0x72
def addressesBaseName : Nat := 0x73
def rangesBaseName : Nat := 0x74
def olderLinkageName : Nat := 0x2007
def olderRangesBaseName : Nat := 0x2132
def olderAddressesBaseName : Nat := 0x2133

/-- The names of attributes that are offsets, even where they are stored as plain numbers. -/
def offsetNames : List Nat := [lineTableName, rangesName]

/-! ### Forms -/

/-- A number with a sign, where one without is meant. -/
def Value.ofInt (i : Int) : Value := if 0 ≤ i then .number i.toNat else .other

/-- The form whose value is in its specification. -/
def implicitForm : Nat := 0x21

/-- The form that is told by a number before the value. -/
def indirectForm : Nat := 0x16

/-- A plain number as wide as an offset, or not, under a name. -/
def Value.ofWide (name n : Nat) (isWide : Bool) : Value :=
  if isWide && offsetNames.contains name then .offset n else .number n

/-- The value of a form under a name. -/
def Value.ofForm (e : Encoding) (name form : Nat) : Cursor Value := do
  let passed (count : Nat) : Cursor Value := do
    Cursor.skip count
    pure .other
  match form with
  | 0x01 => pure (.address (← Cursor.number e.addressSize))
  | 0x03 => passed (← Cursor.number 2)
  | 0x04 => passed (← Cursor.number 4)
  | 0x05 => pure (.number (← Cursor.number 2))
  | 0x06 => pure (.ofWide name (← Cursor.number 4) (e.offsetSize == 4))
  | 0x07 => pure (.ofWide name (← Cursor.number 8) (e.offsetSize == 8))
  | 0x08 => pure (.text (← Cursor.text))
  | 0x09 | 0x18 => passed (← Cursor.unsigned)
  | 0x0a => passed (← Cursor.byte)
  | 0x0b => pure (.number (← Cursor.byte))
  | 0x0c => passed 1
  | 0x0d => pure (.ofInt (← Cursor.signed))
  | 0x0e => pure (.string (← Cursor.number e.offsetSize))
  | 0x0f => pure (.number (← Cursor.unsigned))
  | 0x10 =>
    pure (.entry (← Cursor.number (if e.version = 2 then e.addressSize else e.offsetSize)))
  | 0x11 => pure (.nearby (← Cursor.number 1))
  | 0x12 => pure (.nearby (← Cursor.number 2))
  | 0x13 => pure (.nearby (← Cursor.number 4))
  | 0x14 => pure (.nearby (← Cursor.number 8))
  | 0x15 => pure (.nearby (← Cursor.unsigned))
  | 0x17 => pure (.offset (← Cursor.number e.offsetSize))
  | 0x19 => pure .other
  | 0x1a | 0x1f02 => pure (.stringIndex (← Cursor.unsigned))
  | 0x1b | 0x1f01 => pure (.addressIndex (← Cursor.unsigned))
  | 0x1c => passed 4
  | 0x1d | 0x1f20 | 0x1f21 => passed e.offsetSize
  | 0x1e => passed 16
  | 0x1f => pure (.lineString (← Cursor.number e.offsetSize))
  | 0x20 | 0x24 => passed 8
  | 0x22 => do
    let _ ← Cursor.unsigned
    pure .other
  | 0x23 => pure (.rangesIndex (← Cursor.unsigned))
  | 0x25 => pure (.stringIndex (← Cursor.number 1))
  | 0x26 => pure (.stringIndex (← Cursor.number 2))
  | 0x27 => pure (.stringIndex (← Cursor.number 3))
  | 0x28 => pure (.stringIndex (← Cursor.number 4))
  | 0x29 => pure (.addressIndex (← Cursor.number 1))
  | 0x2a => pure (.addressIndex (← Cursor.number 2))
  | 0x2b => pure (.addressIndex (← Cursor.number 3))
  | 0x2c => pure (.addressIndex (← Cursor.number 4))
  | _ => failure

/-- The value of a specified attribute of some form; `limit` bounds how often a form tells another
form. -/
def Value.ofSpec (e : Encoding) (spec : Spec) : Nat → Nat → Cursor Value
  | 0, _ => failure
  | limit + 1, form => do
    if form = indirectForm then Value.ofSpec e spec limit (← Cursor.unsignedShort)
    else if form = implicitForm then spec.implicit.elim failure fun i => pure (.ofInt i)
    else Value.ofForm e spec.name form

/-! ### Lists of attributes -/

/-- Attributes by name. -/
abbrev Attributes : Type := List (Nat × Value)

/-- The values of specified attributes. -/
def Attributes.read (e : Encoding) : List Spec → Cursor Attributes
  | [] => pure []
  | spec :: specs => do
    let limit ← Cursor.left
    let value ← Value.ofSpec e spec (limit + 1) spec.form
    pure ((spec.name, value) :: (← Attributes.read e specs))

namespace Attributes

/-- The last attribute of a name. -/
def get? (a : Attributes) (name : Nat) : Option Value :=
  (a.reverse.find? (·.1 == name)).map (·.2)

/-- The number that an attribute has, or zero. -/
def number (a : Attributes) (name : Nat) : Nat :=
  match a.get? name with
  | some (.number n) => n
  | _ => 0

/-- The last offset under some names. -/
def offset? (a : Attributes) (names : List Nat) : Option Nat :=
  a.reverse.findSome? fun field =>
    match field.2 with
    | .offset n => if names.contains field.1 then some n else none
    | _ => none

end Attributes

end Postmortem.Dwarf
