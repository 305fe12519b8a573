/-
Postmortem/Dwarf/Place.lean

From an address to its place in the source.

An address lies in a unit, in a function of it, and in the calls that were
inlined there.  Each of these is a place: the innermost one is where the row
for the address says, and each other one is where the call inside of it was
made.  A unit whose header, first entry or line table cannot be read does not
count; any other fault means that the source is not known at all.
-/
import Postmortem.Dwarf.Function
import Postmortem.Dwarf.Line
import Postmortem.Symbol

namespace Postmortem.Dwarf

/-- A place in the source. -/
structure Place where
  /-- The name of the function, as linkers see it. -/
  function : Option String
  location : Option SourceLocation

/-! ### Units -/

/-- A unit that can be read. -/
structure CompiledUnit where
  reader : UnitReader
  attributes : Attributes
  directory : Option (List UInt8)
  name : Option (List UInt8)
  lines : Option LineHeader

namespace CompiledUnit

/-- The unit of a header. -/
def of? (s : Sections) (h : UnitHeader) : Option CompiledUnit := do
  let (u, a) ← UnitReader.open? s h
  let lines ←
    match a.get? lineTableName with
    | some (.offset n) => (LineHeader.at? s n h.encoding.addressSize).map some
    | _ => some none
  pure ⟨u, a, (a.get? directoryName).bind u.text?, (a.get? nameName).bind u.text?, lines⟩

/-- Its source lines, if it has any; fails if they cannot be read. -/
def lineTable? (u : CompiledUnit) : Option (Option LineTable) :=
  match u.lines with
  | none => some none
  | some h => (LineTable.read? u.reader u.directory u.name h).map some

/-- The addresses of the unit: those that it tells, or else those of its line table. -/
def ranges? (u : CompiledUnit) : Option (List Range) := do
  let told ← Range.ofEntry? u.reader u.attributes
  if !told.isEmpty then pure told
  else
    match u.lineTable? with
    | some (some t) => pure (t.sequences.map (·.2))
    | _ => pure []

end CompiledUnit

/-- The units of a program that are not of types; fails if a header cannot be read. -/
def units? (s : Sections) : Option (List CompiledUnit) := do
  pure (((← UnitHeader.all? s).filter (!·.isOfTypes)).filterMap (CompiledUnit.of? s))

/-! ### Places -/

/-- A place in the source as its table numbers it. -/
structure Spot where
  file : Option String
  line : Option Nat
  column : Option Nat

/-- A spot, if its file is known. -/
def Spot.location? (p : Spot) : Option SourceLocation := p.file.map (⟨·, p.line, p.column⟩)

/-- The spot of a row.  A line that is zero is not known, and without it no column. -/
def spotOfRow (paths : List String) (r : LineRow) : Spot :=
  let line := r.line % UInt32.size
  if line = 0 then ⟨paths[r.file]?, none, none⟩
  else ⟨paths[r.file]?, some line, some (r.column % UInt32.size)⟩

/-- A number that is not zero. -/
def nonzero (n : Nat) : Option Nat := if n = 0 then none else some n

/-- The spot where a call was made.  Up to version 4 the file zero is none. -/
def spotOfCall (version : Nat) (paths : List String) (a : Attributes) : Spot :=
  let file := (a.get? callFileName).bind fun
    | .number n => if 0 < n ∨ 5 ≤ version then paths[n]? else none
    | _ => none
  ⟨file, nonzero (a.number callLineName % UInt32.size),
    nonzero (a.number callColumnName % UInt32.size)⟩

/-- The places of what is called, innermost first, where `spot` is that of the innermost one. -/
def placesOf (version : Nat) (paths : List String) : Option Spot → List Callee → List Place
  | _, [] => []
  | spot, callee :: around =>
    ⟨callee.name.map Utf8.decodeLossy, spot.bind Spot.location?⟩
      :: placesOf version paths (some (spotOfCall version paths callee.attributes)) around

/-- The places of an address in a unit, innermost first. -/
def CompiledUnit.places? (u : CompiledUnit) (units : List UnitReader) (address : Nat) :
    Option (List Place) := do
  let entries ← u.reader.entries?
  let functions ← functions? u.reader entries.depth entries.list
  let table ← u.lineTable?
  let paths := (table.map (·.paths)).getD []
  let spot := (table.bind (·.row? address)).map (spotOfRow paths)
  match functionAt? functions address with
  | none => pure ((spot.map fun p => ⟨none, p.location?⟩).toList)
  | some f =>
    pure (placesOf u.reader.encoding.version paths spot (← f.callees? units u.reader address))

/-- The first list that is not empty. -/
def firstFound? {α β : Type} (f : α → Option (List β)) : List α → Option (List β)
  | [] => some []
  | a :: rest => do
    let found ← f a
    if found.isEmpty then firstFound? f rest else pure found

/-- The units that an address lies in, those first whose ranges start last. -/
def unitsAt? (units : List CompiledUnit) (address : Nat) : Option (List CompiledUnit) := do
  let ranges ← (units.filter (!·.reader.header.isPartial)).mapM fun u => do
    pure ((← u.ranges?).map (u, ·))
  pure (((Range.inOrder ranges.flatten).reverse.filter (·.2.contains address)).map (·.1))

/-- The places of an address, innermost first; fails if the source is not known. -/
def places? (s : Sections) (address : Nat) : Option (List Place) := do
  let units ← units? s
  let here ← unitsAt? units address
  firstFound? (fun u => u.places? (units.map (·.reader)) address) here

end Postmortem.Dwarf
