/-
Postmortem/Dwarf/Range.lean

Ranges of addresses.

An entry covers one range, from its low address to its high one or by its
size, or the ranges of a list.  A list is a row of pairs, which may be
relative to a base, or from version 5 on a row of marked entries.  Ranges
that are empty, and ranges of code that was discarded, do not count.  Ranges
are taken not to overlap, so that one of them decides about an address.
-/
import Postmortem.Dwarf.Unit

namespace Postmortem.Dwarf

/-- The addresses from `start` to before `stop`. -/
structure Range where
  start : Nat
  stop : Nat

namespace Range

def contains (r : Range) (address : Nat) : Bool := r.start ≤ address && address < r.stop

/-- The number of addresses there are. -/
def space (e : Encoding) : Nat := 1 <<< (8 * e.addressSize)

/-- The first address that means that code was discarded. -/
def discarded (e : Encoding) : Nat := if e.version ≤ 4 then space e - 2 else space e - 1

/-- A range, if it counts. -/
def counted (e : Encoding) (start stop : Nat) : List Range :=
  if start < stop ∧ start < discarded e then [⟨start, stop⟩] else []

/-- A range relative to a base, if it counts. -/
def relative (e : Encoding) (base start stop : Nat) : List Range :=
  if discarded e ≤ base then []
  else counted e ((base + start) % space e) ((base + stop) % space e)

/-! ### Lists of pairs -/

/-- The ranges of a list of pairs, up to a pair of zeros or to the end; at most `limit` pairs. -/
def pairsFrom (e : Encoding) : Nat → Nat → List Range → Cursor (List Range)
  | 0, _, _ => failure
  | limit + 1, base, found => do
    if ← Cursor.isAtEnd then pure found
    else
      let start ← Cursor.number e.addressSize
      let stop ← Cursor.number e.addressSize
      if start = 0 ∧ stop = 0 then pure found
      else if start = space e - 1 then pairsFrom e limit stop found
      else pairsFrom e limit base (found ++ relative e base start stop)

/-! ### Lists of marked entries -/

/-- The mark of the next entry; at the end, that of the last entry. -/
def mark : Cursor Nat := do
  if ← Cursor.isAtEnd then pure 0 else Cursor.byte

/-- The ranges of a list of marked entries; at most `limit` entries. -/
def markedFrom (u : UnitReader) : Nat → Nat → List Range → Cursor (List Range)
  | 0, _, _ => failure
  | limit + 1, base, found => do
    let e := u.encoding
    let indexed : Cursor Nat := do (u.addressAt? (← Cursor.unsigned)).elim failure pure
    match ← mark with
    | 0 => pure found
    | 1 => markedFrom u limit (← indexed) found
    | 2 =>
      let start ← indexed
      let stop ← indexed
      markedFrom u limit base (found ++ counted e start stop)
    | 3 =>
      let start ← indexed
      let size ← Cursor.unsigned
      markedFrom u limit base (found ++ counted e start ((start + size) % space e))
    | 4 =>
      let start ← Cursor.unsigned
      let stop ← Cursor.unsigned
      markedFrom u limit base (found ++ relative e base start stop)
    | 5 => markedFrom u limit (← Cursor.number e.addressSize) found
    | 6 =>
      let start ← Cursor.number e.addressSize
      let stop ← Cursor.number e.addressSize
      markedFrom u limit base (found ++ counted e start stop)
    | 7 =>
      let start ← Cursor.number e.addressSize
      let size ← Cursor.unsigned
      markedFrom u limit base (found ++ counted e start ((start + size) % space e))
    | _ => failure

/-- The ranges of a list. -/
def list? (u : UnitReader) (offset : Nat) : Option (List Range) :=
  let readIn (table : String) (c : Cursor (List Range)) : Option (List Range) :=
    Cursor.readIn (u.sections.find table) u.sections.order offset c
  if u.encoding.version ≤ 4 then
    readIn ".debug_ranges" do pairsFrom u.encoding ((← Cursor.left) + 1) u.low []
  else
    readIn ".debug_rnglists" do markedFrom u ((← Cursor.left) + 1) u.low []

/-! ### Entries -/

/-- The offset of the list of an entry, if it has one; fails if a table does not have it. -/
def listOf? (u : UnitReader) (a : Attributes) : Option (Option Nat) :=
  match a.get? rangesName with
  | some (.offset n) => some (some n)
  | some (.rangesIndex index) => (u.rangesAt? index).map some
  | _ => some none

/-- The ranges that an entry covers. -/
def ofEntry? (u : UnitReader) (a : Attributes) : Option (List Range) := do
  let low ← u.address? a lowName
  let high ← u.address? a highName
  match ← listOf? u a with
  | some offset => list? u offset
  | none =>
    let range (start stop : Nat) : List Range := if start < stop then [⟨start, stop⟩] else []
    match low, high, a.get? highName with
    | some start, some stop, _ => pure (range start stop)
    | some start, none, some (.number size) => pure (range start ((start + size) % UInt64.size))
    | _, _, _ => pure []

/-! ### Looking up -/

/-- Of things in the order of their ranges, what covers an address.  Only the last range that
starts at the address or before it counts. -/
def covering? {α : Type} (l : List (α × Range)) (address : Nat) : Option α := do
  let (a, r) ← (l.takeWhile (·.2.start ≤ address)).getLast?
  guard (r.contains address)
  pure a

/-- Things in the order of their ranges. -/
def inOrder {α : Type} (l : List (α × Range)) : List (α × Range) :=
  l.mergeSort fun a b => a.2.start ≤ b.2.start

end Range

end Postmortem.Dwarf
