/-
Postmortem/Dwarf/Cursor.lean

Reading numbers and texts one after the other.

A cursor stands at a position of some bytes and moves on with each thing that
is read; nothing is read from the stop position on.  Numbers have a fixed
width, or take seven bits from each byte, lowest first, until a byte has its
high bit clear.
-/
import Postmortem.Elf.Data

namespace Postmortem.Dwarf

/-- Where a cursor moves. -/
structure Field where
  bytes : FileData
  stop : Nat
  order : ByteOrder

/-- Reads something at a cursor and moves it, if all of it is there. -/
abbrev Cursor (α : Type) : Type := ReaderT Field (StateT Nat Option) α

namespace Cursor

variable {α : Type}

/-- What `c` reads at a position. -/
def readAt (f : Field) (position : Nat) (c : Cursor α) : Option α := ((c f).run position).map (·.1)

/-- What `c` reads in a whole section from a position on. -/
def readIn (bytes : FileData) (order : ByteOrder) (position : Nat) (c : Cursor α) : Option α :=
  if position ≤ bytes.size then c.readAt ⟨bytes, bytes.size, order⟩ position else none

def position : Cursor Nat := get

/-- How many bytes are left. -/
def left : Cursor Nat := do pure ((← read).stop - (← get))

def isAtEnd : Cursor Bool := do pure ((← left) == 0)

/-- The next bytes. -/
def bytes (count : Nat) : Cursor (List UInt8) := do
  guard (count ≤ (← left))
  let start ← get
  set (start + count)
  pure ((← read).bytes.extract start (start + count)).toList

/-- Moves on. -/
def skip (count : Nat) : Cursor Unit := do
  guard (count ≤ (← left))
  modify (· + count)

/-- Reads within the next bytes only, and moves behind them. -/
def within (count : Nat) (c : Cursor α) : Cursor α := do
  guard (count ≤ (← left))
  let start ← get
  let a ← withReader (fun f => { f with stop := start + count }) c
  set (start + count)
  pure a

/-! ### Numbers -/

/-- A number of so many bytes. -/
def number (width : Nat) : Cursor Nat := do pure ((← read).order.number (← bytes width))

def byte : Cursor Nat := number 1

/-- The number in groups of seven bits, and how many bits they are; at most `limit` groups. -/
def groups : Nat → Cursor (Nat × Nat)
  | 0 => failure
  | limit + 1 => do
    let b ← byte
    if b < 128 then pure (b, 7)
    else
      let (n, bits) ← groups limit
      pure (b % 128 + 128 * n, bits + 7)

/-- An unsigned number in groups of seven bits. -/
def unsigned : Cursor Nat := do
  let (n, _) ← groups 10
  guard (n < UInt64.size)
  pure n

/-- An unsigned number of at most sixteen bits in groups of seven bits. -/
def unsignedShort : Cursor Nat := do
  let (n, _) ← groups 3
  guard (n < UInt16.size)
  pure n

/-- A signed number in groups of seven bits; the highest bit is the sign. -/
def signed : Cursor Int := do
  let (n, bits) ← groups 10
  let top : Nat := 1 <<< bits
  let i : Int := if 2 * n < top then n else (n : Int) - top
  guard (-0x8000000000000000 ≤ i ∧ i < 0x8000000000000000)
  pure i

/-- A byte with a sign. -/
def signedByte : Cursor Int := do
  let b ← byte
  pure (if b < 128 then b else (b : Int) - 256)

/-- The length of what follows, and how many bytes offsets in it take. -/
def length : Cursor (Nat × Nat) := do
  let n ← number 4
  if n < 0xfffffff0 then pure (n, 4)
  else
    guard (n = 0xffffffff)
    pure (← number 8, 8)

/-! ### Texts -/

/-- The bytes up to a zero, which is passed. -/
def text : Cursor (List UInt8) := do
  let f ← read
  let start ← get
  let found ← f.bytes.untilZero? (f.stop - start) start
  set (start + found.length + 1)
  pure found

/-! ### Repetition -/

/-- Reads so many things. -/
def times (c : Cursor α) : Nat → Cursor (List α)
  | 0 => pure []
  | count + 1 => do
    let a ← c
    pure (a :: (← times c count))

/-- Reads things until there is none; at most `limit` of them. -/
def manyFrom (c : Cursor (Option α)) : Nat → List α → Cursor (List α)
  | 0, _ => failure
  | limit + 1, found => do
    match ← c with
    | none => pure found.reverse
    | some a => manyFrom c limit (a :: found)

/-- Reads things until there is none.  Each takes a byte at least. -/
def many (c : Cursor (Option α)) : Cursor (List α) := do manyFrom c ((← left) + 1) []

/-- Reads things up to the end.  Each takes a byte at least. -/
def toEnd (c : Cursor α) : Cursor (List α) :=
  many do if ← isAtEnd then pure none else do pure (some (← c))

end Cursor

end Postmortem.Dwarf
