/-
Postmortem/Compression/Deflate.lean

Data that repeats itself, written shorter.

Compressed data is a row of blocks.  A block holds bytes as they are, or
symbols of a prefix code: bytes, the end of the block, or the length of a
piece that is repeated, behind which another code tells how far back it is.
The codes are fixed, or the block tells the lengths of their rows, which are
again symbols of a code.

An expansion stops early when the data is corrupt, when it ends before it
should, or when there is no more room; what was expanded until then is kept.
-/
import Postmortem.Compression.PrefixCode

namespace Postmortem.Compression

/-- Why an expansion stops early. -/
inductive Stop where
  | corrupt
  | truncated
  | full
  deriving DecidableEq

/-- How far an expansion has come. -/
structure Expansion where
  /-- What is left of the byte that is read. -/
  bits : Bits
  /-- The bytes behind it. -/
  bytes : List UInt8
  output : Array UInt8
  /-- How many bytes there is room for. -/
  room : Nat

/-- Reads compressed data and writes what it stands for. -/
abbrev Expanding (α : Type) : Type := EStateM Stop Expansion α

namespace Expanding

/-! ### Reading -/

def bit : Expanding Bool := do
  let e ← get
  match e.bits, e.bytes with
  | b :: bits, _ =>
    set { e with bits := bits }
    pure b
  | [], byte :: bytes =>
    set { e with bits := (byteBits byte).tail, bytes := bytes }
    pure (byte.toNat.testBit 0)
  | [], [] => throw .truncated

/-- A number of so many bits, lowest first. -/
def number : Nat → Expanding Nat
  | 0 => pure 0
  | count + 1 => do
    let b ← bit
    pure (b.toNat + 2 * (← number count))

/-- Passes what is left of the byte that is read. -/
def align : Expanding Unit := modify fun e => { e with bits := [] }

def symbol : PrefixCode → Expanding Nat
  | .symbol n => pure n
  | .none => throw .corrupt
  | .branch zero one => do
    if ← bit then symbol one else symbol zero

/-! ### Writing -/

def emit (b : UInt8) : Expanding Unit := do
  let e ← get
  if 0 < e.room then set { e with output := e.output.push b, room := e.room - 1 }
  else throw .full

/-- Writes again what was written `distance` bytes ago, and what follows it. -/
def repeated (distance : Nat) : Nat → Expanding Unit
  | 0 => pure ()
  | count + 1 => do
    let e ← get
    emit (e.output.getD (e.output.size - distance) 0)
    repeated distance count

/-! ### Symbols -/

/-- The symbol that ends a block. -/
def endSymbol : Nat := 256

/-- The lengths of repeated pieces, by the symbols behind the end of a block: the least one, and
how many bits tell how much more it is. -/
def lengths : List (Nat × Nat) :=
  [(3, 0), (4, 0), (5, 0), (6, 0), (7, 0), (8, 0), (9, 0), (10, 0), (11, 1), (13, 1), (15, 1),
   (17, 1), (19, 2), (23, 2), (27, 2), (31, 2), (35, 3), (43, 3), (51, 3), (59, 3), (67, 4),
   (83, 4), (99, 4), (115, 4), (131, 5), (163, 5), (195, 5), (227, 5), (258, 0)]

/-- How far back repeated pieces are, by symbol: the least distance, and how many bits tell how
much more it is. -/
def distances : List (Nat × Nat) :=
  [(1, 0), (2, 0), (3, 0), (4, 0), (5, 1), (7, 1), (9, 2), (13, 2), (17, 3), (25, 3), (33, 4),
   (49, 4), (65, 5), (97, 5), (129, 6), (193, 6), (257, 7), (385, 7), (513, 8), (769, 8),
   (1025, 9), (1537, 9), (2049, 10), (3073, 10), (4097, 11), (6145, 11), (8193, 12), (12289, 12),
   (16385, 13), (24577, 13)]

/-- The number that a symbol of a table and the bits behind it tell. -/
def told (table : List (Nat × Nat)) (symbol : Nat) : Expanding Nat := do
  match table[symbol]? with
  | none => throw .corrupt
  | some (least, extra) => pure (least + (← number extra))

/-- The symbols of a block up to its end; at most `limit` of them. -/
def symbols (literal distance : PrefixCode) : Nat → Expanding Unit
  | 0 => throw .corrupt
  | limit + 1 => do
    let n ← symbol literal
    if n < endSymbol then
      emit (UInt8.ofNat n)
      symbols literal distance limit
    else if n = endSymbol then pure ()
    else
      let length ← told lengths (n - endSymbol - 1)
      let back ← told distances (← symbol distance)
      if (← get).output.size < back then throw .corrupt
      repeated back length
      symbols literal distance limit

/-! ### Codes -/

/-- The longest row of a code. -/
def maxRow : Nat := 15

/-- The code of some lengths of rows.  Unless there is one row or none, they have to be just
enough. -/
def codeOf (rows : List Nat) : Expanding PrefixCode :=
  if 1 < (PrefixCode.rowsOf rows).length ∧ !PrefixCode.isComplete maxRow rows then throw .corrupt
  else pure (.ofLengths rows)

/-- The lengths of the rows of the fixed code for bytes and lengths. -/
def fixedRows : List Nat :=
  List.replicate 144 8 ++ List.replicate 112 9 ++ List.replicate 24 7 ++ List.replicate 8 8

/-- The order in which a block tells the lengths of the rows of the code for lengths of rows. -/
def rowOrder : List Nat := [16, 17, 18, 0, 8, 7, 9, 6, 10, 5, 11, 4, 12, 3, 13, 2, 14, 1, 15]

/-- Numbers of so many bits each, one after the other. -/
def numbers (bits : Nat) : Nat → Expanding (List Nat)
  | 0 => pure []
  | count + 1 => do
    let n ← number bits
    pure (n :: (← numbers bits count))

/-- Lengths of rows that symbols of `code` tell: themselves, the last one again, or zeros.  `found`
are those that were told, last first; `count` is how many there have to be, and at most `limit`
symbols are read. -/
def rows (code : PrefixCode) (count : Nat) : Nat → List Nat → Expanding (List Nat)
  | 0, _ => throw .corrupt
  | limit + 1, found => do
    if count < found.length then throw .corrupt
    else if found.length = count then pure found.reverse
    else
      match ← symbol code with
      | 16 =>
        match found.head? with
        | none => throw .corrupt
        | some last => rows code count limit (List.replicate (3 + (← number 2)) last ++ found)
      | 17 => rows code count limit (List.replicate (3 + (← number 3)) 0 ++ found)
      | 18 => rows code count limit (List.replicate (11 + (← number 7)) 0 ++ found)
      | n => rows code count limit (n :: found)

/-- The two codes that a block tells. -/
def toldCodes : Expanding (PrefixCode × PrefixCode) := do
  let literals := 257 + (← number 5)
  let distances := 1 + (← number 5)
  let count := 4 + (← number 4)
  if 286 < literals ∨ 30 < distances then throw .corrupt
  let told := rowOrder.zip (← numbers 3 count)
  let inOrder := (List.range rowOrder.length).map fun n =>
    ((told.find? (·.1 == n)).map (·.2)).getD 0
  if !PrefixCode.isComplete maxRow inOrder then throw .corrupt
  let rows ← rows (.ofLengths inOrder) (literals + distances) (literals + distances + 1) []
  pure (← codeOf (rows.take literals), ← codeOf (rows.drop literals))

/-! ### Blocks -/

/-- Bytes as they are. -/
def plain : Nat → Expanding Unit
  | 0 => pure ()
  | count + 1 => do
    if (← get).room = 0 then throw .full
    emit (UInt8.ofNat (← number 8))
    plain count

/-- A block; at most `limit` symbols are read. -/
def block (limit : Nat) : Expanding Unit := do
  match ← number 2 with
  | 0 =>
    align
    let length ← number 16
    let check ← number 16
    if length + check ≠ 0xffff then throw .corrupt
    plain length
  | 1 => symbols (.ofLengths fixedRows) (.ofLengths (List.replicate 32 5)) limit
  | 2 =>
    let (literal, distance) ← toldCodes
    symbols literal distance limit
  | _ => throw .corrupt

/-- The blocks up to the last one; at most `limit` of them, each with at most `limit` symbols. -/
def blocks (limit : Nat) : Nat → Expanding Unit
  | 0 => throw .corrupt
  | count + 1 => do
    let isLast ← bit
    block limit
    if !isLast then blocks limit count

end Expanding

end Postmortem.Compression
