/-
Postmortem/Compression/Literals.lean

Bytes that stand for themselves.

A block first has the bytes that it does not repeat from before: as they are,
as one byte many times, or as symbols of a prefix code.  The code is told by
weights: a weight is more by one where a row is shorter by a bit, and the last
weight is what is left over.  Symbols are read backwards, in one stream or in
four.
-/
import Postmortem.Compression.PrefixCode
import Postmortem.Compression.StateCode

namespace Postmortem.Compression

/-! ### Codes by weight -/

namespace Weight

/-- The longest row of a code that is told by weights. -/
def maxRow : Nat := 11

/-- What a weight counts: none for zero, and twice as much for each one more. -/
def worth (weight : Nat) : Nat := (1 : Nat) <<< weight / 2

/-- The weight that is left over, so that all weights together count a power of two. -/
def last? (weights : List Nat) : Option Nat := do
  let sum := total (weights.map worth)
  let rest := (1 : Nat) <<< bitLength sum - sum
  guard (0 < sum ∧ rest = worth (bitLength rest))
  pure (bitLength rest)

/-- The code of weights, without the last one. -/
def code? (weights : List Nat) : Option PrefixCode := do
  guard (weights.all (· ≤ maxRow))
  let longest := bitLength (total (weights.map worth))
  guard (longest ≤ maxRow)
  let weights := weights ++ [← last? weights]
  let rows := (PrefixCode.rowsOf weights).mergeSort fun a b => a.1 ≤ b.1
  pure (.ofRows (rows.map fun (weight, n) => (longest + 1 - weight, n)))

/-- Takes weights from the front, which two states say in turn, until the bits end; at most `limit`
of them. -/
def inTurn? (code : StateCode) : Nat → CodeState → CodeState → Bits → Option (List Nat)
  | 0, _, _, _ => none
  | limit + 1, first, second, bits =>
    match code.next? first bits with
    | none => some [first.symbol, second.symbol]
    | some (next, rest) => do
      pure (first.symbol :: (← inTurn? code limit second next rest))

/-- No code is told by more weights than this. -/
def maxCount : Nat := 255

/-- Weights that are symbols of a state code in front of them. -/
def coded? (bytes : List UInt8) : Option (List Nat) := do
  let (code, size) ← StateCode.read? 6 256 bytes
  let bits ← backwardBits? (bytes.drop size)
  let (first, rest) ← code.start? bits
  let (second, rest) ← code.start? rest
  inTurn? code (maxCount + 2) first second rest

/-- Weights of four bits each, the higher ones first. -/
def plain (count : Nat) (bytes : List UInt8) : List Nat :=
  (bytes.flatMap fun b => [b.toNat / 16, b.toNat % 16]).take count

/-- A code in front of bytes, and what stands behind it. -/
def readCode? : List UInt8 → Option (PrefixCode × List UInt8)
  | [] => none
  | head :: bytes => do
    let size := if head.toNat < 128 then head.toNat else (head.toNat - 127 + 1) / 2
    guard (size ≤ bytes.length)
    let told := bytes.take size
    let weights ← if head.toNat < 128 then coded? told else some (plain (head.toNat - 127) told)
    guard (weights.length ≤ maxCount)
    pure (← code? weights, bytes.drop size)

end Weight

namespace Literals

/-! ### Streams -/

/-- The symbols that bits are; at most `limit` of them. -/
def symbols? (code : PrefixCode) : Nat → Bits → Option (List UInt8)
  | _, [] => some []
  | 0, _ => none
  | limit + 1, bits => do
    let (n, rest) ← code.take? bits
    pure (UInt8.ofNat n :: (← symbols? code limit rest))

/-- The symbols of a stream. -/
def stream? (code : PrefixCode) (bytes : List UInt8) : Option (List UInt8) := do
  let bits ← backwardBits? bytes
  symbols? code bits.length bits

/-- The symbols of four streams, of which the first three have their sizes in front. -/
def streams? (code : PrefixCode) : List UInt8 → Option (List UInt8)
  | a :: a' :: b :: b' :: c :: c' :: bytes => do
    let sizeOf (low high : UInt8) : Nat := low.toNat + 256 * high.toNat
    let (first, second, third) := (sizeOf a a', sizeOf b b', sizeOf c c')
    guard (first + second + third ≤ bytes.length)
    let rest := bytes.drop first
    pure ((← stream? code (bytes.take first)) ++ (← stream? code (rest.take second))
      ++ (← stream? code ((rest.drop second).take third))
      ++ (← stream? code ((rest.drop second).drop third)))
  | _ => none

/-! ### Sections -/

/-- How literals are stored. -/
inductive Storage where
  | plain
  | repeated
  | coded
  /-- With the code of the block before. -/
  | codedAgain

/-- What stands in front of literals. -/
structure Header where
  storage : Storage
  /-- How many literals there are. -/
  count : Nat
  /-- How many bytes they take. -/
  size : Nat
  hasFourStreams : Bool

/-- The storage of a number of two bits. -/
def storageOf : Nat → Storage
  | 0 => .plain
  | 1 => .repeated
  | 2 => .coded
  | _ => .codedAgain

/-- How many bits count literals that have no code, behind how many bits that tell this. -/
def plainWidths : Nat → Nat × Nat
  | 1 => (12, 2)
  | 3 => (20, 2)
  | _ => (5, 1)

/-- How many bits count literals that have a code, and how many their bytes. -/
def codedWidth : Nat → Nat
  | 2 => 14
  | 3 => 18
  | _ => 10

/-- The header in front of bytes, and what stands behind it. -/
def header? (bytes : List UInt8) : Option (Header × List UInt8) := do
  let (kind, rest) ← low? 2 (bitsOf (bytes.take 5))
  let (format, behind) ← low? 2 rest
  let bytesFor (bits : Nat) : Nat := (bits + 7) / 8
  match storageOf kind with
  | .plain | .repeated =>
    let (width, told) := plainWidths format
    let (count, _) ← low? width (rest.drop told)
    let size := if storageOf kind matches .plain then count else 1
    pure (⟨storageOf kind, count, size, false⟩, bytes.drop (bytesFor (2 + told + width)))
  | .coded | .codedAgain =>
    let width := codedWidth format
    let (count, behind) ← low? width behind
    let (size, _) ← low? width behind
    pure (⟨storageOf kind, count, size, 0 < format⟩, bytes.drop (bytesFor (4 + 2 * width)))

/-- The literals that a code tells. -/
def decoded? (h : Header) (code : PrefixCode) (bytes : List UInt8) : Option (List UInt8) := do
  let found ← if h.hasFourStreams then streams? code bytes else stream? code bytes
  guard (found.length = h.count)
  pure found

/-- The literals in front of bytes, the code that they have or that was there before, and what
stands behind them. -/
def read? (before : Option PrefixCode) (bytes : List UInt8) :
    Option (List UInt8 × Option PrefixCode × List UInt8) := do
  let (h, bytes) ← header? bytes
  guard (h.size ≤ bytes.length)
  let stored := bytes.take h.size
  let behind := bytes.drop h.size
  match h.storage with
  | .plain => pure (stored, before, behind)
  | .repeated => pure (stored.flatMap fun b => List.replicate h.count b, before, behind)
  | .coded =>
    let (code, stored) ← Weight.readCode? stored
    pure (← decoded? h code stored, some code, behind)
  | .codedAgain => pure (← decoded? h (← before) stored, before, behind)

end Literals

end Postmortem.Compression
