/-
Postmortem/Compression/Sequences.lean

Pieces that are repeated.

A sequence is some literals and then a piece from before: how many literals,
how far back the piece is, and how long it is.  Three state codes tell them in
turn, and bits behind each symbol tell how much more than the least it is.
The last three distances can be told by their places.
-/
import Postmortem.Compression.StateCode

namespace Postmortem.Compression

/-- Some literals, and then a piece from before. -/
structure Sequence where
  literals : Nat
  /-- One of the last distances up to three, else the distance and three more. -/
  back : Nat
  length : Nat

/-- The codes of a block. -/
structure SequenceCodes where
  literals : StateCode
  back : StateCode
  length : StateCode

namespace Sequence

/-! ### Numbers -/

/-- Numbers from `least` on, one for each symbol, with no bits behind them. -/
def plainNumbers (least count : Nat) : List (Nat × Nat) :=
  (List.range count).map fun n => (least + n, 0)

/-- The numbers of literals by symbol: the least one, and how many bits tell how much more. -/
def literalNumbers : List (Nat × Nat) :=
  plainNumbers 0 16 ++
  [(16, 1), (18, 1), (20, 1), (22, 1), (24, 2), (28, 2), (32, 3), (40, 3), (48, 4), (64, 6),
   (128, 7), (256, 8), (512, 9), (1024, 10), (2048, 11), (4096, 12), (8192, 13), (16384, 14),
   (32768, 15), (65536, 16)]

/-- The lengths of pieces by symbol: the least one, and how many bits tell how much more. -/
def lengthNumbers : List (Nat × Nat) :=
  plainNumbers 3 32 ++
  [(35, 1), (37, 1), (39, 1), (41, 1), (43, 2), (47, 2), (51, 3), (59, 3), (67, 4), (83, 4),
   (99, 5), (131, 7), (259, 8), (515, 9), (1027, 10), (2051, 11), (4099, 12), (8195, 13),
   (16387, 14), (32771, 15), (65539, 16)]

/-- The distances by symbol: the least one, and how many bits tell how much more. -/
def backNumbers : List (Nat × Nat) := (List.range 32).map fun n => ((1 : Nat) <<< n, n)

/-- Takes the number of a symbol from the front. -/
def number? (table : List (Nat × Nat)) (symbol : Nat) (bits : Bits) : Option (Nat × Bits) := do
  let (least, extra) ← table[symbol]?
  let (more, rest) ← high? extra bits
  pure (least + more, rest)

/-! ### Codes -/

/-- A share of so many states; none of them is rare. -/
def some_ (counts : List Nat) : List Share := counts.map .states

/-- The code for numbers of literals where a block has none. -/
def literalCode : StateCode :=
  .ofShares 6 (some_ [4, 3, 2, 2, 2, 2, 2, 2, 2, 2, 2, 2, 2, 1, 1, 1, 2, 2, 2, 2, 2, 2, 2, 2, 2, 3,
    2, 1, 1, 1, 1, 1] ++ List.replicate 4 .rare)

/-- The code for distances where a block has none. -/
def backCode : StateCode :=
  .ofShares 5 (some_ [1, 1, 1, 1, 1, 1, 2, 2, 2, 1, 1, 1, 1, 1, 1, 1, 1, 1, 1, 1, 1, 1, 1, 1]
    ++ List.replicate 5 .rare)

/-- The code for lengths where a block has none. -/
def lengthCode : StateCode :=
  .ofShares 6 (some_ ([1, 4, 3, 2, 2, 2, 2, 2, 2] ++ List.replicate 37 1)
    ++ List.replicate 7 .rare)

/-- A code in front of bytes, and what stands behind it: the usual one, one for a single symbol, a
stored one, or the one before. -/
def code? (usual : StateCode) (maxLog most : Nat) (before : Option StateCode) (kind : Nat)
    (bytes : List UInt8) : Option (StateCode × List UInt8) :=
  match kind with
  | 0 => some (usual, bytes)
  | 1 =>
    match bytes with
    | [] => none
    | b :: rest => some (.constant b.toNat, rest)
  | 2 => do
    let (code, size) ← StateCode.read? maxLog most bytes
    pure (code, bytes.drop size)
  | _ => before.map (·, bytes)

/-- The three codes in front of bytes, and what stands behind them. -/
def codes? (before : Option SequenceCodes) (kinds : Nat) (bytes : List UInt8) :
    Option (SequenceCodes × List UInt8) := do
  let (literals, bytes) ←
    code? literalCode 9 36 (before.map (·.literals)) (kinds / 64) bytes
  let (back, bytes) ← code? backCode 8 32 (before.map (·.back)) (kinds / 16 % 4) bytes
  let (length, bytes) ← code? lengthCode 9 53 (before.map (·.length)) (kinds / 4 % 4) bytes
  pure (⟨literals, back, length⟩, bytes)

/-! ### Reading -/

/-- How many sequences there are, and what stands behind that. -/
def count? : List UInt8 → Option (Nat × List UInt8)
  | [] => none
  | a :: rest =>
    if a.toNat < 128 then some (a.toNat, rest)
    else
      match a.toNat == 255, rest with
      | false, b :: rest => some (256 * (a.toNat - 128) + b.toNat, rest)
      | true, b :: c :: rest => some (b.toNat + 256 * c.toNat + 0x7f00, rest)
      | _, _ => none

/-- So many sequences, which have to take all bits, from the states of the three codes. -/
def listFrom? (c : SequenceCodes) :
    Nat → CodeState → CodeState → CodeState → Bits → Option (List Sequence)
  | 0, _, _, _, bits => if bits.isEmpty then some [] else none
  | count + 1, literals, back, length, bits => do
    let (distance, bits) ← number? backNumbers back.symbol bits
    let (size, bits) ← number? lengthNumbers length.symbol bits
    let (plain, bits) ← number? literalNumbers literals.symbol bits
    let found : Sequence := ⟨plain, distance, size⟩
    if count = 0 then pure (found :: (← listFrom? c count literals back length bits))
    else
      let (literals, bits) ← c.literals.next? literals bits
      let (length, bits) ← c.length.next? length bits
      let (back, bits) ← c.back.next? back bits
      pure (found :: (← listFrom? c count literals back length bits))

/-- So many sequences, which have to take all bytes. -/
def list? (c : SequenceCodes) (count : Nat) (bytes : List UInt8) : Option (List Sequence) := do
  let bits ← backwardBits? bytes
  let (literals, bits) ← c.literals.start? bits
  let (back, bits) ← c.back.start? bits
  let (length, bits) ← c.length.start? bits
  listFrom? c count literals back length bits

/-- The sequences that bytes are, and the codes that they have or that were there before. -/
def read? (before : Option SequenceCodes) (bytes : List UInt8) :
    Option (List Sequence × Option SequenceCodes) := do
  let (count, bytes) ← count? bytes
  if count = 0 then
    guard bytes.isEmpty
    pure ([], before)
  else
    match bytes with
    | [] => none
    | kinds :: bytes =>
      let (codes, bytes) ← codes? before kinds.toNat bytes
      pure (← list? codes count bytes, some codes)

/-! ### Distances -/

/-- The last three distances. -/
structure Distances where
  first : Nat
  second : Nat
  third : Nat

/-- The distances before there is any. -/
def Distances.start : Distances := ⟨1, 4, 8⟩

/-- The distance that a sequence tells, as the first of the last three.  Places count from the
second distance on if there are no literals, and behind the third is one less than the first. -/
def distances (s : Sequence) (d : Distances) : Distances :=
  match s.back + (if s.literals = 0 then 1 else 0), s.back with
  | 1, _ => d
  | 2, _ => ⟨d.second, d.first, d.third⟩
  | 3, _ => ⟨d.third, d.first, d.second⟩
  | 4, 3 => ⟨d.first - 1, d.first, d.second⟩
  | _, n => ⟨n - 3, d.first, d.second⟩

end Sequence

end Postmortem.Compression
