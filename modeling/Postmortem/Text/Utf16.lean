/-
Postmortem/Text/Utf16.lean

Text as UTF-16 code units.

`Utf16.decodeWith` drops a leading byte-order mark and leaves the units behind it
to a lossy decoder.  `Utf16.decode` does so with a decoder that works by the
common rule (`Utf16.replaced`): a high surrogate followed by a low one is one
character, and any other surrogate becomes U+FFFD.  `Utf16.narrow` keeps the low
byte of each unit instead, one character per unit, for arithmetic on positions.
`Utf16.encode` is the other direction, used to store text.
-/

namespace Postmortem.Utf16

/-- Marks byte order at the start of a text and is not part of it. -/
def byteOrderMark : UInt16 := 0xfeff

/-- Stands for a unit that is no character. -/
def replacement : Char := '\ufffd'

def isHigh (u : UInt16) : Bool := 0xd800 ≤ u && u < 0xdc00

def isLow (u : UInt16) : Bool := 0xdc00 ≤ u && u < 0xe000

/-- The character that a surrogate pair encodes. -/
def paired (high low : UInt16) : Char :=
  Char.ofNat (0x10000 + 0x400 * (high.toNat - 0xd800) + (low.toNat - 0xdc00))

/-- The characters of `units`, each unpaired surrogate replaced. -/
def decodeUnits : List UInt16 → List Char
  | [] => []
  | [u] => [if isHigh u || isLow u then replacement else Char.ofNat u.toNat]
  | u :: v :: rest =>
    if isHigh u && isLow v then paired u v :: decodeUnits rest
    else if isHigh u || isLow u then replacement :: decodeUnits (v :: rest)
    else Char.ofNat u.toNat :: decodeUnits (v :: rest)

/-- The text of `units`, each unpaired surrogate replaced. -/
def replaced (units : List UInt16) : String := String.ofList (decodeUnits units)

/-- Drops the one byte-order mark in front of `units`. -/
def withoutMark : List UInt16 → List UInt16
  | [] => []
  | u :: rest => if u = byteOrderMark then rest else u :: rest

/-- The text that `units` store, as `lossy` decodes what is behind the mark. -/
def decodeWith (lossy : List UInt16 → String) (units : List UInt16) : String :=
  lossy (withoutMark units)

/-- The text that `units` store. -/
def decode (units : List UInt16) : String := decodeWith replaced units

/-- One character per unit, made of its low byte. -/
def narrow (units : List UInt16) : List Char :=
  units.map fun u => Char.ofNat (u.toNat % 256)

/-- The units of one character. -/
def encodeChar (c : Char) : List UInt16 :=
  let n := c.toNat
  if n < 0x10000 then [UInt16.ofNat n]
  else
    let above := n - 0x10000
    [UInt16.ofNat (0xd800 + above / 0x400), UInt16.ofNat (0xdc00 + above % 0x400)]

/-- The units that store a text. -/
def encode (cs : List Char) : List UInt16 := cs.flatMap encodeChar

theorem length_narrow (units : List UInt16) : (narrow units).length = units.length := by
  simp [narrow]

end Postmortem.Utf16
