/-
Postmortem/Number/Double.lean

Double-precision numbers as their sixty-four bits, and their text with a
fixed number of decimal places.

A finite double is a whole number times a power of two (`mantissa`,
`exponent`), so its decimal expansion is exact; `fixed` rounds that expansion
at the wanted place, a half to the even neighbour.  The sign of zero is
written; infinities and undefined results have names.
-/
import Postmortem.Number.Rounding

namespace Postmortem

/-- A double-precision number, by its bits. -/
structure Double where
  bits : UInt64
  deriving DecidableEq, Inhabited

namespace Double

/-! ### Parts -/

def isNegative (d : Double) : Bool := d.bits >>> 63 == 1

/-- The eleven exponent bits. -/
def biased (d : Double) : Nat := (d.bits >>> 52).toNat % 2048

/-- The fifty-two fraction bits. -/
def fraction (d : Double) : Nat := d.bits.toNat % 0x10000000000000

def isFinite (d : Double) : Bool := d.biased != 2047

/-- The whole number whose product with `2 ^ exponent` is the magnitude of a finite double. -/
def mantissa (d : Double) : Nat :=
  if d.biased = 0 then d.fraction else 0x10000000000000 + d.fraction

/-- The power of two that goes with `mantissa`. -/
def exponent (d : Double) : Int :=
  (if d.biased = 0 then 1 else (d.biased : Int)) - 1075

/-! ### Text -/

/-- The magnitude of a finite double in units of `10 ^ -places`, rounded. -/
def scaled (d : Double) (places : Nat) : Nat :=
  Number.roundHalfEven ((d.mantissa <<< d.exponent.toNat) * Nat.pow 10 places)
    (1 <<< (-d.exponent).toNat)

/-- The decimal digits of `n`, at least `width` of them. -/
def padded (width n : Nat) : List Char :=
  let digits := Nat.toDigits 10 n
  List.replicate (width - digits.length) '0' ++ digits

/-- The text of a number that is not finite. -/
def special (d : Double) : String :=
  if d.fraction ≠ 0 then "NaN" else if d.isNegative then "-inf" else "inf"

/-- The text with `places` decimals. -/
def fixed (d : Double) (places : Nat) : String :=
  if d.isFinite then
    let units := d.scaled places
    let one := Nat.pow 10 places
    let text := String.ofList
      (Nat.toDigits 10 (units / one) ++ '.' :: padded places (units % one))
    if d.isNegative then "-" ++ text else text
  else d.special

end Double

end Postmortem
