/-
Postmortem/Number/Shortest.lean

The fewest decimal digits that read back as a double.

Every real number in `Interval.of d` rounds to the double `d`; the ends belong
to it when the mantissa is even.  For one digit, two digits and so on up to
seventeen, the two decimal neighbours of `d` on that grid are tested: the
first grid with a neighbour in the interval wins, and of two neighbours the
nearer one, the even one on a tie.  `Decimal.text` writes the digits in
positional form from `1e-5` up to `1e16` and in scientific form elsewhere.
-/
import Postmortem.Number.Double

namespace Postmortem.Number

/-- A decimal number `digits * 10 ^ exponent`. -/
structure Decimal where
  digits : Nat
  exponent : Int
  deriving DecidableEq

/-- The reals that round to a double, in units of `2 ^ exponent`. -/
structure Interval where
  low : Nat
  mid : Nat
  high : Nat
  exponent : Int
  closed : Bool

namespace Interval

/-- Half of the way to each neighbouring double; the lower neighbour of a power of two is nearer. -/
def of (d : Double) : Interval :=
  let m := d.mantissa
  let low := if d.fraction = 0 && 1 < d.biased then 4 * m - 1 else 4 * m - 2
  ⟨low, 4 * m, 4 * m + 2, d.exponent - 2, m % 2 == 0⟩

/-- Numerators over a common denominator for `n * 2 ^ q` and `k * 10 ^ e`. -/
def aligned (n : Nat) (q : Int) (k : Nat) (e : Int) : Nat × Nat :=
  ((n <<< q.toNat) * Nat.pow 10 (-e).toNat, (k <<< (-q).toNat) * Nat.pow 10 e.toNat)

/-- Whether a decimal number lies in the interval. -/
def contains (i : Interval) (x : Decimal) : Bool :=
  let (low, x₁) := aligned i.low i.exponent x.digits x.exponent
  let (high, x₂) := aligned i.high i.exponent x.digits x.exponent
  if i.closed then low ≤ x₁ && x₂ ≤ high else low < x₁ && x₂ < high

/-- The two neighbours of the midpoint among the multiples of `10 ^ e`, the nearer one first. -/
def neighbours (i : Interval) (e : Int) : List Decimal :=
  let num := (i.mid <<< i.exponent.toNat) * Nat.pow 10 (-e).toNat
  let den := Nat.pow 10 e.toNat <<< (-i.exponent).toNat
  let near := roundHalfEven num den
  let floor := num / den
  let other := if near = floor then floor + 1 else floor
  [⟨near, e⟩, ⟨other, e⟩]

/-- How many digits the whole part of the midpoint has; zero or less below one tenth. -/
def magnitude (i : Interval) : Int :=
  let num := i.mid <<< i.exponent.toNat
  let den := 1 <<< (-i.exponent).toNat
  if den ≤ num then (Nat.toDigits 10 (num / den)).length
  else
    let whole := den / num
    let digits := (Nat.toDigits 10 whole).length
    if Nat.pow 10 (digits - 1) * num = den then 2 - (digits : Int) else 1 - (digits : Int)

/-- The first grid, from one digit on, with a point in the interval. -/
def search (i : Interval) (magnitude : Int) : Nat → Nat → Decimal
  | 0, count => (i.neighbours (magnitude - count)).headD ⟨0, 0⟩
  | fuel + 1, count =>
    match (i.neighbours (magnitude - count)).find? i.contains with
    | some x => x
    | none => search i magnitude fuel (count + 1)

end Interval

/-- The shortest decimal number that rounds to the magnitude of `d`. -/
def shortest (d : Double) : Decimal :=
  let i := Interval.of d
  i.search i.magnitude 16 1

namespace Decimal

/-- Takes trailing zeros off `digits`, at most `fuel` of them. -/
def reduced : Nat → Decimal → Decimal
  | 0, x => x
  | fuel + 1, x =>
    if x.digits ≠ 0 && x.digits % 10 == 0 then reduced fuel ⟨x.digits / 10, x.exponent + 1⟩ else x

/-- Positional text while the point is at most sixteen places right of the first digit and at most
five left of it, scientific text otherwise. -/
def text (x : Decimal) : List Char :=
  let digits := Nat.toDigits 10 x.digits
  let point : Int := digits.length + x.exponent
  if 0 ≤ x.exponent && point ≤ 16 then
    digits ++ List.replicate x.exponent.toNat '0' ++ ['.', '0']
  else if 0 < point && point ≤ 16 then
    digits.take point.toNat ++ '.' :: digits.drop point.toNat
  else if -5 < point && point ≤ 0 then
    '0' :: '.' :: List.replicate (-point).toNat '0' ++ digits
  else
    let exponent := (toString (point - 1)).toList
    match digits with
    | [d] => d :: 'e' :: exponent
    | d :: rest => d :: '.' :: rest ++ 'e' :: exponent
    | [] => []

end Decimal

/-- The shortest text of a finite double. -/
def shortestText (d : Double) : String :=
  let magnitude :=
    if d.mantissa = 0 then ['0', '.', '0'] else ((shortest d).reduced 17).text
  String.ofList (if d.isNegative then '-' :: magnitude else magnitude)

end Postmortem.Number
