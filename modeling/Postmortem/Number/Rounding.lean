/-
Postmortem/Number/Rounding.lean

Rounding a quotient to the nearest whole number, a half to the even
neighbour.
-/

namespace Postmortem.Number

/-- The whole number next to `num / den`; a half goes to the even neighbour. -/
def roundHalfEven (num den : Nat) : Nat :=
  let q := num / den
  let twice := 2 * (num % den)
  if twice < den then q
  else if den < twice then q + 1
  else if q % 2 = 0 then q else q + 1

end Postmortem.Number
