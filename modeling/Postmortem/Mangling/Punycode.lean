/-
Postmortem/Mangling/Punycode.lean

Text beyond ASCII in names of ASCII letters.

The ASCII characters of a text stand by themselves.  Beside them is a row of
numbers, in a mixed-radix notation whose thresholds adapt as it goes; each
number says how far the next character and its place are from the last ones.
-/

namespace Postmortem.Punycode

/-- No text has more characters than this. -/
def maxLength : Nat := 128

/-- The value of a digit: letters, then numerals. -/
def digit? (c : Char) : Option Nat :=
  if 'a' ≤ c ∧ c ≤ 'z' then some (c.toNat - 'a'.toNat)
  else if '0' ≤ c ∧ c ≤ '9' then some (26 + (c.toNat - '0'.toNat))
  else none

/-- The value from which on a digit is not the last of its number. -/
def threshold (bias k : Nat) : Nat := min (max (k - bias) 1) 26

/-- The number in front, with digits from place `k` on, of weight `weight`, and what follows it. -/
def number? (bias : Nat) : List Char → Nat → Nat → Nat → Option (Nat × List Char)
  | [], _, _, _ => none
  | c :: cs, k, weight, sum => do
    let d ← digit? c
    let t := threshold bias k
    if d < t then pure (sum + d * weight, cs)
    else number? bias cs (k + 36) (weight * (36 - t)) (sum + d * weight)

theorem length_lt_of_number? {bias : Nat} {cs rest : List Char} {k weight sum n : Nat}
    (h : number? bias cs k weight sum = some (n, rest)) : rest.length < cs.length := by
  induction cs generalizing k weight sum with
  | nil => cases h
  | cons c cs ih =>
    unfold number? at h
    rcases hd : digit? c with _ | d
    · simp [hd] at h
    · simp only [hd, Option.bind_eq_bind, Option.bind_some] at h
      split at h
      · simp only [Option.pure_def, Option.some.injEq, Prod.mk.injEq] at h
        simp [← h.2]
      · have := ih h
        simp only [List.length_cons]
        omega

/-- How often a number has to be divided by 35 to be at most 455, and what is left then. -/
def scaled (n : Nat) : Nat × Nat :=
  if 455 < n then
    let s := scaled (n / 35)
    (s.1 + 1, s.2)
  else (0, n)
termination_by n
decreasing_by omega

/-- The bias for the number after `delta`, when the text has `length` characters. -/
def adapt (delta damp length : Nat) : Nat :=
  let delta := delta / damp
  let (k, delta) := scaled (delta + delta / length)
  36 * k + 36 * delta / (delta + 38)

/-- The characters of `text`, with those that `codes` tells put in. -/
def insertAll (text : List Char) (codes : List Char) (bias damp place code : Nat) :
    Option (List Char) :=
  if codes.isEmpty then some text
  else
    match _h : number? bias codes 36 1 0 with
    | none => none
    | some (delta, rest) =>
      let length := text.length + 1
      let code := code + (place + delta) / length
      let place := (place + delta) % length
      if code.isValidChar ∧ length ≤ maxLength then
        insertAll (text.insertIdx place (Char.ofNat code)) rest (adapt delta damp length) 2
          (place + 1) code
      else none
termination_by codes.length
decreasing_by exact length_lt_of_number? _h

/-- The text of some ASCII characters and the numbers beside them. -/
def decode? (ascii codes : List Char) : Option (List Char) :=
  if codes.isEmpty ∨ maxLength < ascii.length then none else insertAll ascii codes 72 700 0 0x80

end Postmortem.Punycode
