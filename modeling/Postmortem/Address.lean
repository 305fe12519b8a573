/-
Postmortem/Address.lean

Addresses of a captured process.

An address is a word.  Arithmetic on it wraps at `2 ^ 64`, as pointers do in
the process; the checked forms refuse instead.  Addresses print as sixteen
hexadecimal digits behind `0x`, and `Address.parse?` reads that form back,
together with the shorter forms people type: blanks around it, either case,
one optional `0x` or `0X`, up to sixteen digits.
-/
import Postmortem.Word
import Postmortem.Text.Blank

namespace Postmortem

/-- A position in the memory of the captured process. -/
structure Address where
  word : UInt64
  deriving DecidableEq, Hashable, Inhabited

namespace Address

/-- The address nothing is stored at. -/
def null : Address := ⟨0⟩

def isNull (a : Address) : Bool := a.word == 0

/-! ### Arithmetic -/

/-- The address `delta` bytes away, wrapping. -/
def offset (a : Address) (delta : Int) : Address :=
  ⟨Word.ofInt (a.word.toNat + delta)⟩

theorem offset_zero (a : Address) : a.offset 0 = a := by
  have hlt := a.word.toNat_lt
  refine congrArg Address.mk ?_
  rw [Int.add_zero, Word.ofInt, UInt64.size, Int.emod_eq_of_lt (by omega) (by omega),
    Int.toNat_natCast, UInt64.ofNat_toNat]

theorem offset_offset (a : Address) (i j : Int) : (a.offset i).offset j = a.offset (i + j) := by
  refine congrArg Address.mk (UInt64.toNat_inj.mp ?_)
  simp only [offset, Word.ofInt, UInt64.toNat_ofNat', UInt64.size]
  omega

/-- Any address is some way from any other. -/
theorem offset_distance (a b : Address) : a.offset (b.word.toNat - a.word.toNat) = b := by
  have hsum : (a.word.toNat : Int) + (b.word.toNat - a.word.toNat) = b.word.toNat + 0 := by omega
  rw [offset, hsum]
  exact offset_zero b

/-- The address `n` bytes further, wrapping. -/
def add (a : Address) (n : UInt64) : Address := ⟨a.word + n⟩

/-- The address `n` bytes before, wrapping. -/
def sub (a : Address) (n : UInt64) : Address := ⟨a.word - n⟩

/-- The address `n` bytes further, if there is one. -/
def checkedAdd? (a : Address) (n : UInt64) : Option Address :=
  if a.word.toNat + n.toNat < UInt64.size then some (a.add n) else none

/-- The address `n` bytes before, if there is one. -/
def checkedSub? (a : Address) (n : UInt64) : Option Address :=
  if n.toNat ≤ a.word.toNat then some (a.sub n) else none

/-! ### Text -/

/-- Sixteen digits behind `0x`. -/
def text (a : Address) : String := Word.hex a.word

instance : ToString Address := ⟨text⟩

/-- The digits of a typed address, without its radix mark. -/
def withoutMark : List Char → List Char
  | '0' :: 'x' :: digits => digits
  | '0' :: 'X' :: digits => digits
  | digits => digits

/-- Reads a typed address: one to sixteen hexadecimal digits, with blanks around them and one
radix mark in front allowed. -/
def parse? (typed : String) : Option Address :=
  let digits := withoutMark (Text.trim typed.toList)
  if digits.isEmpty || digits.length > 16 then none
  else (Word.ofHexDigits? digits).map fun n => ⟨UInt64.ofNat n⟩

end Address

end Postmortem
