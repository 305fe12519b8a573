/-
Postmortem/Word.lean

Sixty-four-bit words, read as unsigned and as signed numbers.

A captured process is made of words.  Addresses and tagged slots are
unsigned words (`UInt64`); offsets, small integers and packed fields are
signed numbers (`Int`).  `Word.signed` and `Word.ofInt` carry one reading to
the other, in two's complement, and the bit operations on signed numbers go
through them.  Byte order is fixed: words are stored least significant byte
first unless a file says otherwise.
-/

namespace Postmortem.Word

/-! ### Signed and unsigned readings -/

/-- The two's complement reading of a word. -/
def signed (w : UInt64) : Int :=
  if w.toNat < UInt64.size / 2 then w.toNat else (w.toNat : Int) - UInt64.size

theorem signed_bounds (w : UInt64) :
    -0x8000000000000000 ≤ signed w ∧ signed w < 0x8000000000000000 := by
  have hw := w.toNat_lt
  unfold signed
  simp only [UInt64.size]
  split <;> omega

/-- The word whose two's complement reading is `i`, modulo `2 ^ 64`. -/
def ofInt (i : Int) : UInt64 :=
  UInt64.ofNat (i % UInt64.size).toNat

/-- The two's complement reading of the low 32 bits of `n`. -/
def signed32 (n : Nat) : Int :=
  let low := n % UInt32.size
  if low < UInt32.size / 2 then low else (low : Int) - UInt32.size

/-- The bits of `value` that `mask` selects. -/
def maskBits (value mask : Int) : Int :=
  signed (ofInt value &&& ofInt mask)

/-- Arithmetic shift to the right; the amount counts modulo the word size. -/
def shiftRight (value amount : Int) : Int :=
  value >>> (amount % 64).toNat

/-- How many of the 64 bits of `w` are set. -/
def popCount (w : UInt64) : Nat :=
  (List.range 64).countP w.toNat.testBit

theorem ofInt_signed (w : UInt64) : ofInt (signed w) = w := by
  have h := w.toNat_lt
  unfold ofInt signed
  simp only [UInt64.size]
  split
  · rw [Int.emod_eq_of_lt (by omega) (by omega), Int.toNat_natCast, UInt64.ofNat_toNat]
  · rw [Int.sub_emod_right, Int.emod_eq_of_lt (by omega) (by omega), Int.toNat_natCast,
      UInt64.ofNat_toNat]

/-! ### Bytes -/

/-- The number whose base 256 digits are `bytes`, least significant first. -/
def ofBytes : List UInt8 → Nat
  | [] => 0
  | b :: bs => b.toNat + 256 * ofBytes bs

/-- The `width` low base 256 digits of `n`, least significant first. -/
def toBytes : Nat → Nat → List UInt8
  | 0, _ => []
  | width + 1, n => UInt8.ofNat n :: toBytes width (n / 256)

theorem ofBytes_lt (bytes : List UInt8) : ofBytes bytes < Nat.pow 256 bytes.length := by
  induction bytes with
  | nil => exact Nat.zero_lt_one
  | cons b bytes ih =>
    have hb := b.toNat_lt
    rw [Nat.pow_eq] at ih
    rw [ofBytes, List.length_cons, Nat.pow_eq, Nat.pow_succ']
    omega

theorem length_toBytes (width n : Nat) : (toBytes width n).length = width := by
  induction width generalizing n with
  | zero => rfl
  | succ width ih => simp [toBytes, ih]

theorem ofBytes_toBytes (width n : Nat) : ofBytes (toBytes width n) = n % Nat.pow 256 width := by
  induction width generalizing n with
  | zero => simp [toBytes, ofBytes, Nat.mod_one]
  | succ width ih =>
    rw [toBytes, ofBytes, ih, Nat.pow_eq, Nat.pow_eq, Nat.pow_succ', Nat.mod_mul]
    simp

/-! ### Hexadecimal text -/

/-- The lower-case hexadecimal digit of `n % 16`. -/
def hexDigit (n : Nat) : Char :=
  ['0', '1', '2', '3', '4', '5', '6', '7', '8', '9', 'a', 'b', 'c', 'd', 'e', 'f'].getD (n % 16) '0'

/-- The low `width` hexadecimal digits of `n`, most significant first. -/
def hexDigits : Nat → Nat → List Char
  | 0, _ => []
  | width + 1, n => hexDigits width (n / 16) ++ [hexDigit n]

/-- A word as sixteen digits behind `0x`. -/
def hex (w : UInt64) : String :=
  "0x" ++ String.ofList (hexDigits 16 w.toNat)

/-- A word behind `0x` with no leading zeros. -/
def shortHex (w : UInt64) : String :=
  "0x" ++ String.ofList (Nat.toDigits 16 w.toNat)

/-- The value of a hexadecimal digit of either case. -/
def hexValue? (c : Char) : Option Nat :=
  if '0' ≤ c ∧ c ≤ '9' then some (c.toNat - '0'.toNat)
  else if 'a' ≤ c ∧ c ≤ 'f' then some (c.toNat - 'a'.toNat + 10)
  else if 'A' ≤ c ∧ c ≤ 'F' then some (c.toNat - 'A'.toNat + 10)
  else none

/-- The number that hexadecimal digits write, most significant first. -/
def ofHexDigits? (digits : List Char) : Option Nat :=
  digits.foldlM (fun n c => (hexValue? c).map (16 * n + ·)) 0

end Postmortem.Word
