/-
Postmortem/Proofs/SmallIntegers.lean

Small integers in the upper half of the word.

Builds for wide words tag small integers by a bit that is clear and keep the number
in the upper half of the word (`SmallInt.Wide`).  There a word is a small integer if
it is even, and the lower half of one that was encoded is empty.
-/
import Postmortem.Proofs.Tagging

namespace Postmortem.SmallInt

/-- Small integers have the tag zero in the lowest bit, and their number in the upper half. -/
structure Wide (l : Layout) : Prop where
  tag : l.value? .smiTag = some 0
  mask : l.value? .smiTagMask = some 1
  shiftSize : l.value? .smiShiftSize = some 31

namespace Wide

variable {l : Layout}

theorem raw_tag (hl : Wide l) : l.raw .smiTag = 0 := by rw [Layout.raw, hl.tag, Option.getD_some]

/-- One bit of tag, and as many bits above it as fill the lower half. -/
theorem tagging (hl : Wide l) : Tagging l 1 31 0 where
  mask_eq := by
    rw [Layout.raw, hl.mask, Option.getD_some]
    rfl
  tag_eq := hl.raw_tag
  gap_eq := by
    rw [Layout.raw, hl.shiftSize, Option.getD_some]
    rfl
  tag_lt := Nat.two_pow_pos 1
  fits := by decide

theorem check_eq (hl : Wide l) (w : UInt64) : check l w = decide (w.toNat % 2 = 0) := by
  rw [Bool.eq_iff_iff, decide_eq_true_iff]
  exact hl.tagging.check_iff

theorem shift_eq (hl : Wide l) : shift l = 32 := hl.tagging.shift_eq

theorem toNat_encode (hl : Wide l) (n : Int) :
    (encode l n).toNat = (Word.ofInt n).toNat * 2 ^ 32 % 2 ^ 64 := by
  have hshift : (UInt64.ofNat 32).toNat % 64 = 32 := rfl
  have htag : Word.ofInt 0 = 0 := by decide
  rw [encode, hl.raw_tag, htag, UInt64.or_zero, hl.shift_eq, UInt64.toNat_shiftLeft, hshift,
    Nat.shiftLeft_eq]

end Wide

end Postmortem.SmallInt
