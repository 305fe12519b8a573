/-
Postmortem/Proofs/Tagging.lean

Small integers and their words are one to one.

A build that tags small integers by `tag` in the lowest `width` bits, and leaves `gap`
further bits empty, keeps the number in the bits above (`Tagging`).  The mask has as
many bits as the tag is wide (`shift_eq`), so the word of a number is that number times
`2 ^ (gap + width)`, plus the tag, modulo the size of words (`encode_eq`).  Read as a
signed number, the word of a number that fits is just that, whatever its sign; and a
word is of that form if and only if it has the tag and nothing in the gap
(`emod_two_pow_eq_iff`).

Main result: `coding_one_to_one`.
-/
import Mathlib.Data.Nat.Bitwise
import Mathlib.Tactic.SplitIfs
import Mathlib.Tactic.Zify
import Postmortem.Proofs.Collections
import Postmortem.Proofs.Listing

namespace Postmortem

/-! ### Words of signed numbers -/

namespace Word

variable {i : ℤ}

theorem natCast_toNat_ofInt (i : ℤ) : ((ofInt i).toNat : ℤ) = i % 2 ^ 64 := by
  rw [ofInt, UInt64.toNat_ofNat', UInt64.size]
  omega

theorem toNat_ofInt {n : ℕ} (hn : n < 2 ^ 64) : (ofInt (n : ℤ)).toNat = n := by
  have hword := natCast_toNat_ofInt (n : ℤ)
  omega

/-- Words tell apart as many signed numbers as there are words. -/
theorem signed_ofInt (hle : -2 ^ 63 ≤ i) (hlt : i < 2 ^ 63) : signed (ofInt i) = i := by
  have hword := natCast_toNat_ofInt i
  rw [signed, UInt64.size]
  split_ifs <;> omega

/-- Both readings of a word have the same low bits. -/
theorem signed_emod_two_pow (w : UInt64) {m : ℕ} (hm : m ≤ 64) :
    signed w % 2 ^ m = (w.toNat % 2 ^ m : ℕ) := by
  have hdvd : (2 ^ m : ℤ) ∣ 2 ^ 64 := pow_dvd_pow 2 hm
  have hword := natCast_toNat_ofInt (signed w)
  rw [ofInt_signed] at hword
  rw [← Int.emod_emod_of_dvd _ hdvd, ← hword]
  norm_cast

theorem ofInt_shiftLeft (i : ℤ) {m : ℕ} (hm : m < 64) :
    ofInt i <<< UInt64.ofNat m = ofInt (i * 2 ^ m) := by
  have hamount : (UInt64.ofNat m).toNat % 64 = m := by
    rw [UInt64.toNat_ofNat']
    omega
  apply UInt64.toNat_inj.mp
  apply Int.natCast_inj.mp
  rw [UInt64.toNat_shiftLeft, hamount, Nat.shiftLeft_eq, Int.natCast_emod, Int.natCast_mul,
    Int.natCast_pow, Int.natCast_pow, Nat.cast_ofNat, natCast_toNat_ofInt, natCast_toNat_ofInt,
    Int.mul_emod, Int.emod_emod, ← Int.mul_emod]

/-- Bits below those of a shifted word are added to it. -/
theorem ofInt_or (i : ℤ) {m n : ℕ} (hm : m < 64) (hn : n < 2 ^ m) :
    ofInt (i * 2 ^ m) ||| ofInt n = ofInt (i * 2 ^ m + n) := by
  have hn' : n < 2 ^ 64 := hn.trans_le (Nat.pow_le_pow_right Nat.two_pos hm.le)
  have hdvd : 2 ^ m ∣ (ofInt (i * 2 ^ m)).toNat := by
    zify
    rw [natCast_toNat_ofInt]
    apply Int.dvd_of_emod_eq_zero
    rw [Int.emod_emod_of_dvd _ (pow_dvd_pow 2 hm.le), Int.mul_emod_left]
  have hsum : (ofInt (i * 2 ^ m) ||| ofInt n).toNat = (ofInt (i * 2 ^ m)).toNat + n := by
    obtain ⟨k, hk⟩ := hdvd
    rw [UInt64.toNat_or, toNat_ofInt hn', hk, ← Nat.two_pow_add_eq_or_of_lt hn]
  have hlt := (ofInt (i * 2 ^ m) ||| ofInt n).toNat_lt
  have hword := natCast_toNat_ofInt (i * 2 ^ m)
  have hword' := natCast_toNat_ofInt (i * 2 ^ m + n)
  apply UInt64.toNat_inj.mp
  rw [hsum] at hlt ⊢
  generalize i * 2 ^ m = j at *
  omega

/-- The mask of the `m` lowest bits. -/
theorem toNat_ofInt_mask {m : ℕ} (hm : m ≤ 64) : (ofInt (2 ^ m - 1)).toNat = 2 ^ m - 1 := by
  have hpos : 0 < 2 ^ m := Nat.two_pow_pos m
  have hle : 2 ^ m ≤ 2 ^ 64 := Nat.pow_le_pow_right Nat.two_pos hm
  have hmask : ((2 ^ m - 1 : ℕ) : ℤ) = 2 ^ m - 1 := Int.natCast_pred_of_pos hpos
  rw [← hmask, toNat_ofInt (by omega)]

theorem popCount_mask {m : ℕ} (hm : m ≤ 64) : popCount (ofInt (2 ^ m - 1)) = m := by
  have hbits : (2 ^ m - 1 : ℕ).testBit = fun i => decide (i < m) := by
    funext i
    exact Nat.testBit_two_pow_sub_one m i
  rw [popCount, toNat_ofInt_mask hm, hbits, countP_lt_range, Nat.min_eq_left hm]

end Word

/-! ### Tags -/

namespace SmallInt

/-- Small integers have `tag` in the lowest `width` bits, `gap` empty bits above it, and their
number above those. -/
structure Tagging (l : Layout) (width gap tag : ℕ) : Prop where
  mask_eq : l.raw .smiTagMask = 2 ^ width - 1
  tag_eq : l.raw .smiTag = tag
  gap_eq : l.raw .smiShiftSize = gap
  tag_lt : tag < 2 ^ width
  fits : gap + width ≤ 63

/-- The bits above the tag and below the number are empty. -/
def GapEmpty (width gap : ℕ) (w : UInt64) : Prop :=
  ∀ i, width ≤ i → i < gap + width → w.toNat.testBit i = false

/-- A word has the tag and nothing in the gap if it has the tag below its number. -/
theorem emod_two_pow_eq_iff {width gap tag : ℕ} (htag : tag < 2 ^ width) (w : UInt64) :
    w.toNat % 2 ^ (gap + width) = tag ↔ w.toNat % 2 ^ width = tag ∧ GapEmpty width gap w := by
  constructor
  · intro hlow
    constructor
    · rw [← Nat.mod_mod_of_dvd _ (pow_dvd_pow 2 (Nat.le_add_left width gap)), hlow,
        Nat.mod_eq_of_lt htag]
    · intro i hle hlt
      have hbit := congrArg (·.testBit i) hlow
      simp only [Nat.testBit_mod_two_pow, hlt, decide_true, Bool.true_and] at hbit
      rw [hbit]
      exact Nat.testBit_lt_two_pow (htag.trans_le (Nat.pow_le_pow_right Nat.two_pos hle))
  · rintro ⟨hlow, hgap⟩
    apply Nat.eq_of_testBit_eq
    intro i
    rw [← hlow, Nat.testBit_mod_two_pow, Nat.testBit_mod_two_pow]
    by_cases hi : i < width
    · simp [hi, Nat.lt_add_left gap hi]
    · by_cases hi' : i < gap + width
      · simp [hi, hi', hgap i (Nat.le_of_not_lt hi) hi']
      · simp [hi, hi']

namespace Tagging

variable {l : Layout} {width gap tag : ℕ} {n : ℤ} {w : UInt64}

section

variable (hl : Tagging l width gap tag)
include hl

theorem check_iff : check l w = true ↔ w.toNat % 2 ^ width = tag := by
  have hfits := hl.fits
  have hle : 2 ^ width ≤ 2 ^ 64 := Nat.pow_le_pow_right Nat.two_pos (by omega)
  rw [check, beq_iff_eq, ← UInt64.toNat_inj, UInt64.toNat_and, hl.mask_eq, hl.tag_eq,
    Word.toNat_ofInt_mask (by omega), Word.toNat_ofInt (hl.tag_lt.trans_le hle),
    Nat.and_two_pow_sub_one_eq_mod]

/-- The number is above the tag and the gap. -/
theorem shift_eq : shift l = gap + width := by
  have hfits := hl.fits
  have hmask : (0 : ℤ) ≤ 2 ^ width - 1 := by
    have hpos : (0 : ℤ) < 2 ^ width := Int.pow_pos (by decide)
    omega
  have hgap : (0 : ℤ) ≤ gap ∧ (gap : ℤ) < UInt32.size := by
    rw [UInt32.size]
    omega
  rw [shift, hl.mask_eq, hl.gap_eq, if_pos hmask, if_pos hgap, Int.toNat_natCast,
    Word.popCount_mask (by omega), Nat.min_eq_left hl.fits]

/-- The tag is below the number. -/
theorem natCast_tag_lt : (tag : ℤ) < 2 ^ (gap + width) := by
  have htag : tag < 2 ^ (gap + width) :=
    hl.tag_lt.trans_le (Nat.pow_le_pow_right Nat.two_pos (Nat.le_add_left width gap))
  exact_mod_cast htag

theorem encode_eq (n : ℤ) : encode l n = Word.ofInt (n * 2 ^ (gap + width) + tag) := by
  have hfits := hl.fits
  have htag : tag < 2 ^ (gap + width) := by exact_mod_cast hl.natCast_tag_lt
  rw [encode, hl.shift_eq, hl.tag_eq, Word.ofInt_shiftLeft n (by omega),
    Word.ofInt_or n (by omega) htag]

theorem number_eq (w : UInt64) : number l w = Word.signed w / 2 ^ (gap + width) := by
  rw [number, hl.shift_eq, Int.shiftRight_eq_div_pow]
  push_cast
  rfl

/-- The word of a number has the tag and nothing in the gap. -/
theorem toNat_encode_emod (n : ℤ) : (encode l n).toNat % 2 ^ (gap + width) = tag := by
  have hfits := hl.fits
  zify
  rw [hl.encode_eq, Word.natCast_toNat_ofInt, Int.emod_emod_of_dvd _ (pow_dvd_pow 2 (by omega)),
    Int.add_comm, Int.add_mul_emod_self_right]
  exact Int.emod_eq_of_lt (Int.natCast_nonneg tag) hl.natCast_tag_lt

/-- Numbers that fit come back from their words. -/
theorem number_encode (hle : -2 ^ (63 - (gap + width)) ≤ n) (hlt : n < 2 ^ (63 - (gap + width))) :
    number l (encode l n) = n := by
  have hpos : (0 : ℤ) < 2 ^ (gap + width) := Int.pow_pos (by decide)
  have htag := hl.natCast_tag_lt
  have hword : (2 : ℤ) ^ (63 - (gap + width)) * 2 ^ (gap + width) = 2 ^ 63 := by
    rw [← Int.pow_add, Nat.sub_add_cancel hl.fits]
  -- The tag is less than what one number more adds, so that words of numbers that fit, fit.
  have hlow : -2 ^ 63 ≤ n * 2 ^ (gap + width) + tag := by
    calc (-2 ^ 63 : ℤ) = -2 ^ (63 - (gap + width)) * 2 ^ (gap + width) := by
          rw [← hword, Int.neg_mul]
      _ ≤ n * 2 ^ (gap + width) := Int.mul_le_mul_of_nonneg_right hle (Int.le_of_lt hpos)
      _ ≤ n * 2 ^ (gap + width) + tag := Int.le_add_of_nonneg_right (Int.natCast_nonneg tag)
  have hhigh : n * 2 ^ (gap + width) + tag < 2 ^ 63 := by
    calc n * 2 ^ (gap + width) + tag < n * 2 ^ (gap + width) + 2 ^ (gap + width) :=
          Int.add_lt_add_left htag _
      _ = (n + 1) * 2 ^ (gap + width) := by rw [Int.add_mul, Int.one_mul]
      _ ≤ 2 ^ (63 - (gap + width)) * 2 ^ (gap + width) :=
          Int.mul_le_mul_of_nonneg_right hlt (Int.le_of_lt hpos)
      _ = 2 ^ 63 := hword
  rw [hl.number_eq, hl.encode_eq, Word.signed_ofInt hlow hhigh, Int.add_comm,
    Int.add_mul_ediv_right _ _ (Int.ne_of_gt hpos),
    Int.ediv_eq_zero_of_lt (Int.natCast_nonneg tag) htag, Int.zero_add]

theorem number_bounds (w : UInt64) :
    -2 ^ (63 - (gap + width)) ≤ number l w ∧ number l w < 2 ^ (63 - (gap + width)) := by
  have hpos : (0 : ℤ) < 2 ^ (gap + width) := Int.pow_pos (by decide)
  have hword : (2 : ℤ) ^ (63 - (gap + width)) * 2 ^ (gap + width) = 2 ^ 63 := by
    rw [← Int.pow_add, Nat.sub_add_cancel hl.fits]
  obtain ⟨hlow, hhigh⟩ := Word.signed_bounds w
  rw [hl.number_eq]
  constructor
  · apply Int.le_ediv_of_mul_le hpos
    rw [Int.neg_mul, hword]
    exact hlow
  · apply Int.ediv_lt_of_lt_mul hpos
    rw [hword]
    exact hhigh

/-- Words with the tag and nothing in the gap come back from their numbers. -/
theorem encode_number (hcheck : check l w = true) (hgap : GapEmpty width gap w) :
    encode l (number l w) = w := by
  have hfits := hl.fits
  have hlow : w.toNat % 2 ^ (gap + width) = tag :=
    (emod_two_pow_eq_iff hl.tag_lt w).mpr ⟨hl.check_iff.mp hcheck, hgap⟩
  have hsigned : Word.signed w % 2 ^ (gap + width) = tag := by
    rw [Word.signed_emod_two_pow w (by omega), hlow]
  rw [hl.encode_eq, hl.number_eq, ← hsigned, Int.ediv_mul_add_emod, Word.ofInt_signed]

end

/-- **Small integers and their words are one to one.**  A number that fits between the tag bits and
the sign is the number in its word, which has the tag and nothing in the gap; and a word with the
tag and nothing in the gap is the word of its number, which fits.  Any word at all is a small
integer if it has the tag, and a pointer otherwise, and is kept as it was read. -/
theorem coding_one_to_one (hl : Tagging l width gap tag) :
    (∀ n : ℤ, -2 ^ (63 - (gap + width)) ≤ n → n < 2 ^ (63 - (gap + width)) →
      check l (encode l n) = true ∧ GapEmpty width gap (encode l n) ∧
        Value.classify l (encode l n) = .smi (encode l n) n) ∧
    (∀ w, check l w = true → GapEmpty width gap w →
      (-2 ^ (63 - (gap + width)) ≤ number l w ∧ number l w < 2 ^ (63 - (gap + width))) ∧
        encode l (number l w) = w) ∧
    ∀ w, (w.toNat % 2 ^ width = tag ∧ Value.classify l w = .smi w (number l w) ∨
        w.toNat % 2 ^ width ≠ tag ∧ Value.classify l w = .heap ⟨w⟩) ∧
      (Value.classify l w).raw = w := by
  refine ⟨?_, ?_, ?_⟩
  · intro n hle hlt
    obtain ⟨hlow, hgap⟩ := (emod_two_pow_eq_iff hl.tag_lt _).mp (hl.toNat_encode_emod n)
    have hcheck := hl.check_iff.mpr hlow
    refine ⟨hcheck, hgap, ?_⟩
    rw [Value.classify, if_pos hcheck, hl.number_encode hle hlt]
  · intro w hcheck hgap
    exact ⟨hl.number_bounds w, hl.encode_number hcheck hgap⟩
  · intro w
    refine ⟨?_, Value.raw_classify l w⟩
    by_cases hlow : w.toNat % 2 ^ width = tag
    · exact .inl ⟨hlow, if_pos (hl.check_iff.mpr hlow)⟩
    · exact .inr ⟨hlow, if_neg fun hcheck => hlow (hl.check_iff.mp hcheck)⟩

/-! ### A tag of three bits -/

open Synthetic

/-- The tag is five in the lowest three bits, and two bits above it are empty. -/
def threeBitLayout : Layout := listedLayout [(.smiTag, 5), (.smiTagMask, 7), (.smiShiftSize, 2)]

theorem tagging_threeBitLayout : Tagging threeBitLayout 3 2 5 where
  mask_eq := by decide +kernel
  tag_eq := by decide +kernel
  gap_eq := by decide +kernel
  tag_lt := by decide
  fits := by decide

/-- The least number that fits, its word, and a word with another tag. -/
theorem coding_one_to_one_threeBits :
    check threeBitLayout (encode threeBitLayout (-2 ^ 58)) = true ∧
      encode threeBitLayout (-2 ^ 58) = 0x8000000000000005 ∧
      Value.classify threeBitLayout (encode threeBitLayout (-2 ^ 58)) =
        .smi (encode threeBitLayout (-2 ^ 58)) (-2 ^ 58) ∧
      encode threeBitLayout (number threeBitLayout 0x8000000000000005) = 0x8000000000000005 ∧
      Value.classify threeBitLayout 0x8000000000000004 = .heap ⟨0x8000000000000004⟩ := by
  obtain ⟨hnumbers, hwords, hall⟩ := coding_one_to_one tagging_threeBitLayout
  obtain ⟨hcheck, hgap, hclassify⟩ := hnumbers (-2 ^ 58) (by decide) (by decide)
  have hword : encode threeBitLayout (-2 ^ 58) = 0x8000000000000005 := by decide +kernel
  have hback := (hwords _ hcheck hgap).2
  rw [hword] at hback
  refine ⟨hcheck, hword, hclassify, hback, ?_⟩
  rcases (hall 0x8000000000000004).1 with ⟨htag, -⟩ | ⟨-, hheap⟩
  · exact absurd htag (by decide)
  · exact hheap

end Tagging

end SmallInt

end Postmortem
