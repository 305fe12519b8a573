/-
Postmortem/Proofs/Utf8Codec.lean

Decoding undoes encoding.

The encoder writes a character as one to four bytes, by arithmetic on its number.
Its lead byte announces as many bytes as there are (`width_ofNat`), the second byte is
one that may follow, because the number is not a surrogate and too large for a shorter
spelling (`admitsSecond_ofNat`), and the payload bits are the number again.  So the
bytes in front of any others are one piece (`leading_utf8EncodeChar`), and a text
comes back piece by piece.

Main results: `decodeLossy_bytesOf`, `zero_not_mem_bytesOf`.
-/
import Mathlib.Data.Nat.Notation
import Mathlib.Tactic.SplitIfs
import Postmortem.Text.Utf8

namespace Postmortem.Utf8

/-! ### Bytes as numbers -/

section

variable {m n : ℕ}

theorem width_ofNat (hn : n < 256) :
    width (UInt8.ofNat n) =
      if n < 0x80 then 1 else if n < 0xc2 then 0 else if n < 0xe0 then 2 else if n < 0xf0 then 3
      else if n < 0xf5 then 4 else 0 := by
  simp only [width, UInt8.lt_iff_toNat_lt, UInt8.toNat_ofNat_of_lt' hn]
  rfl

theorem isContinuation_ofNat (hn : n < 256) :
    isContinuation (UInt8.ofNat n) = true ↔ 0x80 ≤ n ∧ n < 0xc0 := by
  simp only [isContinuation, Bool.and_eq_true, decide_eq_true_eq, UInt8.lt_iff_toNat_lt,
    UInt8.le_iff_toNat_le, UInt8.toNat_ofNat_of_lt' hn]
  rfl

theorem admitsSecond_ofNat (hm : m < 256) (hn : n < 256) :
    admitsSecond (UInt8.ofNat m) (UInt8.ofNat n) = true ↔
      (if m = 0xe0 then 0xa0 else if m = 0xf0 then 0x90 else 0x80) ≤ n ∧
        n < if m = 0xed then 0xa0 else if m = 0xf4 then 0x90 else 0xc0 := by
  have heq (k : UInt8) : (UInt8.ofNat m == k) = true ↔ m = k.toNat := by
    rw [beq_iff_eq, ← UInt8.toNat_inj, UInt8.toNat_ofNat_of_lt' hm]
  have hle (k : UInt8) : k ≤ UInt8.ofNat n ↔ k.toNat ≤ n := by
    rw [UInt8.le_iff_toNat_le, UInt8.toNat_ofNat_of_lt' hn]
  have hlt (k : UInt8) : UInt8.ofNat n < k ↔ n < k.toNat := by
    rw [UInt8.lt_iff_toNat_lt, UInt8.toNat_ofNat_of_lt' hn]
  simp only [admitsSecond, isContinuation, heq, UInt8.reduceToNat]
  split_ifs
  all_goals simp only [Bool.and_eq_true, decide_eq_true_eq, hle, hlt, UInt8.reduceToNat]
  all_goals omega

theorem payload_ofNat (hn : n < 256) : payload (UInt8.ofNat n) = n % 64 := by
  rw [payload, UInt8.toNat_ofNat_of_lt' hn]

end

/-! ### Characters -/

variable {c : Char} {rest : List UInt8}

theorem leading_one {m : ℕ} (hm : m < 0x80) :
    leading (UInt8.ofNat m) rest = (some (Char.ofNat m), 0) := by
  have hwidth : width (UInt8.ofNat m) = 1 := by
    rw [width_ofNat (by omega), if_pos hm]
  simp only [leading, hwidth]
  rw [UInt8.toNat_ofNat_of_lt' (by exact (by omega : m < 256))]

theorem leading_two {m k : ℕ} (hm : 0xc2 ≤ m ∧ m < 0xe0) (hk : 0x80 ≤ k ∧ k < 0xc0) :
    leading (UInt8.ofNat m) (UInt8.ofNat k :: rest) =
      (some (Char.ofNat (m % 32 * 64 + k % 64)), 1) := by
  have hwidth : width (UInt8.ofNat m) = 2 := by
    rw [width_ofNat (by omega), if_neg (by omega), if_neg (by omega), if_pos (by omega)]
  have hk' : isContinuation (UInt8.ofNat k) = true := (isContinuation_ofNat (by omega)).mpr hk
  simp only [leading, hwidth]
  rw [if_pos hk', payload_ofNat (by omega),
    UInt8.toNat_ofNat_of_lt' (by exact (by omega : m < 256))]

theorem leading_three {m k l : ℕ} (hm : 0xe0 ≤ m ∧ m < 0xf0) (hk : k < 256)
    (hsecond : admitsSecond (UInt8.ofNat m) (UInt8.ofNat k) = true) (hl : 0x80 ≤ l ∧ l < 0xc0) :
    leading (UInt8.ofNat m) (UInt8.ofNat k :: UInt8.ofNat l :: rest) =
      (some (Char.ofNat (m % 16 * 4096 + k % 64 * 64 + l % 64)), 2) := by
  have hwidth : width (UInt8.ofNat m) = 3 := by
    rw [width_ofNat (by omega), if_neg (by omega), if_neg (by omega), if_neg (by omega),
      if_pos (by omega)]
  have hl' : isContinuation (UInt8.ofNat l) = true := (isContinuation_ofNat (by omega)).mpr hl
  simp only [leading, hwidth]
  rw [if_pos hsecond, if_pos hl', payload_ofNat hk, payload_ofNat (by omega),
    UInt8.toNat_ofNat_of_lt' (by exact (by omega : m < 256))]

theorem leading_four {m k l n : ℕ} (hm : 0xf0 ≤ m ∧ m < 0xf5) (hk : k < 256)
    (hsecond : admitsSecond (UInt8.ofNat m) (UInt8.ofNat k) = true) (hl : 0x80 ≤ l ∧ l < 0xc0)
    (hn : 0x80 ≤ n ∧ n < 0xc0) :
    leading (UInt8.ofNat m) (UInt8.ofNat k :: UInt8.ofNat l :: UInt8.ofNat n :: rest) =
      (some (Char.ofNat (m % 8 * 262144 + k % 64 * 4096 + l % 64 * 64 + n % 64)), 3) := by
  have hwidth : width (UInt8.ofNat m) = 4 := by
    rw [width_ofNat (by omega), if_neg (by omega), if_neg (by omega), if_neg (by omega),
      if_neg (by omega), if_pos (by omega)]
  have hl' : isContinuation (UInt8.ofNat l) = true := (isContinuation_ofNat (by omega)).mpr hl
  have hn' : isContinuation (UInt8.ofNat n) = true := (isContinuation_ofNat (by omega)).mpr hn
  simp only [leading, hwidth]
  rw [if_pos hsecond, if_pos hl', if_pos hn', payload_ofNat hk, payload_ofNat (by omega),
    payload_ofNat (by omega), UInt8.toNat_ofNat_of_lt' (by exact (by omega : m < 256))]

/-- The bytes of a character are one piece. -/
theorem leading_utf8EncodeChar (c : Char) (rest : List UInt8) :
    ∃ lead more, String.utf8EncodeChar c = lead :: more ∧
      leading lead (more ++ rest) = (some c, more.length) := by
  have hvalid : c.toNat < 0xd800 ∨ 0xdfff < c.toNat ∧ c.toNat < 0x110000 := c.valid
  have hc := Char.ofNat_toNat c
  unfold String.utf8EncodeChar
  dsimp only
  rw [show c.val.toNat = c.toNat from rfl]
  generalize c.toNat = n at hvalid hc
  split_ifs with hone htwo hthree
  · exact ⟨_, _, rfl, by rw [leading_one (by omega), hc]; rfl⟩
  · refine ⟨_, _, rfl, ?_⟩
    rw [List.cons_append, List.nil_append, leading_two (by omega) (by omega)]
    have hvalue : (n / 64 % 32 + 192) % 32 * 64 + (n % 64 + 128) % 64 = n := by omega
    rw [hvalue, hc]
    rfl
  · refine ⟨_, _, rfl, ?_⟩
    have hsecond : admitsSecond (UInt8.ofNat (n / 4096 % 16 + 224))
        (UInt8.ofNat (n / 64 % 64 + 128)) = true := by
      rw [admitsSecond_ofNat (by omega) (by omega)]
      split_ifs <;> omega
    rw [List.cons_append, List.cons_append, List.nil_append,
      leading_three (by omega) (by omega) hsecond (by omega)]
    have hvalue : (n / 4096 % 16 + 224) % 16 * 4096 + (n / 64 % 64 + 128) % 64 * 64 +
        (n % 64 + 128) % 64 = n := by omega
    rw [hvalue, hc]
    rfl
  · refine ⟨_, _, rfl, ?_⟩
    have hsecond : admitsSecond (UInt8.ofNat (n / 262144 % 8 + 240))
        (UInt8.ofNat (n / 4096 % 64 + 128)) = true := by
      rw [admitsSecond_ofNat (by omega) (by omega)]
      split_ifs <;> omega
    rw [List.cons_append, List.cons_append, List.cons_append, List.nil_append,
      leading_four (by omega) (by omega) hsecond (by omega) (by omega)]
    have hvalue : (n / 262144 % 8 + 240) % 8 * 262144 + (n / 4096 % 64 + 128) % 64 * 4096 +
        (n / 64 % 64 + 128) % 64 * 64 + (n % 64 + 128) % 64 = n := by omega
    rw [hvalue, hc]
    rfl

theorem pieces_utf8EncodeChar_append (c : Char) (rest : List UInt8) :
    pieces (String.utf8EncodeChar c ++ rest) = some c :: pieces rest := by
  obtain ⟨lead, more, hbytes, hleading⟩ := leading_utf8EncodeChar c rest
  rw [hbytes, List.cons_append, pieces, hleading, List.drop_left]

theorem pieces_flatMap_utf8EncodeChar (cs : List Char) :
    pieces (cs.flatMap String.utf8EncodeChar) = cs.map some := by
  induction cs with
  | nil => rw [List.flatMap_nil, pieces, List.map_nil]
  | cons c cs ih => rw [List.flatMap_cons, pieces_utf8EncodeChar_append, ih, List.map_cons]

/-! ### Texts -/

/-- The bytes of a text. -/
def bytesOf (text : String) : List UInt8 := text.toUTF8.data.toList

theorem bytesOf_eq (text : String) : bytesOf text = text.toList.flatMap String.utf8EncodeChar := by
  have hbytes : text.toUTF8 = text.toList.utf8Encode := by
    rw [← String.toByteArray_ofList, String.ofList_toList]
    rfl
  rw [bytesOf, hbytes, List.utf8Encode, List.toList_data_toByteArray]

/-- Decoding undoes encoding. -/
theorem decodeLossy_bytesOf (text : String) : decodeLossy (bytesOf text) = text := by
  have hpieces : (pieces (bytesOf text)).map (·.getD '\ufffd') = text.toList := by
    rw [bytesOf_eq, pieces_flatMap_utf8EncodeChar, List.map_map]
    exact List.map_id _
  rw [decodeLossy, hpieces, String.ofList_toList]

theorem ofNat_ne_zero {n : ℕ} (hpos : 0 < n) (hn : n < 256) : UInt8.ofNat n ≠ 0 := by
  intro heq
  have hzero := congrArg UInt8.toNat heq
  rw [UInt8.toNat_ofNat_of_lt' hn] at hzero
  exact absurd hzero (Nat.pos_iff_ne_zero.mp hpos)

/-- Only the character zero has a zero among its bytes: in longer ones the highest bits are set. -/
theorem forall_mem_utf8EncodeChar_ne_zero (hc : c ≠ '\x00') :
    ∀ b ∈ String.utf8EncodeChar c, b ≠ 0 := by
  have hpos : 0 < c.val.toNat := by
    refine Nat.pos_of_ne_zero fun hzero => hc ?_
    rw [← Char.ofNat_toNat c, show c.toNat = c.val.toNat from rfl, hzero]
  unfold String.utf8EncodeChar
  dsimp only
  split_ifs
  all_goals
    simp only [List.forall_mem_cons, List.not_mem_nil, false_implies, implies_true, and_true]
    and_intros
  all_goals exact ofNat_ne_zero (by omega) (by omega)

theorem zero_not_mem_bytesOf {text : String} (htext : '\x00' ∉ text.toList) :
    0 ∉ bytesOf text := by
  intro hzero
  rw [bytesOf_eq] at hzero
  obtain ⟨c, hc, hmem⟩ := List.mem_flatMap.mp hzero
  have hne : c ≠ '\x00' := by
    rintro rfl
    exact htext hc
  exact forall_mem_utf8EncodeChar_ne_zero hne 0 hmem rfl

end Postmortem.Utf8
