/-
Postmortem/Proofs/Utf16Codec.lean

Decoding is exact on text and local on damage.

A character is stored as one unit that is no surrogate, or as a high surrogate and a
low one behind it (`encodeChar_cases`), and every such unit and every such pair stores
a character (`encodeChar_ofNat`, `encodeChar_paired`).  So units are read from left to
right in one way only (`IsReading`): a pair is the character that it stores, a surrogate
outside pairs is damage, and any other unit is a character of its own.  A high and a
low surrogate are never the same unit, so it does not matter where reading starts.

The units behind the mark are left to a lossy decoder, of which nothing is known but its
rule: what it makes of the units in front, and that it goes on behind them (`IsLossy`).
By this rule it finds the reading (`IsLossy.isReading_iff`).  It makes a character of every
unit but the second halves of pairs (`IsReading.length_add_pairCount`), and on the units
of a text the reading is the text (`isReading_encode`).

Main result: `decode_exact_local`.
-/
import Mathlib.Data.List.Basic
import Postmortem.Text.Utf16

namespace Postmortem.Utf16

variable {c : Char} {u high low : UInt16} {units rest : List UInt16} {cs : List Char}

/-! ### Surrogates -/

theorem isHigh_iff : isHigh u = true ↔ 0xd800 ≤ u.toNat ∧ u.toNat < 0xdc00 := by
  simp only [isHigh, Bool.and_eq_true, decide_eq_true_eq, UInt16.le_iff_toNat_le,
    UInt16.lt_iff_toNat_lt]
  rfl

theorem isLow_iff : isLow u = true ↔ 0xdc00 ≤ u.toNat ∧ u.toNat < 0xe000 := by
  simp only [isLow, Bool.and_eq_true, decide_eq_true_eq, UInt16.le_iff_toNat_le,
    UInt16.lt_iff_toNat_lt]
  rfl

/-- Half of a pair, as far as the unit alone tells. -/
def isSurrogate (u : UInt16) : Bool := isHigh u || isLow u

theorem isSurrogate_iff : isSurrogate u = true ↔ 0xd800 ≤ u.toNat ∧ u.toNat < 0xe000 := by
  rw [isSurrogate, Bool.or_eq_true, isHigh_iff, isLow_iff]
  omega

theorem isHigh_of_isLow (hlow : isLow low = true) : isHigh low = false := by
  rw [isLow_iff] at hlow
  rw [← Bool.not_eq_true, isHigh_iff]
  omega

/-- Whether a high surrogate stands at `i`, and a low one right behind it. -/
def pairAt (units : List UInt16) (i : ℕ) : Bool :=
  units[i]?.any isHigh && units[i + 1]?.any isLow

/-- How many pairs there are. -/
def pairCount (units : List UInt16) : ℕ := (List.range units.length).countP (pairAt units)

theorem pairAt_cons_succ (u : UInt16) (units : List UInt16) (i : ℕ) :
    pairAt (u :: units) (i + 1) = pairAt units i := rfl

theorem pairCount_cons (u : UInt16) (units : List UInt16) :
    pairCount (u :: units) = pairCount units + if pairAt (u :: units) 0 then 1 else 0 := by
  have hrest : pairAt (u :: units) ∘ Nat.succ = pairAt units := by
    funext i
    exact pairAt_cons_succ u units i
  rw [pairCount, List.length_cons, List.range_succ_eq_map, List.countP_cons, List.countP_map,
    hrest, pairCount]

/-! ### Characters and their units -/

theorem toNat_ofNat (hu : isSurrogate u = false) : (Char.ofNat u.toNat).toNat = u.toNat := by
  have hlt := u.toNat_lt
  rw [← Bool.not_eq_true, isSurrogate_iff] at hu
  have hvalid : u.toNat.isValidChar := by
    simp only [Nat.isValidChar]
    omega
  rw [Char.ofNat, dif_pos hvalid]
  rfl

/-- A unit that is no surrogate stores a character. -/
theorem encodeChar_ofNat (hu : isSurrogate u = false) : encodeChar (Char.ofNat u.toNat) = [u] := by
  have hlt : u.toNat < 0x10000 := u.toNat_lt
  simp only [encodeChar, toNat_ofNat hu]
  rw [if_pos hlt, UInt16.ofNat_toNat]

theorem toNat_paired (hhigh : isHigh high = true) (hlow : isLow low = true) :
    (paired high low).toNat =
      0x10000 + 0x400 * (high.toNat - 0xd800) + (low.toNat - 0xdc00) := by
  rw [isHigh_iff] at hhigh
  rw [isLow_iff] at hlow
  have hvalid : (0x10000 + 0x400 * (high.toNat - 0xd800) + (low.toNat - 0xdc00)).isValidChar := by
    simp only [Nat.isValidChar]
    omega
  rw [paired, Char.ofNat, dif_pos hvalid]
  rfl

/-- So does a pair. -/
theorem encodeChar_paired (hhigh : isHigh high = true) (hlow : isLow low = true) :
    encodeChar (paired high low) = [high, low] := by
  have hn := toNat_paired hhigh hlow
  rw [isHigh_iff] at hhigh
  rw [isLow_iff] at hlow
  have hhighPart : 0xd800 + ((paired high low).toNat - 0x10000) / 0x400 = high.toNat := by omega
  have hlowPart : 0xdc00 + ((paired high low).toNat - 0x10000) % 0x400 = low.toNat := by omega
  simp only [encodeChar]
  rw [if_neg (by omega), hhighPart, hlowPart, UInt16.ofNat_toNat, UInt16.ofNat_toNat]

/-- A character is stored in one of these ways. -/
theorem encodeChar_cases (c : Char) :
    (∃ u, isSurrogate u = false ∧ Char.ofNat u.toNat = c ∧ encodeChar c = [u]) ∨
      ∃ high low, isHigh high = true ∧ isLow low = true ∧ paired high low = c ∧
        encodeChar c = [high, low] := by
  have hvalid : c.toNat < 0xd800 ∨ 0xdfff < c.toNat ∧ c.toNat < 0x110000 := c.valid
  simp only [encodeChar]
  split
  case isTrue hlt =>
    have hu : (UInt16.ofNat c.toNat).toNat = c.toNat := UInt16.toNat_ofNat_of_lt' hlt
    refine .inl ⟨UInt16.ofNat c.toNat, ?_, ?_, rfl⟩
    · rw [← Bool.not_eq_true, isSurrogate_iff, hu]
      omega
    · rw [hu, Char.ofNat_toNat]
  case isFalse hge =>
    have hhigh : (UInt16.ofNat (0xd800 + (c.toNat - 0x10000) / 0x400)).toNat =
        0xd800 + (c.toNat - 0x10000) / 0x400 := by
      apply UInt16.toNat_ofNat_of_lt'
      show _ < 65536
      omega
    have hlow : (UInt16.ofNat (0xdc00 + (c.toNat - 0x10000) % 0x400)).toNat =
        0xdc00 + (c.toNat - 0x10000) % 0x400 := by
      apply UInt16.toNat_ofNat_of_lt'
      show _ < 65536
      omega
    refine .inr ⟨_, _, isHigh_iff.mpr ?_, isLow_iff.mpr ?_, ?_, rfl⟩
    · rw [hhigh]
      omega
    · rw [hlow]
      omega
    · have hn : 0x10000 + 0x400 * (0xd800 + (c.toNat - 0x10000) / 0x400 - 0xd800) +
          (0xdc00 + (c.toNat - 0x10000) % 0x400 - 0xdc00) = c.toNat := by omega
      rw [paired, hhigh, hlow, hn, Char.ofNat_toNat]

/-- Its units tell which character it is. -/
theorem encodeChar_injective : Function.Injective encodeChar := by
  intro c d h
  rcases encodeChar_cases c with ⟨u, -, rfl, hc⟩ | ⟨high, low, -, -, rfl, hc⟩ <;>
    rcases encodeChar_cases d with ⟨v, -, rfl, hd⟩ | ⟨high', low', -, -, rfl, hd⟩ <;>
    rw [hc, hd] at h <;> simp at h
  · rw [h]
  · rw [h.1, h.2]

/-! ### Readings -/

/-- Units read from left to right: what text they are. -/
inductive IsReading : List UInt16 → List Char → Prop
  | nil : IsReading [] []
  /-- A high surrogate with a low one right behind it is the character that the two store. -/
  | pair {high low : UInt16} {rest : List UInt16} {c : Char} {cs : List Char} :
      isHigh high = true → isLow low = true → encodeChar c = [high, low] → IsReading rest cs →
      IsReading (high :: low :: rest) (c :: cs)
  /-- Any other surrogate is replaced. -/
  | lone {u : UInt16} {rest : List UInt16} {cs : List Char} :
      isSurrogate u = true → pairAt (u :: rest) 0 = false → IsReading rest cs →
      IsReading (u :: rest) (replacement :: cs)
  /-- Any other unit is the character that it stores. -/
  | plain {u : UInt16} {rest : List UInt16} {c : Char} {cs : List Char} :
      isSurrogate u = false → encodeChar c = [u] → IsReading rest cs →
      IsReading (u :: rest) (c :: cs)

theorem decodeUnits_pair (hhigh : isHigh high = true) (hlow : isLow low = true) :
    decodeUnits (high :: low :: rest) = paired high low :: decodeUnits rest := by
  rw [decodeUnits, hhigh, hlow]
  rfl

theorem decodeUnits_lone (hu : isSurrogate u = true) (hpair : pairAt (u :: rest) 0 = false) :
    decodeUnits (u :: rest) = replacement :: decodeUnits rest := by
  rw [isSurrogate] at hu
  cases rest with
  | nil => exact congrArg ([·]) (if_pos hu)
  | cons v rest =>
    have hpair' : ¬ (isHigh u && isLow v) = true := Bool.eq_false_iff.mp hpair
    rw [decodeUnits, if_neg hpair', if_pos hu]

theorem decodeUnits_plain (hu : isSurrogate u = false) :
    decodeUnits (u :: rest) = Char.ofNat u.toNat :: decodeUnits rest := by
  have hhalf : ¬ (isHigh u || isLow u) = true := Bool.eq_false_iff.mp hu
  cases rest with
  | nil => exact congrArg ([·]) (if_neg hhalf)
  | cons v rest =>
    have hpair : ¬ (isHigh u && isLow v) = true := by
      intro hboth
      rw [Bool.and_eq_true] at hboth
      exact hhalf (by rw [hboth.1, Bool.true_or])
    rw [decodeUnits, if_neg hpair, if_neg hhalf]

theorem isReading_decodeUnits (units : List UInt16) : IsReading units (decodeUnits units) := by
  fun_induction decodeUnits units with
  | case1 => exact .nil
  | case2 u =>
    split
    case isTrue hu => exact .lone hu (Bool.and_false _) .nil
    case isFalse hu =>
      have hplain : isSurrogate u = false := Bool.eq_false_iff.mpr hu
      exact .plain hplain (encodeChar_ofNat hplain) .nil
  | case3 u v rest hpair ih =>
    rw [Bool.and_eq_true] at hpair
    exact .pair hpair.1 hpair.2 (encodeChar_paired hpair.1 hpair.2) ih
  | case4 u v rest hpair hu ih => exact .lone hu (Bool.eq_false_iff.mpr hpair) ih
  | case5 u v rest hpair hu ih =>
    have hplain : isSurrogate u = false := Bool.eq_false_iff.mpr hu
    exact .plain hplain (encodeChar_ofNat hplain) ih

/-- There is one reading, and the decoder finds it. -/
theorem isReading_iff : IsReading units cs ↔ decodeUnits units = cs := by
  constructor
  · intro hreading
    induction hreading with
    | nil => rfl
    | pair hhigh hlow hc _ ih =>
      rw [decodeUnits_pair hhigh hlow, ih, encodeChar_injective (hc.trans
        (encodeChar_paired hhigh hlow).symm)]
    | lone hu hpair _ ih => rw [decodeUnits_lone hu hpair, ih]
    | plain hu hc _ ih =>
      rw [decodeUnits_plain hu, ih, encodeChar_injective (hc.trans (encodeChar_ofNat hu).symm)]
  · rintro rfl
    exact isReading_decodeUnits units

/-- Pairs become one character less than they have units. -/
theorem IsReading.length_add_pairCount (hreading : IsReading units cs) :
    cs.length + pairCount units = units.length := by
  induction hreading with
  | nil => rfl
  | @pair high low rest c cs hhigh hlow _ _ ih =>
    have hfirst : pairAt (high :: low :: rest) 0 = true := by
      show (isHigh high && isLow low) = true
      rw [hhigh, hlow, Bool.true_and]
    -- The second half does not start another pair.
    have hsecond : pairAt (low :: rest) 0 = false := by
      show (isHigh low && _) = false
      rw [isHigh_of_isLow hlow, Bool.false_and]
    rw [pairCount_cons, pairCount_cons, hfirst, hsecond]
    simp only [List.length_cons, if_true, if_false, Bool.false_eq_true]
    omega
  | lone _ hpair _ ih =>
    rw [pairCount_cons, hpair]
    simp only [List.length_cons, if_false, Bool.false_eq_true]
    omega
  | @plain u rest c cs hu _ _ ih =>
    have hpair : pairAt (u :: rest) 0 = false := by
      show (isHigh u && _) = false
      rw [(Bool.or_eq_false_iff.mp hu).1, Bool.false_and]
    rw [pairCount_cons, hpair]
    simp only [List.length_cons, if_false, Bool.false_eq_true]
    omega

theorem isReading_encode (cs : List Char) : IsReading (encode cs) cs := by
  induction cs with
  | nil => exact .nil
  | cons c cs ih =>
    rw [encode, List.flatMap_cons]
    rcases encodeChar_cases c with ⟨u, hu, -, hc⟩ | ⟨high, low, hhigh, hlow, -, hc⟩
    · rw [hc]
      exact .plain hu hc ih
    · rw [hc]
      exact .pair hhigh hlow hc ih

/-! ### Byte-order marks -/

/-- What the mark is where it is a character. -/
theorem encodeChar_mark : encodeChar '\ufeff' = [byteOrderMark] := by decide

/-- The units of a text start with a mark only if the text does. -/
theorem withoutMark_encode (hcs : cs.head? ≠ some '\ufeff') :
    withoutMark (encode cs) = encode cs := by
  cases cs with
  | nil => rfl
  | cons c cs =>
    have hc : c ≠ '\ufeff' := by
      rintro rfl
      exact hcs rfl
    rw [encode, List.flatMap_cons]
    rcases encodeChar_cases c with ⟨u, -, -, hunit⟩ | ⟨high, low, hhigh, -, -, hunits⟩
    · have hu : u ≠ byteOrderMark := by
        rintro rfl
        exact hc (encodeChar_injective (hunit.trans encodeChar_mark.symm))
      rw [hunit, List.singleton_append, withoutMark, if_neg hu]
    · have hne : high ≠ byteOrderMark := by
        rintro rfl
        exact absurd hhigh (by decide)
      rw [hunits, List.cons_append, withoutMark, if_neg hne]

/-! ### Lossy decoders -/

/-- The rule of lossy decoders.  A high surrogate with a low one right behind it is one character,
any other surrogate is replaced, any other unit is the character with its number; and what is
behind is decoded by itself. -/
structure IsLossy (lossy : List UInt16 → String) : Prop where
  nil : lossy [] = ""
  pair : ∀ high low rest, isHigh high = true → isLow low = true →
    lossy (high :: low :: rest) = String.singleton (paired high low) ++ lossy rest
  lone : ∀ u rest, isSurrogate u = true → pairAt (u :: rest) 0 = false →
    lossy (u :: rest) = String.singleton replacement ++ lossy rest
  plain : ∀ u rest, isSurrogate u = false →
    lossy (u :: rest) = String.singleton (Char.ofNat u.toNat) ++ lossy rest

theorem isLossy_replaced : IsLossy replaced where
  nil := rfl
  pair := fun high low rest hhigh hlow => by
    rw [replaced, decodeUnits_pair hhigh hlow, String.ofList_cons, replaced]
  lone := fun u rest hu hpair => by
    rw [replaced, decodeUnits_lone hu hpair, String.ofList_cons, replaced]
  plain := fun u rest hu => by
    rw [replaced, decodeUnits_plain hu, String.ofList_cons, replaced]

/-- The rule leaves no choice. -/
theorem IsLossy.eq_replaced {lossy : List UInt16 → String} (hlossy : IsLossy lossy)
    (units : List UInt16) : lossy units = replaced units := by
  have hlone (u : UInt16) (rest : List UInt16) (hu : isSurrogate u = true)
      (hpair : pairAt (u :: rest) 0 = false) (hrest : lossy rest = replaced rest) :
      lossy (u :: rest) = replaced (u :: rest) := by
    rw [hlossy.lone u rest hu hpair, isLossy_replaced.lone u rest hu hpair, hrest]
  have hplain (u : UInt16) (rest : List UInt16) (hu : ¬ isSurrogate u = true)
      (hrest : lossy rest = replaced rest) : lossy (u :: rest) = replaced (u :: rest) := by
    have hu : isSurrogate u = false := Bool.eq_false_iff.mpr hu
    rw [hlossy.plain u rest hu, isLossy_replaced.plain u rest hu, hrest]
  fun_induction decodeUnits units with
  | case1 => exact hlossy.nil
  | case2 u =>
    by_cases hu : isSurrogate u = true
    · exact hlone u [] hu (Bool.and_false _) hlossy.nil
    · exact hplain u [] hu hlossy.nil
  | case3 u v rest hpair ih =>
    rw [Bool.and_eq_true] at hpair
    rw [hlossy.pair u v rest hpair.1 hpair.2, isLossy_replaced.pair u v rest hpair.1 hpair.2, ih]
  | case4 u v rest hpair hu ih => exact hlone u (v :: rest) hu (Bool.eq_false_iff.mpr hpair) ih
  | case5 u v rest hpair hu ih => exact hplain u (v :: rest) hu ih

/-- What a lossy decoder finds is the reading of the units. -/
theorem IsLossy.isReading_iff {lossy : List UInt16 → String} (hlossy : IsLossy lossy)
    {found : String} : IsReading units found.toList ↔ lossy units = found := by
  rw [Utf16.isReading_iff, hlossy.eq_replaced, replaced]
  constructor
  · intro hunits
    rw [hunits, String.ofList_toList]
  · rintro rfl
    rw [String.toList_ofList]

/-- **Decoding is exact on text and local on damage.**  A text that starts with no byte-order mark
comes back from its units, and any text comes back from its units behind a mark.  Units of any
kind, less one mark in front, are read from left to right: a high surrogate with a low one right
behind it is the character that the two store, any other surrogate is replaced, and any other unit
is the character that it stores; so there is a character for every unit, less one for each pair.
All this holds with whatever lossy decoder the units behind the mark are decoded. -/
theorem decode_exact_local {lossy : List UInt16 → String} (hlossy : IsLossy lossy) (text : String)
    (units : List UInt16) :
    (decodeWith lossy (encode text.toList) = text ↔ text.toList.head? ≠ some '\ufeff') ∧
      decodeWith lossy (byteOrderMark :: encode text.toList) = text ∧
      (∀ found : String,
        decodeWith lossy units = found ↔ IsReading (withoutMark units) found.toList) ∧
      (decodeWith lossy units).length + pairCount (withoutMark units) =
        (withoutMark units).length := by
  have hdecode (units : List UInt16) (found : String) :
      decodeWith lossy units = found ↔ IsReading (withoutMark units) found.toList :=
    hlossy.isReading_iff.symm
  have hmark (cs : List Char) : withoutMark (byteOrderMark :: encode cs) = encode cs := by
    rw [withoutMark, if_pos rfl]
  refine ⟨⟨?_, ?_⟩, ?_, hdecode units, ?_⟩
  · -- A text that starts with a mark comes back without it.
    intro htext hhead
    obtain ⟨cs, hcs⟩ := List.head?_eq_some_iff.mp hhead
    have hunits : encode text.toList = byteOrderMark :: encode cs := by
      rw [hcs, encode, List.flatMap_cons, encodeChar_mark]
      rfl
    rw [hdecode, hunits, hmark, hcs, isReading_iff, isReading_iff.mp (isReading_encode cs)] at htext
    exact List.cons_ne_self _ _ htext.symm
  · intro hhead
    rw [hdecode, withoutMark_encode hhead]
    exact isReading_encode text.toList
  · rw [hdecode, hmark]
    exact isReading_encode text.toList
  · have hreading := (hdecode units (decodeWith lossy units)).mp rfl
    rw [← String.length_toList]
    exact hreading.length_add_pairCount

/-- The decoder of this library is a lossy one: a text comes back, and six units behind a mark, two
of them a pair, are five characters. -/
theorem decode_exact_local_replaced :
    IsLossy replaced ∧
      decode (encode "a😀".toList) = "a😀" ∧
      decode (byteOrderMark :: encode "a😀".toList) = "a😀" ∧
      (decode [0xfeff, 0xd800, 0xd83d, 0xde00, 0xde00, 0xfeff, 0x61]).length = 5 := by
  obtain ⟨htext, hmarked, -, hcount⟩ := decode_exact_local isLossy_replaced "a😀"
    [0xfeff, 0xd800, 0xd83d, 0xde00, 0xde00, 0xfeff, 0x61]
  have hpairs : pairCount (withoutMark [0xfeff, 0xd800, 0xd83d, 0xde00, 0xde00, 0xfeff, 0x61]) = 1 ∧
      (withoutMark [0xfeff, 0xd800, 0xd83d, 0xde00, 0xde00, 0xfeff, 0x61]).length = 6 := by decide
  rw [hpairs.1, hpairs.2] at hcount
  exact ⟨isLossy_replaced, htext.mpr (by decide), hmarked, Nat.succ.inj hcount⟩

/-- A high surrogate before a pair, a low one behind it, and a mark that is not in front. -/
example : decode [0xfeff, 0xd800, 0xd83d, 0xde00, 0xde00, 0xfeff] = "\ufffd😀\ufffd\ufeff" := by
  decide

end Postmortem.Utf16
