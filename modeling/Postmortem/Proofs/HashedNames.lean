/-
Postmortem/Proofs/HashedNames.lean

Names that end in a hash, and the languages that names tell.

A name is of the hashed form if it starts with `_ZN` and ends in `17h`, sixteen
hexadecimal digits and `E` (`Mangling.HashedForm`).  There are two ways to find out.
`isHashed` looks at the last twenty characters.  `isHashedByBytes?` goes through the
bytes of the text: it looks behind the last `17h`, and if seventeen bytes and an `E` at
the end of them are left, it cuts the text before the `E` and looks at each byte.  A cut
inside of a character would have no result; there is none, since an `E` is one byte and
sixteen are left.

Both ways agree because no digit is an `h`: the `17h` in front of the hash is the last
one, however many stand before it (`behindLast?_append`).

Main result: `language_of_form`.
-/
import Postmortem.Mangling
import Postmortem.Proofs.Excerpts
import Postmortem.Proofs.TypedAddresses
import Postmortem.Proofs.Utf8Codec

namespace Postmortem

/-! ### Cuts -/

namespace Utf8

/-- The first `n` bytes of a text; nothing if the text has not as many, or if they end inside of a
character. -/
def sliceTo? (n : ℕ) (cs : List Char) : Option (List Char) :=
  if size (takeBytes n cs) = n then some (takeBytes n cs) else none

/-- A text can be cut between its characters. -/
theorem sliceTo?_append (taken rest : List Char) :
    sliceTo? (size taken) (taken ++ rest) = some taken := by
  have hwhole := takeBytes_append_dropBytes (size taken) (taken ++ rest)
  rw [dropBytes_size_append] at hwhole
  rw [sliceTo?, List.append_cancel_right hwhole, if_pos rfl]

end Utf8

namespace Mangling

open Utf8 Word

variable {c : Char} {cs mark front before hash tail tail' : List Char}

/-! ### The last mark -/

/-- What stands behind the last occurrence of a mark, if there is one. -/
def behindLast? (mark : List Char) : List Char → Option (List Char)
  | [] => none
  | c :: cs =>
    match behindLast? mark cs with
    | some tail => some tail
    | none => if mark <+: c :: cs then some ((c :: cs).drop mark.length) else none

theorem exists_of_behindLast? (hlast : behindLast? mark cs = some tail) :
    ∃ before, before ++ (mark ++ tail) = cs := by
  induction cs with
  | nil => cases hlast
  | cons c cs ih =>
    rw [behindLast?] at hlast
    split at hlast
    case h_1 tail' hrest =>
      cases hlast
      obtain ⟨before, hbefore⟩ := ih hrest
      exact ⟨c :: before, by rw [List.cons_append, hbefore]⟩
    case h_2 =>
      split at hlast
      case isTrue hprefix =>
        cases hlast
        obtain ⟨rest, hrest⟩ := hprefix
        exact ⟨[], by rw [← hrest, List.drop_left, List.nil_append]⟩
      case isFalse => cases hlast

/-- No occurrence comes behind the one that is found. -/
theorem exists_behindLast?_le (hmark : mark ≠ []) (before tail : List Char) :
    ∃ tail', behindLast? mark (before ++ (mark ++ tail)) = some tail' ∧
      tail'.length ≤ tail.length := by
  induction before with
  | nil =>
    obtain ⟨c, rest, rfl⟩ := List.exists_cons_of_ne_nil hmark
    rw [List.nil_append, List.cons_append, behindLast?]
    split
    case h_1 tail' hrest =>
      obtain ⟨between, hbetween⟩ := exists_of_behindLast? hrest
      have hlength := congrArg List.length hbetween
      simp only [List.length_append, List.length_cons] at hlength
      exact ⟨tail', rfl, by omega⟩
    case h_2 =>
      have hprefix : c :: rest <+: c :: (rest ++ tail) := List.prefix_append (c :: rest) tail
      rw [if_pos hprefix, ← List.cons_append, List.drop_left]
      exact ⟨tail, rfl, le_rfl⟩
  | cons c before ih =>
    obtain ⟨tail', hrest, hle⟩ := ih
    rw [List.cons_append, behindLast?, hrest]
    exact ⟨tail', rfl, hle⟩

/-- A mark behind which its last character does not come again is the last one. -/
theorem behindLast?_append (front : List Char) (hc : c ∉ tail) :
    behindLast? (front ++ [c]) (before ++ (front ++ [c] ++ tail)) = some tail := by
  have hmark : front ++ [c] ≠ [] := by simp
  obtain ⟨tail', hlast, hle⟩ := exists_behindLast?_le hmark before tail
  obtain ⟨before', hbefore⟩ := exists_of_behindLast? hlast
  have hsuffix : tail <:+ before ++ (front ++ [c] ++ tail) :=
    (List.suffix_append _ tail).trans (List.suffix_append ..)
  have hsuffix' : [c] ++ tail' <:+ before ++ (front ++ [c] ++ tail) := by
    rw [← hbefore, List.append_assoc front]
    exact (List.suffix_append front _).trans (List.suffix_append ..)
  rcases Nat.lt_or_eq_of_le hle with hlt | heq
  · -- A later mark would end inside of `tail`.
    have hin := List.suffix_of_suffix_length_le hsuffix' hsuffix (by simpa using hlt)
    exact absurd (hin.subset (by simp)) hc
  · have hin := List.suffix_of_suffix_length_le ((List.suffix_append [c] tail').trans hsuffix')
      hsuffix hle
    rw [hlast, hin.eq_of_length heq]

/-! ### Names with a hash -/

/-- A character that is a hexadecimal digit. -/
def IsHexChar (c : Char) : Prop := ∃ d, IsHexDigit c d

theorem isSome_hexValue?_iff : (hexValue? c).isSome = true ↔ IsHexChar c := by
  rw [Option.isSome_iff_exists]
  exact exists_congr fun d => hexValue?_eq_some_iff

theorem IsHexChar.ne_h (hc : IsHexChar c) : c ≠ 'h' := by
  rintro rfl
  exact absurd (isSome_hexValue?_iff.mpr hc) (by decide)

/-- A name is `_ZN`, any text, `17h`, sixteen hexadecimal digits and `E`. -/
def HashedForm (raw : String) : Prop :=
  ∃ inner hash : String, raw = "_ZN" ++ inner ++ "17h" ++ hash ++ "E" ∧ hash.length = 16 ∧
    ∀ c ∈ hash.toList, IsHexChar c

/-- The characters of a hash that is no shorter and no longer than it should be. -/
structure IsHashText (hash : List Char) : Prop where
  length : hash.length = 16
  digits : ∀ c ∈ hash, IsHexChar c

theorem hashedForm_iff {raw : String} :
    HashedForm raw ↔ ∃ inner hash, IsHashText hash ∧
      raw.toList = ['_', 'Z', 'N'] ++ (inner ++ (['1', '7', 'h'] ++ (hash ++ ['E']))) := by
  constructor
  · rintro ⟨inner, hash, rfl, hlength, hdigits⟩
    refine ⟨inner.toList, hash.toList, ⟨?_, hdigits⟩, ?_⟩
    · rwa [String.length_toList]
    · simp
  · rintro ⟨inner, hash, ⟨hlength, hdigits⟩, hraw⟩
    refine ⟨String.ofList inner, String.ofList hash, ?_, ?_, ?_⟩
    · rw [← String.toList_inj, hraw]
      simp
    · rwa [String.length_ofList]
    · rwa [String.toList_ofList]

/-! ### By characters -/

theorem isHashEnd_iff :
    isHashEnd cs = true ↔ ∃ hash, IsHashText hash ∧ cs = ['1', '7', 'h'] ++ (hash ++ ['E']) := by
  simp only [isHashEnd, Bool.and_eq_true, beq_iff_eq, List.all_eq_true, isSome_hexValue?_iff]
  constructor
  · rintro ⟨⟨hmark, hdigits⟩, hend⟩
    have hlength : cs.length = 20 := by
      have := congrArg List.length hend
      rw [List.length_drop, List.length_singleton] at this
      omega
    refine ⟨(cs.drop 3).take 16, ⟨by simp [hlength], hdigits⟩, ?_⟩
    have hdrop : (cs.drop 3).drop 16 = ['E'] := by rw [List.drop_drop, hend]
    rw [← hdrop, List.take_append_drop, ← hmark, List.take_append_drop]
  · rintro ⟨hash, hhash, rfl⟩
    have htake : (hash ++ ['E']).take 16 = hash := List.take_left' hhash.length
    have hdrop : (hash ++ ['E']).drop 16 = ['E'] := List.drop_left' hhash.length
    refine ⟨⟨rfl, ?_⟩, hdrop⟩
    show ∀ c ∈ (hash ++ ['E']).take 16, IsHexChar c
    rw [htake]
    exact hhash.digits

theorem isHashed_iff {raw : String} : isHashed raw.toList = true ↔ HashedForm raw := by
  rw [hashedForm_iff]
  constructor
  · intro hhashed
    unfold isHashed at hhashed
    split at hhashed
    case h_1 cs hraw =>
      obtain ⟨hash, hhash, hend⟩ := isHashEnd_iff.mp hhashed
      refine ⟨cs.take (cs.length - hashLength), hash, hhash, ?_⟩
      rw [← hend, List.take_append_drop, hraw]
      rfl
    case h_2 => cases hhashed
  · rintro ⟨inner, hash, hhash, hraw⟩
    rw [hraw]
    calc isHashed (['_', 'Z', 'N'] ++ (inner ++ (['1', '7', 'h'] ++ (hash ++ ['E']))))
        = isHashEnd ((inner ++ (['1', '7', 'h'] ++ (hash ++ ['E']))).drop
            ((inner ++ (['1', '7', 'h'] ++ (hash ++ ['E']))).length - hashLength)) := rfl
      _ = isHashEnd (['1', '7', 'h'] ++ (hash ++ ['E'])) := by
          refine congrArg isHashEnd (List.drop_left' ?_)
          have hlength := hhash.length
          simp only [List.length_append, List.length_cons, List.length_nil, hashLength]
          omega
      _ = true := isHashEnd_iff.mpr ⟨hash, hhash, rfl⟩

/-! ### By bytes -/

/-- Whether a byte is the code of a hexadecimal digit. -/
def isHexByte (b : UInt8) : Bool := (hexValue? (Char.ofNat b.toNat)).isSome

/-- Whether a name is of the hashed form, as a reader of bytes finds out; nothing if it cuts the
name inside of a character. -/
def isHashedByBytes? (raw : String) : Option Bool :=
  if ['_', 'Z', 'N'] <+: raw.toList then
    match behindLast? ['1', '7', 'h'] raw.toList with
    | none => some false
    | some tail =>
      if size tail = 17 ∧ ['E'] <:+ tail then
        (sliceTo? 16 tail).map fun digits => (bytesOf (String.ofList digits)).all isHexByte
      else some false
  else some false

theorem IsHexChar.toNat_lt (hc : IsHexChar c) : c.toNat < 0x80 := by
  obtain ⟨d, hd⟩ := hc
  have hlt := hd.lt
  rcases hd with h | h
  · interval_cases d <;> cases h <;> decide
  · interval_cases d <;> cases h <;> decide

theorem isHexByte_ofNat_iff (hc : c.toNat < 0x80) :
    isHexByte (UInt8.ofNat c.toNat) = true ↔ IsHexChar c := by
  have hbyte : (UInt8.ofNat c.toNat).toNat = c.toNat :=
    UInt8.toNat_ofNat_of_lt' (hc.trans (by decide))
  rw [isHexByte, hbyte, Char.ofNat_toNat, isSome_hexValue?_iff]

theorem isHexByte_ofNat_of_le {n : ℕ} (hle : 0x80 ≤ n) (hlt : n < 256) :
    isHexByte (UInt8.ofNat n) = false := by
  have hvalid : n.isValidChar := .inl (hlt.trans (by decide))
  have hsame : (Char.ofNat n).toNat = n := by
    rw [Char.ofNat, dif_pos hvalid]
    rfl
  rw [isHexByte, UInt8.toNat_ofNat_of_lt' hlt, Bool.eq_false_iff]
  intro hsome
  have hdigit := (isSome_hexValue?_iff.mp hsome).toNat_lt
  omega

/-- The bytes of a character are codes of digits if and only if it is a digit: the first byte of a
longer character is no code at all. -/
theorem all_isHexByte_utf8EncodeChar :
    (String.utf8EncodeChar c).all isHexByte = true ↔ IsHexChar c := by
  by_cases hc : c.toNat < 0x80
  · have hone : String.utf8EncodeChar c = [UInt8.ofNat c.toNat] := by
      unfold String.utf8EncodeChar
      exact if_pos (Nat.le_of_lt_succ hc)
    rw [hone, List.all_cons, List.all_nil, Bool.and_true, isHexByte_ofNat_iff hc]
  · have hfirst : (String.utf8EncodeChar c).all isHexByte = false := by
      unfold String.utf8EncodeChar
      dsimp only
      rw [show c.val.toNat = c.toNat from rfl]
      split_ifs
      · omega
      all_goals rw [List.all_cons, isHexByte_ofNat_of_le (by omega) (by omega), Bool.false_and]
    rw [hfirst]
    exact ⟨nofun, fun hdigit => absurd hdigit.toNat_lt hc⟩

theorem all_isHexByte_iff :
    (bytesOf (String.ofList cs)).all isHexByte = true ↔ ∀ c ∈ cs, IsHexChar c := by
  rw [bytesOf_eq, String.toList_ofList, List.all_flatMap, List.all_eq_true]
  exact forall₂_congr fun _ _ => all_isHexByte_utf8EncodeChar

/-- Digits are one byte each. -/
theorem size_of_isHexChar (hdigits : ∀ c ∈ cs, IsHexChar c) : size cs = cs.length := by
  induction cs with
  | nil => rfl
  | cons c cs ih =>
    obtain ⟨hc, hrest⟩ := List.forall_mem_cons.mp hdigits
    have hone : c.utf8Size = 1 := Char.utf8Size_eq_one_iff.mpr (Nat.le_of_lt_succ hc.toNat_lt)
    rw [size_cons, List.length_cons, ih hrest, hone, Nat.add_comm]

theorem isHashedByBytes?_of_form {raw : String} (hform : HashedForm raw) :
    isHashedByBytes? raw = some true := by
  obtain ⟨inner, hash, ⟨hlength, hdigits⟩, hraw⟩ := hashedForm_iff.mp hform
  have hsize : size hash = 16 := (size_of_isHexChar hdigits).trans hlength
  have hnot : 'h' ∉ hash ++ ['E'] := by
    rw [List.mem_append, not_or]
    exact ⟨fun hmem => (hdigits _ hmem).ne_h rfl, by decide⟩
  have hlast : behindLast? ['1', '7', 'h'] raw.toList = some (hash ++ ['E']) := by
    rw [hraw, ← List.append_assoc]
    exact behindLast?_append ['1', '7'] hnot
  have hslice : sliceTo? 16 (hash ++ ['E']) = some hash := hsize ▸ sliceTo?_append hash ['E']
  have hend : size (hash ++ ['E']) = 17 ∧ ['E'] <:+ hash ++ ['E'] :=
    ⟨by rw [size_append, hsize]; rfl, List.suffix_append ..⟩
  rw [isHashedByBytes?, hraw, if_pos (List.prefix_append ..), ← hraw, hlast]
  dsimp only
  rw [if_pos hend, hslice, Option.map_some, all_isHexByte_iff.mpr hdigits]

/-- The start of a name is in front of a mark, and does not meet it. -/
theorem exists_inner {raw rest : List Char} (hstart : ['_', 'Z', 'N'] <+: raw)
    (hmark : before ++ (['1', '7', 'h'] ++ rest) = raw) :
    ∃ inner, raw = ['_', 'Z', 'N'] ++ (inner ++ (['1', '7', 'h'] ++ rest)) := by
  subst hmark
  match before with
  | [] => simp at hstart
  | [_] => simp at hstart
  | [_, _] => simp at hstart
  | a :: b :: c :: inner =>
    simp only [List.cons_append, List.cons_prefix_cons] at hstart
    obtain ⟨rfl, rfl, rfl, -⟩ := hstart
    exact ⟨inner, rfl⟩

/-- No cut is inside of a character, and a name that passes is of the form. -/
theorem exists_isHashedByBytes? (raw : String) :
    ∃ b, isHashedByBytes? raw = some b ∧ (b = true → HashedForm raw) := by
  rw [isHashedByBytes?]
  split
  case isFalse => exact ⟨false, rfl, nofun⟩
  case isTrue hstart =>
    split
    case h_1 => exact ⟨false, rfl, nofun⟩
    case h_2 tail hlast =>
      split
      case isFalse => exact ⟨false, rfl, nofun⟩
      case isTrue hend =>
        obtain ⟨hsize, digits, rfl⟩ := hend
        -- An `E` is one byte, so the sixteen before it end where it starts.
        have hsize' : size digits = 16 := by
          rw [size_append] at hsize
          exact Nat.add_right_cancel hsize
        have hslice : sliceTo? 16 (digits ++ ['E']) = some digits :=
          hsize' ▸ sliceTo?_append digits ['E']
        rw [hslice, Option.map_some]
        refine ⟨_, rfl, fun hall => ?_⟩
        have hdigits := all_isHexByte_iff.mp hall
        have hlength : digits.length = 16 := (size_of_isHexChar hdigits).symm.trans hsize'
        obtain ⟨before, hbefore⟩ := exists_of_behindLast? hlast
        obtain ⟨inner, hraw⟩ := exists_inner hstart hbefore
        exact hashedForm_iff.mpr ⟨inner, digits, ⟨hlength, hdigits⟩, hraw⟩

/-- Both ways find the same. -/
theorem isHashedByBytes?_eq (raw : String) :
    isHashedByBytes? raw = some (isHashed raw.toList) := by
  obtain ⟨b, hb, hform⟩ := exists_isHashedByBytes? raw
  by_cases h : HashedForm raw
  · rw [isHashedByBytes?_of_form h, isHashed_iff.mpr h]
  · have hnot : isHashed raw.toList = false := by
      rwa [Bool.eq_false_iff, ne_eq, isHashed_iff]
    rw [hb, hnot, Bool.eq_false_iff.mpr (mt hform h)]

/-! ### Languages -/

theorem isPrefixOf_toList_iff {raw : String} :
    front.isPrefixOf raw.toList = true ↔ ∃ rest, raw = String.ofList front ++ rest := by
  rw [List.isPrefixOf_iff_prefix]
  constructor
  · rintro ⟨rest, hrest⟩
    exact ⟨String.ofList rest, by rw [← String.ofList_append, hrest, String.ofList_toList]⟩
  · rintro ⟨rest, rfl⟩
    exact ⟨rest.toList, by rw [String.toList_append, String.toList_ofList]⟩

/-- **Names in the hashed form are recognized, and so are the languages of names.**  A name is
taken for a hashed one if and only if it is `_ZN`, any text, `17h`, sixteen hexadecimal digits and
`E`.  A reader that goes by bytes finds the same, and never cuts a name inside of a character.  A
name is one of Rust if and only if it is of this form or starts with `_R`; one of C++ if and only if
it is none of Rust and starts with `_Z`; and one of C otherwise. -/
theorem language_of_form (raw : String) :
    (isHashed raw.toList = true ↔ HashedForm raw) ∧
      isHashedByBytes? raw = some (isHashed raw.toList) ∧
      ((SymbolName.ofRaw raw).language = .rust ↔ HashedForm raw ∨ ∃ rest, raw = "_R" ++ rest) ∧
      ((SymbolName.ofRaw raw).language = .cpp ↔
        ¬ (HashedForm raw ∨ ∃ rest, raw = "_R" ++ rest) ∧ ∃ rest, raw = "_Z" ++ rest) ∧
      ((SymbolName.ofRaw raw).language = .c ↔
        ¬ (HashedForm raw ∨ ∃ rest, raw = "_R" ++ rest) ∧ ¬ ∃ rest, raw = "_Z" ++ rest) := by
  have hpath : isPath raw.toList = true ↔ ∃ rest, raw = "_R" ++ rest := isPrefixOf_toList_iff
  have hmangled : ['_', 'Z'].isPrefixOf raw.toList = true ↔ ∃ rest, raw = "_Z" ++ rest :=
    isPrefixOf_toList_iff
  refine ⟨isHashed_iff, isHashedByBytes?_eq raw, ?_⟩
  rw [← isHashed_iff, ← hpath, ← hmangled]
  simp only [SymbolName.ofRaw, language, Bool.or_eq_true, or_comm (a := isPath raw.toList = true)]
  split_ifs with hrust hcpp
  · simp [hrust]
  · simp [hrust, hcpp]
  · simp [hrust, hcpp]

/-- The last character has two bytes, so there are as many bytes as in a hash, but no hash. -/
example : isHashedByBytes? "_ZN3key17h0123456789abcdéE" = some false := by decide +kernel

end Mangling

end Postmortem
