/-
Postmortem/Proofs/TypedAddresses.lean

Addresses as people type them.

A spelling of an address has blanks at the ends, one radix mark at most, and one to
sixteen hexadecimal digits of either case, which write the address in base sixteen
(`Address.Spelling`).  Blanks are no part of marks and digits (`Text.trim_between`), and
a mark is none of digits (`withoutMark_append`), so that a text is taken apart in one
way only; sixteen digits write no number that is too large for a word.  What the
printer writes is a spelling (`forall₂_hexDigits`), and stays one when the case of
digits is changed.

Main result: `parse_spelling`.
-/
import Mathlib.Data.List.Forall2
import Mathlib.Data.List.TakeWhile
import Mathlib.Data.Nat.Digits.Lemmas
import Mathlib.Tactic.IntervalCases
import Postmortem.Failure

namespace Postmortem

/-! ### Blanks -/

namespace Text

variable {before core after cs : List Char}

theorem dropWhile_isBlank (hbefore : ∀ c ∈ before, isBlank c = true)
    (hcore : ∀ c ∈ core, isBlank c = false) : (before ++ core).dropWhile isBlank = core := by
  rw [List.dropWhile_append_of_pos hbefore, List.dropWhile_eq_self_iff]
  intro hpos
  exact Bool.eq_false_iff.mp (hcore _ (List.getElem_mem hpos))

/-- Blanks around a text without blanks are dropped, and nothing else. -/
theorem trim_between (hbefore : ∀ c ∈ before, isBlank c = true)
    (hcore : ∀ c ∈ core, isBlank c = false) (hafter : ∀ c ∈ after, isBlank c = true) :
    trim (before ++ core ++ after) = core := by
  have hback : (core ++ after).reverse.dropWhile isBlank = core.reverse := by
    rw [List.reverse_append]
    apply dropWhile_isBlank
    · intro c hc
      exact hafter c (List.mem_reverse.mp hc)
    · intro c hc
      exact hcore c (List.mem_reverse.mp hc)
  rw [trim, List.append_assoc, List.dropWhile_append_of_pos hbefore]
  cases core with
  | nil =>
    -- Only blanks are left, and the first pass drops them all.
    have hnone : after.dropWhile isBlank = [] := List.dropWhile_eq_nil_iff.mpr hafter
    rw [List.nil_append, hnone]
    rfl
  | cons c core =>
    have hc : isBlank c = false := hcore c List.mem_cons_self
    have hfront : (c :: core ++ after).dropWhile isBlank = c :: core ++ after := by
      rw [List.cons_append, List.dropWhile_cons_of_neg (Bool.eq_false_iff.mp hc)]
    rw [hfront, hback, List.reverse_reverse]

/-- What is dropped are blanks. -/
theorem exists_eq_trim (cs : List Char) :
    ∃ before after, cs = before ++ trim cs ++ after ∧ (∀ c ∈ before, isBlank c = true) ∧
      ∀ c ∈ after, isBlank c = true := by
  refine ⟨cs.takeWhile isBlank,
    ((cs.dropWhile isBlank).reverse.takeWhile isBlank).reverse, ?_, ?_, ?_⟩
  · rw [trim, List.append_assoc, ← List.reverse_append, List.takeWhile_append_dropWhile,
      List.reverse_reverse, List.takeWhile_append_dropWhile]
  · intro c hc
    exact List.mem_takeWhile_imp hc
  · intro c hc
    exact List.mem_takeWhile_imp (List.mem_reverse.mp hc)

end Text

/-! ### Digits -/

namespace Word

variable {c : Char} {d n : ℕ} {digits : List Char}

/-- `c` is the hexadecimal digit `d`, in either case. -/
def IsHexDigit (c : Char) (d : ℕ) : Prop :=
  "0123456789abcdef".toList[d]? = some c ∨ "0123456789ABCDEF".toList[d]? = some c

theorem IsHexDigit.lt (hdigit : IsHexDigit c d) : d < 16 := by
  rcases hdigit with h | h
  · exact (List.getElem?_eq_some_iff.mp h).1
  · exact (List.getElem?_eq_some_iff.mp h).1

/-- The ranges of characters that are digits. -/
theorem hexValue?_eq_some_iff : hexValue? c = some d ↔ IsHexDigit c d := by
  constructor
  · intro hvalue
    have hc : c = Char.ofNat c.toNat := (Char.ofNat_toNat c).symm
    unfold hexValue? at hvalue
    split_ifs at hvalue with hdecimal hlower hupper
    · obtain ⟨hle, hge⟩ : 48 ≤ c.toNat ∧ c.toNat ≤ 57 := hdecimal
      generalize c.toNat = n at *
      subst hc
      interval_cases n <;> cases hvalue <;> exact .inl rfl
    · obtain ⟨hle, hge⟩ : 97 ≤ c.toNat ∧ c.toNat ≤ 102 := hlower
      generalize c.toNat = n at *
      subst hc
      interval_cases n <;> cases hvalue <;> exact .inl rfl
    · obtain ⟨hle, hge⟩ : 65 ≤ c.toNat ∧ c.toNat ≤ 70 := hupper
      generalize c.toNat = n at *
      subst hc
      interval_cases n <;> cases hvalue <;> exact .inr rfl
  · intro hdigit
    have hlt := hdigit.lt
    rcases hdigit with h | h
    · interval_cases d <;> cases h <;> rfl
    · interval_cases d <;> cases h <;> rfl

/-- No digit is a blank. -/
theorem IsHexDigit.isBlank_eq_false (hdigit : IsHexDigit c d) : Text.isBlank c = false := by
  have hlt := hdigit.lt
  rcases hdigit with h | h
  · interval_cases d <;> cases h <;> rfl
  · interval_cases d <;> cases h <;> rfl

theorem IsHexDigit.toUpper (hdigit : IsHexDigit c d) : IsHexDigit c.toUpper d := by
  have hlt := hdigit.lt
  rcases hdigit with h | h
  · interval_cases d <;> cases h <;> exact .inr rfl
  · interval_cases d <;> cases h <;> exact .inr rfl

theorem isHexDigit_hexDigit (n : ℕ) : IsHexDigit (hexDigit n) (n % 16) := by
  have hlt : n % 16 < 16 := Nat.mod_lt n (by decide)
  rw [hexDigit]
  generalize n % 16 = d at *
  interval_cases d <;> exact .inl rfl

/-- Digits are read from the left, each making what was read sixteen times as much. -/
theorem foldlM_hexValue?_eq_some_iff {m : ℕ} :
    digits.foldlM (fun n c => (hexValue? c).map (16 * n + ·)) m = some n ↔
      ∃ values, List.Forall₂ IsHexDigit digits values ∧
        n = 16 ^ values.length * m + Nat.ofDigits 16 values.reverse := by
  induction digits generalizing m with
  | nil => simp [eq_comm]
  | cons c digits ih =>
    simp only [List.foldlM_cons, Option.bind_eq_bind, Option.bind_eq_some_iff,
      Option.map_eq_some_iff, hexValue?_eq_some_iff, ih, List.forall₂_cons_left_iff]
    constructor
    · rintro ⟨_, ⟨d, hd, rfl⟩, values, hvalues, rfl⟩
      refine ⟨d :: values, ⟨d, values, hd, hvalues, rfl⟩, ?_⟩
      rw [List.length_cons, List.reverse_cons, Nat.ofDigits_append, Nat.ofDigits_singleton,
        List.length_reverse]
      ring
    · rintro ⟨_, ⟨d, values, hd, hvalues, rfl⟩, rfl⟩
      refine ⟨16 * m + d, ⟨d, hd, rfl⟩, values, hvalues, ?_⟩
      rw [List.length_cons, List.reverse_cons, Nat.ofDigits_append, Nat.ofDigits_singleton,
        List.length_reverse]
      ring

theorem ofHexDigits?_eq_some_iff :
    ofHexDigits? digits = some n ↔
      ∃ values, List.Forall₂ IsHexDigit digits values ∧ n = Nat.ofDigits 16 values.reverse := by
  simp only [ofHexDigits?, foldlM_hexValue?_eq_some_iff, Nat.mul_zero, Nat.zero_add]

/-- The digits that the printer writes are those of the number. -/
theorem forall₂_hexDigits (width n : ℕ) :
    ∃ values, List.Forall₂ IsHexDigit (hexDigits width n) values ∧
      Nat.ofDigits 16 values.reverse = n % 16 ^ width := by
  induction width generalizing n with
  | zero => exact ⟨[], .nil, by simp [Nat.mod_one]⟩
  | succ width ih =>
    obtain ⟨values, hvalues, hn⟩ := ih (n / 16)
    refine ⟨values ++ [n % 16], ?_, ?_⟩
    · exact List.rel_append hvalues (.cons (isHexDigit_hexDigit n) .nil)
    · rw [List.reverse_append, List.reverse_singleton, List.singleton_append, Nat.ofDigits_cons,
        hn, Nat.pow_succ', Nat.mod_mul]

theorem length_hexDigits (width n : ℕ) : (hexDigits width n).length = width := by
  induction width generalizing n with
  | zero => rfl
  | succ width ih => rw [hexDigits, List.length_append, ih, List.length_singleton]

theorem lt_of_mem_values {values : List ℕ} (hvalues : List.Forall₂ IsHexDigit digits values) :
    ∀ d ∈ values, d < 16 := by
  induction hvalues with
  | nil => simp
  | cons hd _ ih => exact List.forall_mem_cons.mpr ⟨hd.lt, ih⟩

/-- Sixteen digits write no more than a word. -/
theorem ofDigits_lt {values : List ℕ} (hvalues : List.Forall₂ IsHexDigit digits values)
    (hlength : digits.length ≤ 16) : Nat.ofDigits 16 values.reverse < UInt64.size := by
  have hlt : Nat.ofDigits 16 values.reverse < 16 ^ values.reverse.length := by
    apply Nat.ofDigits_lt_base_pow_length (by decide)
    intro d hd
    exact lt_of_mem_values hvalues d (List.mem_reverse.mp hd)
  rw [List.length_reverse, ← hvalues.length_eq] at hlt
  exact hlt.trans_le (Nat.pow_le_pow_right (by decide) hlength)

end Word

/-! ### Spellings -/

namespace Address

open Word Text

/-- What may stand before the digits. -/
def radixMarks : List (List Char) := [[], ['0', 'x'], ['0', 'X']]

/-- A way to type an address: blanks, a radix mark or none, one to sixteen digits that write the
address in base sixteen, and blanks. -/
structure Spelling (a : Address) where
  before : List Char
  mark : List Char
  digits : List Char
  after : List Char
  values : List ℕ
  blank_before : ∀ c ∈ before, isBlank c = true
  blank_after : ∀ c ∈ after, isBlank c = true
  mark_mem : mark ∈ radixMarks
  length_pos : 1 ≤ digits.length
  length_le : digits.length ≤ 16
  digits_values : List.Forall₂ IsHexDigit digits values
  value : a.word.toNat = Nat.ofDigits 16 values.reverse

/-- What is typed. -/
def Spelling.text {a : Address} (s : Spelling a) : String :=
  String.ofList (s.before ++ (s.mark ++ s.digits) ++ s.after)

variable {a : Address} {typed : String} {before mark digits after cs : List Char}
  {values : List ℕ}

theorem isHexDigit_of_mem (hdigits : List.Forall₂ IsHexDigit digits values) :
    ∀ c ∈ digits, ∃ d, IsHexDigit c d := by
  induction hdigits with
  | nil => simp
  | cons hd _ ih => exact List.forall_mem_cons.mpr ⟨⟨_, hd⟩, ih⟩

/-- Digits are not taken for a mark. -/
theorem withoutMark_append (hmark : mark ∈ radixMarks)
    (hdigits : ∀ c ∈ digits, ∃ d, IsHexDigit c d) : withoutMark (mark ++ digits) = digits := by
  simp only [radixMarks, List.mem_cons, List.not_mem_nil, or_false] at hmark
  rcases hmark with rfl | rfl | rfl
  · rw [List.nil_append]
    unfold withoutMark
    split
    · obtain ⟨d, hd⟩ := hdigits 'x' (by simp)
      exact nomatch hexValue?_eq_some_iff.mpr hd
    · obtain ⟨d, hd⟩ := hdigits 'X' (by simp)
      exact nomatch hexValue?_eq_some_iff.mpr hd
    · rfl
  · rfl
  · rfl

theorem exists_eq_mark (cs : List Char) : ∃ mark ∈ radixMarks, cs = mark ++ withoutMark cs := by
  unfold withoutMark
  split
  · exact ⟨['0', 'x'], by decide, rfl⟩
  · exact ⟨['0', 'X'], by decide, rfl⟩
  · exact ⟨[], by decide, rfl⟩

theorem isBlank_of_mem_mark (hmark : mark ∈ radixMarks) : ∀ c ∈ mark, isBlank c = false := by
  simp only [radixMarks, List.mem_cons, List.not_mem_nil, or_false] at hmark
  rcases hmark with rfl | rfl | rfl
  · simp
  · exact List.forall_mem_cons.mpr ⟨by decide, List.forall_mem_singleton.mpr (by decide)⟩
  · exact List.forall_mem_cons.mpr ⟨by decide, List.forall_mem_singleton.mpr (by decide)⟩

/-- A text is read as an address if and only if it is a spelling of it. -/
theorem parse?_eq_some_iff : parse? typed = some a ↔ ∃ s : Spelling a, s.text = typed := by
  unfold parse?
  dsimp only
  constructor
  · intro hparse
    obtain ⟨before, after, htyped, hbefore, hafter⟩ := exists_eq_trim typed.toList
    obtain ⟨mark, hmark, hcore⟩ := exists_eq_mark (trim typed.toList)
    generalize withoutMark (trim typed.toList) = digits at *
    split at hparse
    case isTrue => cases hparse
    case isFalse hlength =>
      obtain ⟨n, hdigits, rfl⟩ := Option.map_eq_some_iff.mp hparse
      obtain ⟨values, hvalues, rfl⟩ := ofHexDigits?_eq_some_iff.mp hdigits
      simp only [Bool.or_eq_true, decide_eq_true_eq, not_or, List.isEmpty_iff] at hlength
      have hle : digits.length ≤ 16 := Nat.le_of_not_lt hlength.2
      refine ⟨⟨before, mark, digits, after, values, hbefore, hafter, hmark,
        List.length_pos_iff.mpr hlength.1, hle, hvalues, ?_⟩, ?_⟩
      · exact UInt64.toNat_ofNat_of_lt' (ofDigits_lt hvalues hle)
      · rw [Spelling.text]
        dsimp only
        rw [← hcore, ← htyped, String.ofList_toList]
  · rintro ⟨s, rfl⟩
    have hdigits := isHexDigit_of_mem s.digits_values
    have hcore : ∀ c ∈ s.mark ++ s.digits, isBlank c = false := by
      intro c hc
      rcases List.mem_append.mp hc with hmark | hdigit
      · exact isBlank_of_mem_mark s.mark_mem c hmark
      · obtain ⟨d, hd⟩ := hdigits c hdigit
        exact hd.isBlank_eq_false
    have hlength : ¬ (s.digits.isEmpty || decide (s.digits.length > 16)) = true := by
      have hpos := s.length_pos
      have hle := s.length_le
      simp only [Bool.or_eq_true, decide_eq_true_eq, not_or, List.isEmpty_iff_length_eq_zero]
      omega
    rw [Spelling.text, String.toList_ofList, trim_between s.blank_before hcore s.blank_after,
      withoutMark_append s.mark_mem hdigits, if_neg hlength,
      ofHexDigits?_eq_some_iff.mpr ⟨s.values, s.digits_values, rfl⟩, ← s.value, Option.map_some,
      UInt64.ofNat_toNat]

theorem parse_eq_ok_iff : Address.parse typed = .ok a ↔ ∃ s : Spelling a, s.text = typed := by
  rw [← parse?_eq_some_iff, Address.parse]
  cases parse? typed with
  | none => exact ⟨nofun, nofun⟩
  | some b => exact Except.ok.injEq b a ▸ Option.some.injEq b a ▸ Iff.rfl

/-! ### Printed addresses -/

/-- A digit as it was printed, or in upper case. -/
def SameDigit (printed c : Char) : Prop := c = printed ∨ c = printed.toUpper

instance : DecidableRel SameDigit := fun _ _ => inferInstanceAs (Decidable (_ ∨ _))

theorem forall₂_sameDigit {printed : List Char} (hsame : List.Forall₂ SameDigit printed digits)
    (hprinted : List.Forall₂ IsHexDigit printed values) :
    List.Forall₂ IsHexDigit digits values := by
  induction hsame generalizing values with
  | nil => exact hprinted
  | cons hc _ ih =>
    obtain ⟨d, rest, hd, hrest, rfl⟩ := List.forall₂_cons_left_iff.mp hprinted
    refine .cons ?_ (ih hrest)
    rcases hc with rfl | rfl
    · exact hd
    · exact hd.toUpper

/-- What is printed can be typed with blanks around it, in either case, with any mark or none. -/
theorem exists_spelling (hbefore : ∀ c ∈ before, isBlank c = true)
    (hafter : ∀ c ∈ after, isBlank c = true) (hmark : mark ∈ radixMarks)
    (hsame : List.Forall₂ SameDigit (hexDigits 16 a.word.toNat) digits) :
    ∃ s : Spelling a, s.text = String.ofList (before ++ (mark ++ digits) ++ after) := by
  obtain ⟨values, hvalues, hvalue⟩ := forall₂_hexDigits 16 a.word.toNat
  have hlength : digits.length = 16 := by rw [← hsame.length_eq, length_hexDigits]
  refine ⟨⟨before, mark, digits, after, values, hbefore, hafter, hmark, by omega, by omega,
    forall₂_sameDigit hsame hvalues, ?_⟩, rfl⟩
  have hlt : a.word.toNat < 16 ^ 16 := a.word.toNat_lt
  rw [hvalue, Nat.mod_eq_of_lt hlt]

/-- **Typed addresses are read if and only if they are spelled as one.**  A text is read as an
address if it is a spelling of the address, and then only; a text that spells no address is refused
as it was typed.  What is printed is read as the address that was printed, also with blanks around
it, with another mark or none, and with digits in upper case. -/
theorem parse_spelling (typed : String) (a : Address) :
    (Address.parse typed = .ok a ↔ ∃ s : Spelling a, s.text = typed) ∧
      (Address.parse typed = .error (.address typed) ↔
        ¬ ∃ b, ∃ s : Spelling b, s.text = typed) ∧
      Address.parse a.text = .ok a ∧
      ∀ before mark digits after, (∀ c ∈ before, isBlank c = true) →
        (∀ c ∈ after, isBlank c = true) → mark ∈ radixMarks →
        List.Forall₂ SameDigit (hexDigits 16 a.word.toNat) digits →
        Address.parse (String.ofList (before ++ (mark ++ digits) ++ after)) = .ok a := by
  refine ⟨parse_eq_ok_iff, ?_, ?_, ?_⟩
  · simp only [← parse?_eq_some_iff, Address.parse]
    cases parse? typed with
    | none => simp
    | some b => simp
  · have hsame : List.Forall₂ SameDigit (hexDigits 16 a.word.toNat)
        (hexDigits 16 a.word.toNat) := List.forall₂_same.mpr fun c _ => .inl rfl
    have hblank : ∀ c ∈ ([] : List Char), isBlank c = true := by simp
    have hmark : ['0', 'x'] ∈ radixMarks := by decide
    obtain ⟨s, hs⟩ := exists_spelling hblank hblank hmark hsame
    rw [parse_eq_ok_iff]
    refine ⟨s, hs.trans ?_⟩
    rw [List.nil_append, List.append_nil, String.ofList_append]
    rfl
  · intro before mark digits after hbefore hafter hmark hsame
    rw [parse_eq_ok_iff]
    exact exists_spelling hbefore hafter hmark hsame

/-- Blanks of several kinds, the other mark, and digits in both cases. -/
theorem parse_spelling_mixed :
    Address.parse "\u00a0\t0X00000000DEADbeef\u2028" = .ok ⟨0xdeadbeef⟩ := by
  have hbefore : ∀ c ∈ ['\u00a0', '\t'], isBlank c = true :=
    List.forall_mem_cons.mpr ⟨by decide, List.forall_mem_singleton.mpr (by decide)⟩
  have hafter : ∀ c ∈ ['\u2028'], isBlank c = true := List.forall_mem_singleton.mpr (by decide)
  have hmark : ['0', 'X'] ∈ radixMarks := by decide
  have hsame : List.Forall₂ SameDigit (hexDigits 16 0xdeadbeef) "00000000DEADbeef".toList := by
    decide +kernel
  exact (parse_spelling "" ⟨0xdeadbeef⟩).2.2.2 _ _ _ _ hbefore hafter hmark hsame

/-- One mark and no more, no sign, no digits too many, and no digits too few. -/
example : ["", "0x", "0x0x1", "-1", "1_0", "0x00000000000000001"].filterMap parse? = [] := by
  decide +kernel

end Address

end Postmortem
