/-
Postmortem/Proofs/Lines.lean

Lines and positions of one source text.

Two scans go over a source.  `lineColumn` runs up to a position and tells the line
and the column that it has come to; `splitLines` runs to the end and cuts the text
into its lines.  The first sees nothing behind the position, the second everything,
so they may take a carriage return differently: alone, or with its line feed.  They
come apart only at the line feed of such a pair, which is no character of a line.

So every character but the ends of lines stands in the lines where its position says
it does, and there is nothing else in the lines.  Both scans are followed from the
same place with a line left open (`charAt?_splitFrom`): what comes of the rest of the
text are the characters of the open line, and those of the rest at the places that the
other scan meets them at.

Main result: `charAt?_splitLines_iff`.
-/
import Postmortem.Proofs.Positions

namespace Postmortem.Text

variable {c d : Char} {cs current : List Char} {at_ found : ℕ × ℕ} {line column : ℕ}

/-- The character of some lines at a line and a column. -/
def charAt? (lines : List (List Char)) (at_ : ℕ × ℕ) : Option Char :=
  lines[at_.1]?.bind (·[at_.2]?)

theorem charAt?_cons_zero (l : List Char) (lines : List (List Char)) (column : ℕ) :
    charAt? (l :: lines) (0, column) = l[column]? := rfl

theorem charAt?_cons_succ (l : List Char) (lines : List (List Char)) (line column : ℕ) :
    charAt? (l :: lines) (line + 1, column) = charAt? lines (line, column) := rfl

/-! ### What a scan meets -/

/-- A scan of `cs` that begins at the place `at_` meets `c`, which ends no line, at the place
`found`. -/
def Meets (cs : List Char) (at_ found : ℕ × ℕ) (c : Char) : Prop :=
  ∃ p, cs[p]? = some c ∧ isLineEnd c = false ∧ advance (cs.take p) at_ = found

theorem not_meets_nil : ¬ Meets [] at_ found c := by
  rintro ⟨p, hp, -⟩
  cases hp

theorem meets_pair :
    Meets ('\r' :: '\n' :: cs) (line, column) found c ↔ Meets cs (line + 1, 0) found c := by
  constructor
  · rintro ⟨_ | _ | p, hp, hend, hfound⟩
    · cases hp
      cases hend
    · cases hp
      cases hend
    · exact ⟨p, hp, hend, hfound⟩
  · rintro ⟨p, hp, hend, hfound⟩
    exact ⟨p + 2, hp, hend, hfound⟩

/-- A character that begins no pair is met where the scan begins, and the others from behind it
on. -/
theorem meets_cons (hpair : ∀ rest, d = '\r' → cs = '\n' :: rest → False) :
    Meets (d :: cs) at_ found c ↔
      d = c ∧ isLineEnd c = false ∧ at_ = found ∨ Meets cs (move d at_) found c := by
  have htake (p : ℕ) : advance ((d :: cs).take (p + 1)) at_ = advance (cs.take p) (move d at_) := by
    refine advance_cons fun ⟨hd, hhead⟩ => ?_
    obtain ⟨rest, hrest⟩ := List.head?_eq_some_iff.mp hhead
    cases cs with
    | nil => cases (List.take_nil (i := p)).symm.trans hrest
    | cons e cs =>
      cases p with
      | zero => cases hrest
      | succ p => exact hpair cs hd (by rw [(List.cons.inj hrest).1])
  constructor
  · rintro ⟨_ | p, hp, hend, hfound⟩
    · exact .inl ⟨Option.some.inj hp, hend, hfound⟩
    · exact .inr ⟨p, hp, hend, (htake p).symm.trans hfound⟩
  · rintro (⟨rfl, hend, rfl⟩ | ⟨p, hp, hend, hfound⟩)
    · exact ⟨0, rfl, hend, rfl⟩
    · exact ⟨p + 1, hp, hend, (htake p).trans hfound⟩

/-- Lines are only ever left behind. -/
theorem le_advance (cs : List Char) (at_ : ℕ × ℕ) : at_.1 ≤ (advance cs at_).1 := by
  induction cs, at_ using advance.induct with
  | case1 => exact le_rfl
  | case2 cs line column ih =>
    rw [advance]
    exact (Nat.le_succ line).trans ih
  | case3 d cs line column hpair hend ih =>
    rw [advance, if_pos hend]
    · exact (Nat.le_succ line).trans ih
    · exact hpair
  | case4 d cs line column hpair hend ih =>
    rw [advance, if_neg hend]
    · exact ih
    · exact hpair

theorem Meets.le (hmeets : Meets cs at_ found c) : at_.1 ≤ found.1 := by
  obtain ⟨p, -, -, rfl⟩ := hmeets
  exact le_advance _ _

/-! ### What stands in the lines -/

/-- Behind the end of a line nothing more is met in it, and the next lines are counted on. -/
theorem charAt?_cons_iff {l : List Char} {lines : List (List Char)} {i j : ℕ}
    (hlines : ∀ i line, charAt? lines (i, j) = some c ↔ Meets cs (line, 0) (line + i, j) c) :
    charAt? (l :: lines) (i, j) = some c ↔
      i = 0 ∧ l[j]? = some c ∨ Meets cs (line + 1, 0) (line + i, j) c := by
  cases i with
  | zero =>
    have hnot : ¬ Meets cs (line + 1, 0) (line + 0, j) c := fun hmeets =>
      absurd hmeets.le (Nat.not_succ_le_self line)
    rw [charAt?_cons_zero]
    simp only [hnot, true_and, or_false]
  | succ i =>
    rw [charAt?_cons_succ, hlines i (line + 1), Nat.add_right_comm]
    simp [Nat.add_assoc]

/-- What stands in the lines of a text, when `current` is the line that is open: the characters of
that line, and each one of the text where a scan meets it. -/
theorem charAt?_splitFrom (line : ℕ) {i j : ℕ} :
    charAt? (splitFrom cs current) (i, j) = some c ↔
      i = 0 ∧ current.reverse[j]? = some c ∨
        Meets cs (line, current.length) (line + i, j) c := by
  induction cs, current using splitFrom.induct generalizing i line with
  | case1 current hempty =>
    obtain rfl := List.isEmpty_iff.mp hempty
    simp [splitFrom, charAt?, not_meets_nil]
  | case2 current hempty =>
    rw [splitFrom, if_neg hempty]
    cases i <;> simp [charAt?, not_meets_nil]
  | case3 cs current ih =>
    rw [splitFrom, meets_pair]
    exact charAt?_cons_iff fun i line => by simpa using ih line
  | case4 d cs current hpair hend ih =>
    rw [splitFrom, if_pos hend, meets_cons hpair, move, if_pos hend]
    · have hline : ¬ (d = c ∧ isLineEnd c = false ∧ (line, current.length) = (line + i, j)) := by
        rintro ⟨rfl, hnot, -⟩
        exact absurd (hend.symm.trans hnot) (by decide)
      simp only [hline, false_or]
      exact charAt?_cons_iff fun i line => by simpa using ih line
    · exact hpair
  | case5 d cs current hpair hend ih =>
    rw [splitFrom, if_neg hend, meets_cons hpair, move, if_neg hend]
    · have hopen : d = c ∧ isLineEnd c = false ∧ (line, current.length) = (line + i, j) ↔
          i = 0 ∧ d = c ∧ current.length = j := by
        rw [Prod.mk.injEq]
        constructor
        · rintro ⟨rfl, -, hline, hcolumn⟩
          exact ⟨by omega, rfl, hcolumn⟩
        · rintro ⟨rfl, rfl, hcolumn⟩
          exact ⟨rfl, by simpa using hend, rfl, hcolumn⟩
      rw [ih, List.reverse_cons, getElem?_concat_eq_some, List.length_reverse, and_or_left, hopen,
        or_assoc, List.length_cons]
    · exact hpair

/-- Cutting a text into lines takes nothing from it but the ends of its lines. -/
theorem flatten_splitFrom (cs current : List Char) :
    (splitFrom cs current).flatten = current.reverse ++ cs.filter (!isLineEnd ·) := by
  induction cs, current using splitFrom.induct with
  | case1 current hempty =>
    obtain rfl := List.isEmpty_iff.mp hempty
    rfl
  | case2 current hempty =>
    rw [splitFrom, if_neg hempty]
    simp
  | case3 cs current ih =>
    rw [splitFrom, List.flatten_cons, ih]
    rfl
  | case4 d cs current hpair hend ih =>
    rw [splitFrom, if_pos hend, List.flatten_cons, ih]
    · simp [hend]
    · exact hpair
  | case5 d cs current hpair hend ih =>
    rw [splitFrom, if_neg hend, ih]
    · simp [hend]
    · exact hpair

theorem isLineEnd_eq_false_iff : isLineEnd c = false ↔ c ≠ '\r' ∧ c ≠ '\n' := by
  simp [isLineEnd, and_comm]

/-- A character stands at a place in the lines of a source if and only if it ends no line and the
place is that of a position of it.  So no line has a character that ends one, and behind each other
the lines are the source without those. -/
theorem charAt?_splitLines_iff (source : List Char) :
    (∀ (at_ : ℕ × ℕ) (c : Char), charAt? (splitLines source) at_ = some c ↔
      ∃ p, source[p]? = some c ∧ c ≠ '\r' ∧ c ≠ '\n' ∧ lineColumn source p = at_) ∧
    (∀ line ∈ splitLines source, ∀ c ∈ line, c ≠ '\r' ∧ c ≠ '\n') ∧
    (splitLines source).flatten = source.filter fun c => c ≠ '\r' ∧ c ≠ '\n' := by
  have hkept : (fun c : Char => !isLineEnd c) = fun c => decide (c ≠ '\r' ∧ c ≠ '\n') := by
    funext c
    rw [Bool.eq_iff_iff, decide_eq_true_iff, ← isLineEnd_eq_false_iff, Bool.not_eq_true']
  have hflatten : (splitLines source).flatten =
      source.filter fun c => c ≠ '\r' ∧ c ≠ '\n' := by
    rw [splitLines, flatten_splitFrom, hkept]
    rfl
  refine ⟨fun at_ c => ?_, fun line hline c hc => ?_, hflatten⟩
  · rw [splitLines, charAt?_splitFrom 0, Nat.zero_add]
    simp [Meets, isLineEnd_eq_false_iff, lineColumn, and_assoc]
  · have hmem : c ∈ (splitLines source).flatten := List.mem_flatten.mpr ⟨line, hline, hc⟩
    rw [hflatten] at hmem
    simpa using (List.mem_filter.mp hmem).2

/-- A pair ends one line, and a line feed with a carriage return behind it two: `b` is in the second
line and `c` in the fourth. -/
theorem charAt?_splitLines_iff_mixed :
    splitLines "a\r\nb\n\rc".toList = [['a'], ['b'], [], ['c']] ∧
      charAt? (splitLines "a\r\nb\n\rc".toList) (1, 0) = some 'b' ∧
      charAt? (splitLines "a\r\nb\n\rc".toList) (3, 0) = some 'c' ∧
      ['c'] ∈ splitLines "a\r\nb\n\rc".toList ∧ ('c' ≠ '\r' ∧ 'c' ≠ '\n') := by
  have hlines := charAt?_splitLines_iff "a\r\nb\n\rc".toList
  have hmem : ['c'] ∈ splitLines "a\r\nb\n\rc".toList := by decide
  refine ⟨by decide, (hlines.1 _ _).mpr ⟨3, ?_⟩, (hlines.1 _ _).mpr ⟨6, ?_⟩, hmem,
    hlines.2.1 _ hmem 'c' List.mem_cons_self⟩ <;> decide

end Postmortem.Text
