/-
Postmortem/Proofs/Positions.lean

Where a position of a source text is.

A line ends behind a line feed, and behind a carriage return that no line feed
follows, so a pair of the two ends one line.  The line of a position is how many
line ends there are up to it, and the column how far it is behind the last one
(`place`).  Scripts are scanned one character after the other instead; the scan
counts a pair when it comes to the carriage return, so it agrees with `place`
everywhere but inside a pair (`lineColumn_eq`).

What is scanned is the low byte of each unit.  That text has the length of the
source, but it has more line ends: a unit such as U+4E0D, whose low byte is that
of a carriage return, ends a line there.  So the places that are told are those
of the source if and only if it has no such unit.

Main result: `lineColumn?_yields_place_iff`.
-/
import Mathlib.Data.Nat.Count
import Mathlib.Data.Nat.Find
import Postmortem.Heap.Function
import Postmortem.Proofs.Collections
import Postmortem.Proofs.Listing
import Postmortem.Proofs.Yield

namespace Postmortem

open HeapM

/-! ### Places -/

namespace Text

section

variable {α β : Type} [DecidableEq α] [DecidableEq β] (lf cr : α) (text : List α)

/-- Whether a line ends right before a position. -/
def EndsLine : ℕ → Prop
  | 0 => False
  | i + 1 => text[i]? = some lf ∨ text[i]? = some cr ∧ text[i + 1]? ≠ some lf

/-- Whether a position is between a carriage return and its line feed. -/
def SplitsPair : ℕ → Prop
  | 0 => False
  | i + 1 => text[i]? = some cr ∧ text[i + 1]? = some lf

instance : DecidablePred (EndsLine lf cr text)
  | 0 => .isFalse id
  | i + 1 => inferInstanceAs
      (Decidable (text[i]? = some lf ∨ text[i]? = some cr ∧ text[i + 1]? ≠ some lf))

instance : DecidablePred (SplitsPair lf cr text)
  | 0 => .isFalse id
  | i + 1 => inferInstanceAs (Decidable (text[i]? = some cr ∧ text[i + 1]? = some lf))

/-- The line and column of a position: how many lines end up to it, and how far behind the last
end it is. -/
def place (position : ℕ) : ℕ × ℕ :=
  (Nat.count (EndsLine lf cr text) (position + 1),
    position - Nat.findGreatest (EndsLine lf cr text) position)

variable {lf cr text} {i : ℕ}

theorem place_zero : place lf cr text 0 = (0, 0) := by
  simp [place, Nat.count_succ, EndsLine]

theorem place_succ_of_ends (hends : EndsLine lf cr text (i + 1)) :
    place lf cr text (i + 1) = ((place lf cr text i).1 + 1, 0) := by
  simp only [place]
  rw [Nat.count_succ, if_pos hends, Nat.findGreatest_succ, if_pos hends, Nat.sub_self]

theorem place_succ_of_not_ends (hends : ¬ EndsLine lf cr text (i + 1)) :
    place lf cr text (i + 1) = ((place lf cr text i).1, (place lf cr text i).2 + 1) := by
  have hle := Nat.findGreatest_le (P := EndsLine lf cr text) i
  simp only [place]
  rw [Nat.count_succ, if_neg hends, Nat.findGreatest_succ, if_neg hends, Nat.add_zero,
    Nat.sub_add_comm hle]

section

variable {f : α → β} (hlf : ∀ x ∈ text, f x = f lf ↔ x = lf) (hcr : ∀ x ∈ text, f x = f cr ↔ x = cr)
include hlf hcr

omit [DecidableEq α] [DecidableEq β] in
theorem splitsPair_map : SplitsPair (f lf) (f cr) (text.map f) = SplitsPair lf cr text := by
  funext j
  cases j with
  | zero => rfl
  | succ j => simp only [SplitsPair, getElem?_map_eq_some hlf, getElem?_map_eq_some hcr]

/-- Places are kept by what keeps the characters that end lines apart from the others. -/
theorem place_map (position : ℕ) :
    place (f lf) (f cr) (text.map f) position = place lf cr text position := by
  have hends : EndsLine (f lf) (f cr) (text.map f) = EndsLine lf cr text := by
    funext j
    cases j with
    | zero => rfl
    | succ j =>
      simp only [EndsLine, ne_eq, getElem?_map_eq_some hlf, getElem?_map_eq_some hcr]
  simp only [place, hends]

end

end

/-! ### The scan -/

/-- The line and column behind a character. -/
def move (c : Char) (at_ : ℕ × ℕ) : ℕ × ℕ :=
  if isLineEnd c then (at_.1 + 1, 0) else (at_.1, at_.2 + 1)

theorem advance_cons {c : Char} {cs : List Char} {at_ : ℕ × ℕ}
    (hpair : ¬ (c = '\r' ∧ cs.head? = some '\n')) :
    advance (c :: cs) at_ = advance cs (move c at_) := by
  rw [advance]
  · unfold move
    split <;> rfl
  · rintro rest rfl rfl
    exact hpair ⟨rfl, rfl⟩

/-- A character that begins no pair is moved over on its own, whatever comes behind it. -/
theorem advance_cons_snoc {d c : Char} {cs : List Char} {at_ : ℕ × ℕ}
    (hpair : ∀ rest, d = '\r' → cs = '\n' :: rest → False)
    (hrest : advance (cs ++ [c]) (move d at_) =
      if cs.getLast? = some '\r' ∧ c = '\n' then advance cs (move d at_)
      else move c (advance cs (move d at_))) :
    advance (d :: cs ++ [c]) at_ =
      if (d :: cs).getLast? = some '\r' ∧ c = '\n' then advance (d :: cs) at_
      else move c (advance (d :: cs) at_) := by
  have hpair : ¬ (d = '\r' ∧ cs.head? = some '\n') := fun ⟨hd, hhead⟩ => by
    obtain ⟨rest, hrest⟩ := List.head?_eq_some_iff.mp hhead
    exact hpair rest hd hrest
  cases cs with
  | nil =>
    by_cases hlast : d = '\r' ∧ c = '\n'
    · obtain ⟨rfl, rfl⟩ := hlast
      rfl
    · rw [List.cons_append, advance_cons (by simpa using hlast), advance_cons hpair, hrest]
      simp [hlast]
  | cons e cs =>
    rw [List.cons_append, advance_cons (by simpa using hpair), advance_cons hpair, hrest,
      List.getLast?_cons_cons]

/-- A line feed behind a carriage return leaves the place as it is. -/
theorem advance_snoc (cs : List Char) (c : Char) (at_ : ℕ × ℕ) :
    advance (cs ++ [c]) at_ =
      if cs.getLast? = some '\r' ∧ c = '\n' then advance cs at_ else move c (advance cs at_) := by
  induction cs, at_ using advance.induct with
  | case1 at_ =>
    rw [List.nil_append, advance_cons (by simp), if_neg (by simp)]
    simp [advance]
  | case2 cs line column ih =>
    rw [List.cons_append, List.cons_append, advance, advance, ih]
    cases cs <;> simp
  | case3 d cs line column hpair hend ih =>
    exact advance_cons_snoc hpair (by simpa [move, hend] using ih)
  | case4 d cs line column hpair hend ih =>
    exact advance_cons_snoc hpair (by simpa [move, hend] using ih)

theorem lineColumn_zero (source : List Char) : lineColumn source 0 = (0, 0) := by
  simp [lineColumn, advance]

theorem lineColumn_succ {source : List Char} {i : ℕ} (hi : i < source.length) :
    lineColumn source (i + 1) =
      if SplitsPair '\n' '\r' source i then lineColumn source i
      else move source[i] (lineColumn source i) := by
  have hsplits : ((source.take i).getLast? = some '\r' ∧ source[i] = '\n') ↔
      SplitsPair '\n' '\r' source i := by
    cases i with
    | zero => simp [SplitsPair]
    | succ j =>
      have hj : j < source.length := by omega
      simp [SplitsPair, List.getLast?_take, hi, hj]
  simp only [lineColumn]
  rw [List.take_succ_eq_append_getElem hi, advance_snoc]
  simp only [hsplits]

/-- The scan is right but inside a pair, where it is already in the next line. -/
theorem lineColumn_eq {source : List Char} {position : ℕ} (hposition : position ≤ source.length) :
    lineColumn source position =
      if SplitsPair '\n' '\r' source position then ((place '\n' '\r' source position).1 + 1, 0)
      else place '\n' '\r' source position := by
  induction position with
  | zero => simp [lineColumn_zero, place_zero, SplitsPair]
  | succ i ih =>
    have hget : source[i]? = some source[i] := List.getElem?_eq_getElem hposition
    rw [lineColumn_succ hposition, ih (by omega)]
    by_cases hsplits : SplitsPair '\n' '\r' source i
    · -- The line feed ends the line that the scan has already left.
      have hlf : source[i]? = some '\n' := by
        cases i with
        | zero => exact hsplits.elim
        | succ j => exact hsplits.2
      have hends : EndsLine '\n' '\r' source (i + 1) := .inl hlf
      rw [if_pos hsplits, if_pos hsplits, place_succ_of_ends hends,
        if_neg fun hnext => absurd (hlf.symm.trans hnext.1) (by decide)]
    · rw [if_neg hsplits, if_neg hsplits]
      by_cases hlf : source[i] = '\n'
      · have hends : EndsLine '\n' '\r' source (i + 1) := .inl (hlf ▸ hget)
        rw [place_succ_of_ends hends, hlf,
          if_neg fun hnext => absurd ((hlf ▸ hget).symm.trans hnext.1) (by decide)]
        rfl
      by_cases hcr : source[i] = '\r'
      · by_cases hnext : source[i + 1]? = some '\n'
        · have hends : ¬ EndsLine '\n' '\r' source (i + 1) := by
            simp [EndsLine, hget, hlf, hnext]
          rw [if_pos ⟨hcr ▸ hget, hnext⟩, place_succ_of_not_ends hends, hcr]
          rfl
        · have hends : EndsLine '\n' '\r' source (i + 1) := .inr ⟨hcr ▸ hget, hnext⟩
          rw [if_neg fun hsplits => hnext hsplits.2, place_succ_of_ends hends, hcr]
          rfl
      · have hends : ¬ EndsLine '\n' '\r' source (i + 1) := by
          simp [EndsLine, hget, hlf, hcr]
        rw [if_neg fun hsplits => hcr (Option.some.inj (hget.symm.trans hsplits.1)),
          place_succ_of_not_ends hends]
        simp [move, isLineEnd, hlf, hcr]

/-- Behind what looks like a line end the column is zero. -/
theorem column_eq_zero {source : List Char} {i : ℕ}
    (hend : source[i]? = some '\n' ∨ source[i]? = some '\r') :
    (lineColumn source (i + 1)).2 = 0 := by
  have hi : i < source.length := by
    rcases hend with hend | hend <;> exact (List.getElem?_eq_some_iff.mp hend).1
  rw [lineColumn_eq hi]
  split
  case isTrue => rfl
  case isFalse hsplits =>
    have hends : EndsLine '\n' '\r' source (i + 1) :=
      hend.imp id fun hcr => ⟨hcr, fun hlf => hsplits ⟨hcr, hlf⟩⟩
    rw [place_succ_of_ends hends]

end Text

/-! ### Low bytes -/

namespace Utf16

def lineFeed : UInt16 := 0x0a

def carriageReturn : UInt16 := 0x0d

/-- The character of the low byte of a unit. -/
def lowChar (u : UInt16) : Char := Char.ofNat (u.toNat % 256)

/-- Whether a unit is no line end, but its low byte is one. -/
def IsFalseEnd (u : UInt16) : Prop := 256 ≤ u.toNat ∧ (lowChar u = '\n' ∨ lowChar u = '\r')

instance : DecidablePred IsFalseEnd := fun u =>
  inferInstanceAs (Decidable (256 ≤ u.toNat ∧ (lowChar u = '\n' ∨ lowChar u = '\r')))

variable {u : UInt16} {units : List UInt16}

theorem toNat_lowChar (u : UInt16) : (lowChar u).toNat = u.toNat % 256 := by
  have hvalid : (u.toNat % 256).isValidChar := .inl (by omega)
  rw [lowChar, Char.ofNat, dif_pos hvalid]
  rfl

theorem lowChar_eq_iff {c : UInt16} (hu : u.toNat < 256) (hc : c.toNat < 256) :
    lowChar u = lowChar c ↔ u = c := by
  refine ⟨fun heq => ?_, congrArg _⟩
  have hlow := congrArg Char.toNat heq
  rw [toNat_lowChar, toNat_lowChar, Nat.mod_eq_of_lt hu, Nat.mod_eq_of_lt hc] at hlow
  exact UInt16.toNat_inj.mp hlow

/-- The low byte of a unit that is no false end ends a line only if the unit does. -/
theorem lowChar_eq_lineEnd_iff (hu : ¬ IsFalseEnd u) {c : UInt16} (hc : c.toNat < 256)
    (hend : lowChar c = '\n' ∨ lowChar c = '\r') : lowChar u = lowChar c ↔ u = c := by
  by_cases hlt : u.toNat < 256
  · exact lowChar_eq_iff hlt hc
  · refine ⟨fun heq => absurd ⟨by omega, ?_⟩ hu, congrArg _⟩
    rwa [heq]

/-- Scanning the low bytes is right everywhere if and only if no unit is a false end. -/
theorem lineColumn_narrow_iff :
    (∀ position ≤ units.length, ¬ Text.SplitsPair lineFeed carriageReturn units position →
        Text.lineColumn (narrow units) position =
          Text.place lineFeed carriageReturn units position) ↔
      ∀ u ∈ units, ¬ IsFalseEnd u := by
  constructor
  · -- Right behind a false end the column is not zero, but the scan says so.
    rintro hright u hu ⟨hlarge, hend⟩
    obtain ⟨i, hi, rfl⟩ := List.getElem_of_mem hu
    have hget : units[i]? = some units[i] := List.getElem?_eq_getElem hi
    have hne (c : UInt16) (hc : c.toNat < 256) : units[i]? ≠ some c := by
      rw [hget]
      rintro ⟨rfl⟩
      omega
    have hends : ¬ Text.EndsLine lineFeed carriageReturn units (i + 1) := by
      rintro (hlf | ⟨hcr, -⟩)
      · exact hne _ (by decide) hlf
      · exact hne _ (by decide) hcr
    have hplace := hright (i + 1) hi fun hsplits => hne _ (by decide) hsplits.1
    have hlow : (narrow units)[i]? = some (lowChar units[i]) := by
      rw [narrow, List.getElem?_map, hget]
      rfl
    have hzero : (Text.lineColumn (narrow units) (i + 1)).2 = 0 :=
      Text.column_eq_zero (hend.imp (fun heq => by rw [hlow, heq]) fun heq => by rw [hlow, heq])
    rw [hplace, Text.place_succ_of_not_ends hends] at hzero
    exact absurd hzero (Nat.succ_ne_zero _)
  · intro hunits position hposition hsplits
    have hlf : ∀ u ∈ units, lowChar u = lowChar lineFeed ↔ u = lineFeed := fun u hu =>
      lowChar_eq_lineEnd_iff (hunits u hu) (by decide) (.inl rfl)
    have hcr : ∀ u ∈ units, lowChar u = lowChar carriageReturn ↔ u = carriageReturn := fun u hu =>
      lowChar_eq_lineEnd_iff (hunits u hu) (by decide) (.inr rfl)
    rw [← Text.splitsPair_map hlf hcr] at hsplits
    rw [Text.lineColumn_eq (by rwa [length_narrow]), ← Text.place_map hlf hcr]
    exact if_neg hsplits

end Utf16

/-! ### Scripts -/

section

variable {h : Heap} {script source shared : Address} {units : List UInt16}

theorem Script.yields_lineColumn? (hsource : (Script.source? script).Yields h (some source))
    (hunits : (JsString.codeUnits source).Yields h units) (position : ℕ) :
    (Script.lineColumn? script position).Yields h
      (some (Text.lineColumn (Utf16.narrow units) position)) := by
  have hnarrow : (JsString.narrowText source).Yields h (Utf16.narrow units) :=
    hunits.bind (yields_pure.mpr rfl)
  have htext : (Script.narrowSource? script).Yields h (some (Utf16.narrow units)) :=
    hsource.bind (hnarrow.bind (yields_pure.mpr rfl))
  exact htext.bind (yields_pure.mpr rfl)

theorem SharedInfo.yields_location {position line column : ℕ} {name : String}
    (hscript : (SharedInfo.script? shared).Yields h (some script))
    (hname : (Script.name script).Yields h name)
    (hstart : (SharedInfo.startPosition shared).Yields h position)
    (hplace : (Script.lineColumn? script position).Yields h (some (line, column))) :
    (SharedInfo.location shared).Yields h
      s!"{if name.isEmpty then nativeCode else name}:{line + 1}:{column}" :=
  hscript.bind (hname.bind (hstart.bind (hplace.bind (yields_pure.mpr rfl))))

/-- The places that are told are those of the source if and only if no unit of it is a false end,
and the location of a function tells the place where it starts. -/
theorem Script.lineColumn?_yields_place_iff
    (hsource : (Script.source? script).Yields h (some source))
    (hunits : (JsString.codeUnits source).Yields h units) :
    ((∀ position ≤ units.length,
        ¬ Text.SplitsPair Utf16.lineFeed Utf16.carriageReturn units position →
          (Script.lineColumn? script position).Yields h
            (some (Text.place Utf16.lineFeed Utf16.carriageReturn units position))) ↔
      ∀ u ∈ units, ¬ Utf16.IsFalseEnd u) ∧
    ((∀ u ∈ units, ¬ Utf16.IsFalseEnd u) →
      ∀ (shared : Address) (position : ℕ) (name : String),
        (SharedInfo.script? shared).Yields h (some script) →
        (Script.name script).Yields h name →
        (SharedInfo.startPosition shared).Yields h position → position ≤ units.length →
        ¬ Text.SplitsPair Utf16.lineFeed Utf16.carriageReturn units position →
        (SharedInfo.location shared).Yields h
          (let (line, column) := Text.place Utf16.lineFeed Utf16.carriageReturn units position
           s!"{if name.isEmpty then nativeCode else name}:{line + 1}:{column}")) := by
  have hscan (position : ℕ) := Script.yields_lineColumn? hsource hunits position
  constructor
  · rw [← Utf16.lineColumn_narrow_iff]
    constructor
    · intro hright position hposition hsplits
      exact Option.some.inj ((hscan position).unique (hright position hposition hsplits))
    · intro hright position hposition hsplits
      rw [← hright position hposition hsplits]
      exact hscan position
  · intro hends shared position name hscript hname hstart hposition hsplits
    have hplace := hscan position
    rw [Utf16.lineColumn_narrow_iff.mpr hends position hposition hsplits] at hplace
    exact SharedInfo.yields_location hscript hname hstart hplace

end

open Synthetic

/-- A function that starts at a position of the script `a`, whose source has the given units. -/
def scriptHeap (units : List UInt16) (position : ℕ) : Heap where
  layout := listedLayout (flatConstants ++ [
    (.stringTwoByteChars, 16), (.typeScript, 150), (.scriptName, 8), (.scriptSource, 16),
    (.sharedScript, 8), (.sharedStartPosition, 16), (.sharedStartPositionShift, 0)])
  image := listedImage [
    (⟨0x100c⟩, Word.toBytes 2 8), (⟨0x110c⟩, Word.toBytes 2 0), (⟨0x120c⟩, Word.toBytes 2 150),
    (⟨0x2000⟩, headerBytes 0x1001 1 ++ [0x61]),
    (⟨0x3000⟩, headerBytes 0x1101 units.length ++ units.flatMap fun u => Word.toBytes 2 u.toNat),
    (⟨0x4000⟩, wordsBytes [0x1201, 0x2001, 0x3001]),
    (⟨0x5008⟩, Word.toBytes 8 0x4001 ++ Word.toBytes 4 position)]

/-- A function behind a pair that ends a line, in a source with a unit of two bytes. -/
theorem Script.lineColumn?_yields_place_iff_pair :
    (Script.source? ⟨0x4001⟩).Yields (scriptHeap [0x3b1, 0x0d, 0x0a, 0x66] 3) (some ⟨0x3001⟩) ∧
      (JsString.codeUnits ⟨0x3001⟩).Yields (scriptHeap [0x3b1, 0x0d, 0x0a, 0x66] 3)
        [0x3b1, 0x0d, 0x0a, 0x66] ∧
      (SharedInfo.location ⟨0x5001⟩).Yields (scriptHeap [0x3b1, 0x0d, 0x0a, 0x66] 3) "a:2:0" := by
  have hsource : (Script.source? ⟨0x4001⟩).Yields (scriptHeap [0x3b1, 0x0d, 0x0a, 0x66] 3)
      (some ⟨0x3001⟩) := by decide +kernel
  have hunits : (JsString.codeUnits ⟨0x3001⟩).Yields (scriptHeap [0x3b1, 0x0d, 0x0a, 0x66] 3)
      [0x3b1, 0x0d, 0x0a, 0x66] := by decide +kernel
  have hends : ∀ u ∈ ([0x3b1, 0x0d, 0x0a, 0x66] : List UInt16), ¬ Utf16.IsFalseEnd u := by
    intro u hu
    simp only [List.mem_cons, List.not_mem_nil, or_false] at hu
    rcases hu with rfl | rfl | rfl | rfl <;> decide
  exact ⟨hsource, hunits,
    (Script.lineColumn?_yields_place_iff hsource hunits).2 hends ⟨0x5001⟩ 3 "a"
      (by decide +kernel) (by decide +kernel) (by decide +kernel) (by decide) (by decide)⟩

/-- The source `不是` is one line, but its end is told to be in the second. -/
theorem Script.lineColumn?_ne_place :
    (Script.source? ⟨0x4001⟩).Yields (scriptHeap [0x4e0d, 0x662f] 0) (some ⟨0x3001⟩) ∧
      (JsString.codeUnits ⟨0x3001⟩).Yields (scriptHeap [0x4e0d, 0x662f] 0) [0x4e0d, 0x662f] ∧
      ¬ Text.SplitsPair Utf16.lineFeed Utf16.carriageReturn [0x4e0d, 0x662f] 2 ∧
      Text.place Utf16.lineFeed Utf16.carriageReturn [0x4e0d, 0x662f] 2 = (0, 2) ∧
      (Script.lineColumn? ⟨0x4001⟩ 2).Yields (scriptHeap [0x4e0d, 0x662f] 0) (some (1, 1)) :=
  ⟨by decide +kernel, by decide +kernel, by decide, by decide, by decide +kernel⟩

end Postmortem
