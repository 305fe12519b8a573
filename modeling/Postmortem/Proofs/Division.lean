/-
Postmortem/Proofs/Division.lean

Windows divide what they go over.

A window over a collection is divided among the domains that the collection is made
of: the parts are the window's own positions, domain by domain, each once and in order
(`flatMap_positionsIn`).  And a collection is divided into windows, each of which
starts where the one before stops, until nothing remains (`Walk.flatMap_positions`).

Windows are worked out on numbers that have no end.  On words, where a sum that has no
room is cut down to the greatest word, the same comes out, for nothing lies behind the
total and the total is a word (`WordWindow.of_is`, `WordWindow.split_is`).

Main result: `Window.of_divides`.
-/
import Mathlib.Algebra.GroupWithZero.Nat
import Mathlib.Data.List.Forall2
import Mathlib.Data.List.Range
import Postmortem.Window

namespace Postmortem

/-! ### Positions -/

/-- The numbers from `start` to `stop`, the latter left out. -/
def between (start stop : ℕ) : List ℕ := List.range' start (stop - start)

theorem between_of_le {start stop : ℕ} (hle : stop ≤ start) : between start stop = [] := by
  rw [between, Nat.sub_eq_zero_of_le hle, List.range'_zero]

theorem between_append {start mid stop : ℕ} (hstart : start ≤ mid) (hstop : mid ≤ stop) :
    between start mid ++ between mid stop = between start stop := by
  have hmid : start + (mid - start) = mid := by omega
  have hlength : mid - start + (stop - mid) = stop - start := by omega
  rw [between, between, between, ← hlength, ← List.range'_append_1, hmid]

namespace Window

variable {w part : Window} {current limit total offset length : ℕ} {lengths : List ℕ}

/-- The positions that a window covers. -/
def positions (w : Window) : List ℕ := List.range' w.start w.length

/-! ### Domains -/

/-- A stretch of a collection. -/
structure Domain where
  offset : ℕ
  length : ℕ

/-- Domains of some lengths, one behind the other. -/
def domains (offset : ℕ) : List ℕ → List Domain
  | [] => []
  | length :: lengths => ⟨offset, length⟩ :: domains (offset + length) lengths

/-- The positions of the part of a window that falls into a domain, counted from the start of the
collection. -/
def positionsIn (w : Window) (d : Domain) : List ℕ :=
  (w.split d.offset d.length).elim [] fun part => part.positions.map (d.offset + ·)

theorem positionsIn_eq (w : Window) (d : Domain) :
    w.positionsIn d = between (max w.start d.offset) (min w.stop (d.offset + d.length)) := by
  unfold positionsIn split
  split
  case isTrue hmeet =>
    have hstart : d.offset + (max w.start d.offset - d.offset) = max w.start d.offset := by omega
    have hlength : min w.stop (d.offset + d.length) - d.offset - (max w.start d.offset - d.offset) =
        min w.stop (d.offset + d.length) - max w.start d.offset := by omega
    show (List.range' _ _).map _ = _
    rw [List.map_add_range', Window.length, hstart, hlength, between]
  case isFalse hmeet => exact (between_of_le (Nat.not_lt.mp hmeet)).symm

/-- What a window covers up to a border, and what it covers behind it. -/
theorem clip_append {mid stop : ℕ} (w : Window) (hmid : offset ≤ mid) (hstop : mid ≤ stop) :
    between (max w.start offset) (min w.stop mid) ++ between (max w.start mid) (min w.stop stop) =
      between (max w.start offset) (min w.stop stop) := by
  have hle := w.start_le_stop
  rcases Nat.le_total w.stop mid with hbefore | hbehind
  · -- The window ends before the border.
    have hnone : min w.stop stop ≤ max w.start mid := by omega
    rw [between_of_le hnone, List.append_nil, Nat.min_eq_left hbefore,
      Nat.min_eq_left (hbefore.trans hstop)]
  · rcases Nat.le_total w.start mid with hstart | hstart
    · rw [Nat.min_eq_right hbehind, Nat.max_eq_right hstart]
      exact between_append (by omega) (by omega)
    · -- The window starts behind the border.
      have hnone : min w.stop mid ≤ max w.start offset := by omega
      rw [between_of_le hnone, List.nil_append, Nat.max_eq_left hstart,
        Nat.max_eq_left (hmid.trans hstart)]

theorem flatMap_positionsIn (w : Window) (offset : ℕ) (lengths : List ℕ) :
    (domains offset lengths).flatMap w.positionsIn =
      between (max w.start offset) (min w.stop (offset + lengths.sum)) := by
  induction lengths generalizing offset with
  | nil =>
    rw [List.sum_nil, Nat.add_zero]
    exact (between_of_le (by omega)).symm
  | cons length lengths ih =>
    rw [domains, List.flatMap_cons, ih, positionsIn_eq, List.sum_cons, ← Nat.add_assoc]
    exact w.clip_append (Nat.le_add_right ..) (Nat.le_add_right ..)

/-- The part of a window in a domain, where they meet. -/
theorem meet_of_mem_split (hpart : part ∈ w.split offset length) :
    max w.start offset < min w.stop (offset + length) ∧
      part.start = max w.start offset - offset ∧
      part.stop = min w.stop (offset + length) - offset ∧ part.total = length := by
  unfold split at hpart
  split at hpart
  case isTrue hmeet =>
    cases hpart
    exact ⟨hmeet, rfl, rfl, rfl⟩
  case isFalse => cases hpart

theorem start_lt_stop_of_mem_split (hpart : part ∈ w.split offset length) :
    part.start < part.stop := by
  obtain ⟨hmeet, hstart, hstop, -⟩ := meet_of_mem_split hpart
  omega

theorem stop_le_of_mem_split (hpart : part ∈ w.split offset length) : part.stop ≤ length := by
  obtain ⟨-, -, hstop, -⟩ := meet_of_mem_split hpart
  omega

/-! ### Walks -/

theorem start_of (hcurrent : current ≤ total) : (Window.of current limit total).start = current :=
  Nat.min_eq_left hcurrent

theorem stop_of (hcurrent : current ≤ total) (hlimit : 1 ≤ limit) :
    (Window.of current limit total).stop = min (current + limit) total := by
  simp only [Window.of]
  rw [if_neg (by omega)]
  omega

/-- The windows from a cursor on, each of which starts where the one before stops, up to the one
behind which nothing remains. -/
inductive Walk (limit total : ℕ) : ℕ → List Window → Prop
  | last {current : ℕ} : (Window.of current limit total).hasMore = false →
      Walk limit total current [Window.of current limit total]
  | next {current : ℕ} {windows : List Window} : (Window.of current limit total).hasMore = true →
      Walk limit total (Window.of current limit total).stop windows →
      Walk limit total current (Window.of current limit total :: windows)

theorem exists_walk (hlimit : 1 ≤ limit) (hcurrent : current ≤ total) :
    ∃ windows, Walk limit total current windows := by
  induction hleft : total - current using Nat.strong_induction_on generalizing current with
  | h left ih =>
    have hstop := stop_of hcurrent hlimit
    rcases hmore : (Window.of current limit total).hasMore with - | -
    · exact ⟨_, .last hmore⟩
    · have hlt : (Window.of current limit total).stop < total := of_decide_eq_true hmore
      obtain ⟨windows, hwindows⟩ := ih (total - (Window.of current limit total).stop) (by omega)
        hlt.le rfl
      exact ⟨_, .next hmore hwindows⟩

theorem positions_of (hcurrent : current ≤ total) :
    (Window.of current limit total).positions =
      between current (Window.of current limit total).stop := by
  rw [positions, Window.length, start_of hcurrent, between]

theorem Walk.flatMap_positions (hlimit : 1 ≤ limit) {windows : List Window}
    (hwalk : Walk limit total current windows) (hcurrent : current ≤ total) :
    windows.flatMap positions = between current total := by
  induction hwalk with
  | @last current hlast =>
    have hstop : total ≤ (Window.of current limit total).stop :=
      Nat.not_lt.mp (of_decide_eq_false hlast)
    rw [List.flatMap_singleton, positions_of hcurrent,
      Nat.le_antisymm (Window.of current limit total).stop_le_total hstop]
    rfl
  | @next current windows hmore _ ih =>
    have hlt : (Window.of current limit total).stop < total := of_decide_eq_true hmore
    have hstop := stop_of hcurrent hlimit
    rw [List.flatMap_cons, ih hlt.le, positions_of hcurrent]
    exact between_append (by omega) hlt.le

end Window

/-! ### Words -/

/-- The sum of two words, or the greatest word if the sum has no room in one. -/
def Word.saturatingAdd (a b : UInt64) : UInt64 := if a + b < a then -1 else a + b

theorem Word.toNat_saturatingAdd (a b : UInt64) :
    (saturatingAdd a b).toNat = min (a.toNat + b.toNat) (UInt64.size - 1) := by
  have ha := a.toNat_lt
  have hb := b.toNat_lt
  have hlast : (-1 : UInt64).toNat = UInt64.size - 1 := rfl
  unfold saturatingAdd
  simp only [UInt64.lt_iff_toNat_lt, UInt64.toNat_add]
  split
  · rw [hlast, UInt64.size]
    omega
  · rw [UInt64.toNat_add, UInt64.size]
    omega

theorem Word.toNat_min (a b : UInt64) : (min a b).toNat = min a.toNat b.toNat := by
  rw [Nat.min_def]
  exact apply_ite UInt64.toNat (a ≤ b) a b

theorem Word.toNat_max (a b : UInt64) : (max a b).toNat = max a.toNat b.toNat := by
  rw [Nat.max_def]
  exact apply_ite UInt64.toNat (a ≤ b) b a

/-- A window in words. -/
structure WordWindow where
  start : UInt64
  stop : UInt64
  total : UInt64

namespace WordWindow

/-- The request for `limit` items from `current` on, clamped, with the sum cut down to a word. -/
def of (current limit total : UInt64) : WordWindow where
  start := min current total
  stop := max (min current total)
    (if limit = 0 then total else min (Word.saturatingAdd current limit) total)
  total := total

/-- The part in a domain, with the end of the domain cut down to a word. -/
def split (v : WordWindow) (offset length : UInt64) : Option WordWindow :=
  let start := max v.start offset
  let stop := min v.stop (Word.saturatingAdd offset length)
  if start < stop then some ⟨start - offset, stop - offset, length⟩ else none

/-- The words are the numbers of a window. -/
structure Is (v : WordWindow) (w : Window) : Prop where
  start : v.start.toNat = w.start
  stop : v.stop.toNat = w.stop
  total : v.total.toNat = w.total

theorem of_is (current limit total : UInt64) :
    (of current limit total).Is (Window.of current.toNat limit.toNat total.toNat) := by
  have htotal := total.toNat_lt
  have hzero : limit = 0 ↔ limit.toNat = 0 := UInt64.toNat_inj.symm
  refine ⟨Word.toNat_min .., ?_, rfl⟩
  dsimp only [of, Window.of]
  rw [Word.toNat_max, Word.toNat_min]
  by_cases hlimit : limit = 0
  · rw [if_pos hlimit, if_pos (hzero.mp hlimit)]
  · rw [if_neg hlimit, if_neg (mt hzero.mpr hlimit), Word.toNat_min, Word.toNat_saturatingAdd,
      UInt64.size]
    -- What was cut off lies behind the total.
    omega

theorem split_is {v : WordWindow} {w : Window} (hv : v.Is w) (offset length : UInt64) :
    Option.Rel Is (v.split offset length) (w.split offset.toNat length.toNat) := by
  have hstart : (max v.start offset).toNat = max w.start offset.toNat := by
    rw [Word.toNat_max, hv.start]
  have hstop : (min v.stop (Word.saturatingAdd offset length)).toNat =
      min w.stop (offset.toNat + length.toNat) := by
    have hlt := hv.stop ▸ v.stop.toNat_lt
    rw [Word.toNat_min, Word.toNat_saturatingAdd, hv.stop, UInt64.size]
    omega
  have hmeet : max v.start offset < min v.stop (Word.saturatingAdd offset length) ↔
      max w.start offset.toNat < min w.stop (offset.toNat + length.toNat) := by
    rw [UInt64.lt_iff_toNat_lt, hstart, hstop]
  unfold split Window.split
  by_cases h : max w.start offset.toNat < min w.stop (offset.toNat + length.toNat)
  · rw [dif_pos h]
    dsimp only
    rw [if_pos (hmeet.mpr h)]
    refine .some ⟨?_, ?_, rfl⟩
    · rw [UInt64.toNat_sub_of_le _ _ (UInt64.le_iff_toNat_le.mpr (by omega)), hstart]
    · rw [UInt64.toNat_sub_of_le _ _ (UInt64.le_iff_toNat_le.mpr (by omega)), hstop]
  · rw [dif_neg h]
    dsimp only
    rw [if_neg (mt hmeet.mp h)]
    exact .none

end WordWindow

/-! ### Division -/

namespace Window

/-- The window is what is asked for of `total` items. -/
structure IsClamped (current limit total : ℕ) (w : Window) : Prop where
  start_le_stop : w.start ≤ w.stop
  stop_le_total : w.stop ≤ total
  total_eq : w.total = total
  start_eq : w.start = min current total
  stop_eq : w.stop = if limit = 0 then total else max w.start (min (current + limit) total)

/-- The parts of the window in the domains are together the window. -/
structure DividesAmong (w : Window) (domains : List Domain) : Prop where
  positions : domains.flatMap w.positionsIn = w.positions
  parts : ∀ d ∈ domains, ∀ part ∈ w.split d.offset d.length,
    part.start < part.stop ∧ part.stop ≤ d.length ∧ part.total = d.length

theorem isClamped_of (current limit total : ℕ) :
    IsClamped current limit total (.of current limit total) where
  start_le_stop := (Window.of current limit total).start_le_stop
  stop_le_total := (Window.of current limit total).stop_le_total
  total_eq := rfl
  start_eq := rfl
  stop_eq := by
    simp only [Window.of]
    split
    · exact Nat.max_eq_right (Nat.min_le_right ..)
    · rfl

theorem dividesAmong_domains {w : Window} {lengths : List ℕ} (hw : w.total = lengths.sum) :
    w.DividesAmong (domains 0 lengths) where
  positions := by
    have hstop : w.stop ≤ lengths.sum := hw ▸ w.stop_le_total
    rw [flatMap_positionsIn, Nat.max_eq_left (Nat.zero_le _), Nat.zero_add, Nat.min_eq_left hstop]
    rfl
  parts d _ part hpart :=
    ⟨start_lt_stop_of_mem_split hpart, stop_le_of_mem_split hpart, (meet_of_mem_split hpart).2.2.2⟩

/-- **Windows divide what they go over.**  What is asked for is clamped to the collection.  Its
parts in domains that make up the collection are its own positions, each once and in order.  Windows
that go on where the one before stops come to an end, and cover the collection once.  Worked out on
words, windows and their parts are the same. -/
theorem of_divides (current limit : ℕ) (lengths : List ℕ) :
    IsClamped current limit lengths.sum (.of current limit lengths.sum) ∧
      (Window.of current limit lengths.sum).DividesAmong (domains 0 lengths) ∧
      (1 ≤ limit → (∃ windows, Walk limit lengths.sum 0 windows) ∧
        ∀ windows, Walk limit lengths.sum 0 windows →
          windows.flatMap positions = List.range lengths.sum) ∧
      ∀ c l t : UInt64, c.toNat = current → l.toNat = limit → t.toNat = lengths.sum →
        (WordWindow.of c l t).Is (.of current limit lengths.sum) ∧
          ∀ offset length : UInt64, Option.Rel WordWindow.Is
            ((WordWindow.of c l t).split offset length)
            ((Window.of current limit lengths.sum).split offset.toNat length.toNat) := by
  refine ⟨isClamped_of .., dividesAmong_domains rfl, fun hlimit => ⟨?_, fun _ hwalk => ?_⟩, ?_⟩
  · exact exists_walk hlimit (Nat.zero_le _)
  · rw [hwalk.flatMap_positions hlimit (Nat.zero_le _), List.range_eq_range']
    rfl
  · rintro c l t rfl rfl ht
    have his := WordWindow.of_is c l t
    rw [ht] at his
    exact ⟨his, WordWindow.split_is his⟩

/-- A request whose end is no word, over domains of which one is empty. -/
theorem of_divides_saturated :
    (Window.of 3 (2 ^ 64 - 1) 7).DividesAmong [⟨0, 2⟩, ⟨2, 0⟩, ⟨2, 4⟩, ⟨6, 1⟩] ∧
      (Window.of 3 (2 ^ 64 - 1) 7).positions = [3, 4, 5, 6] ∧
      (∃ windows, Walk (2 ^ 64 - 1) 7 0 windows ∧ windows.flatMap positions = List.range 7) ∧
      (WordWindow.of 3 (-1) 7).Is (.of 3 (2 ^ 64 - 1) 7) := by
  obtain ⟨-, hdivides, hwalks, hwords⟩ := of_divides 3 (2 ^ 64 - 1) [2, 0, 4, 1]
  obtain ⟨⟨windows, hwalk⟩, hall⟩ := hwalks (by decide)
  exact ⟨hdivides, by decide +kernel, ⟨windows, hwalk, hall windows hwalk⟩,
    (hwords 3 (-1) 7 rfl rfl rfl).1⟩

end Window

end Postmortem
