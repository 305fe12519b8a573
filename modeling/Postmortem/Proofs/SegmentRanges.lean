/-
Postmortem/Proofs/SegmentRanges.lean

The ranges of segments stay within words.

A heap may hold anything, so strings may tell any lengths, start anywhere in the
strings that they are parts of, and be parts of themselves.  Where lengths take four
bytes and parts start at small integers of half a word (`Narrow`), neither reaches
`2 ^ 31`.  A segment is cut down to its string before it is taken apart, so what it is
made of starts and stops below `2 ^ 32`, however many strings it came through
(`Segment.inRange_of_mem`).

`codeUnitsChecked` resolves a string the same way, but stops where a number leaves its
range: what is taken away from another is no greater, what is added fits in a word, and
what is doubled in a signed one.  None of its checks ever fails, so it does what
`codeUnits` does (`keeps_codeUnits`).

Main result: `codeUnits_inRange`.
-/
import Mathlib.Logic.Relation
import Postmortem.Proofs.RoundTrip

namespace Postmortem

open HeapM Relation

/-! ### Checked computations -/

/-- Computations that stop where a number leaves its range. -/
abbrev Checked := OptionT HeapM

namespace Checked

variable {α β σ : Type} {h : Heap} {x : Checked α} {y : HeapM α}

/-- Goes on only with a difference that is no less than zero. -/
def sub (a b : ℕ) : Checked ℕ := if b ≤ a then pure (a - b) else failure

/-- Goes on only with a sum that is a word. -/
def add (a b : ℕ) : Checked ℕ := if a + b < UInt64.size then pure (a + b) else failure

/-- Goes on only with a double that is a signed word. -/
def double (a : ℕ) : Checked ℕ := if 2 * a < UInt64.size / 2 then pure (2 * a) else failure

theorem sub_eq {a b : ℕ} (hle : b ≤ a) : sub a b = pure (a - b) := if_pos hle

theorem add_eq {a b : ℕ} (hlt : a + b < UInt64.size) : add a b = pure (a + b) := if_pos hlt

theorem double_eq {a : ℕ} (hlt : 2 * a < UInt64.size / 2) : double a = pure (2 * a) := if_pos hlt

/-- Repeats a checked step until it gives a result, at most `fuel` times. -/
def loop (step : σ → Checked (σ ⊕ α)) (exhausted : Failure) (fuel : ℕ) (s : σ) : Checked α :=
  OptionT.mk (HeapM.loop (fun s => settle <$> (step s).run) exhausted fuel s)
where
  /-- A check that failed ends the loop. -/
  settle : Option (σ ⊕ α) → σ ⊕ Option α
    | some (.inl s) => .inl s
    | some (.inr a) => .inr (some a)
    | none => .inr none

/-- No check of `x` fails on the heap, and apart from them it does what `y` does. -/
def Keeps (h : Heap) (x : Checked α) (y : HeapM α) : Prop := x.run h = (some <$> y) h

namespace Keeps

theorem lift (y : HeapM α) : Keeps h (monadLift y) y := rfl

theorem pure (a : α) : Keeps h (pure a) (pure a) := rfl

theorem bind {f : α → Checked β} {g : α → HeapM β} (hx : Keeps h x y)
    (hf : ∀ a, y.Yields h a → Keeps h (f a) (g a)) : Keeps h (x >>= f) (y >>= g) := by
  rw [Keeps, OptionT.run_bind, map_bind]
  -- The checks of `x` have passed, so only the way on is left of the two that `elimM` has.
  calc ((Option.elimM x.run (Pure.pure none) fun a => (f a).run) : HeapM (Option β)) h
      = ((some <$> y) >>= fun a => a.elim (Pure.pure none) fun a => (f a).run) h :=
        bind_congr hx fun _ _ => rfl
    _ = (y >>= fun a => (f a).run) h := by rw [bind_map_left]; rfl
    _ = (y >>= fun a => some <$> g a) h := bind_congr rfl hf

theorem ite {c : Prop} [Decidable c] {x' : Checked α} {y' : HeapM α} (hx : c → Keeps h x y)
    (hx' : ¬ c → Keeps h x' y') : Keeps h (if c then x else x') (if c then y else y') := by
  split
  case isTrue hc => exact hx hc
  case isFalse hc => exact hx' hc

/-- A loop keeps its checks if its rounds do. -/
theorem loop {step : σ → Checked (σ ⊕ α)} {step' : σ → HeapM (σ ⊕ α)}
    (hstep : ∀ s, Keeps h (step s) (step' s)) {e : Failure} {fuel : ℕ} {s : σ} :
    Keeps h (Checked.loop step e fuel s) (HeapM.loop step' e fuel s) := by
  induction fuel generalizing s with
  | zero => rfl
  | succ fuel ih =>
    rw [Keeps, Checked.loop, OptionT.run_mk, loop_succ, loop_succ, map_bind, bind_map_left]
    refine (bind_congr (hstep s) fun _ _ => rfl).trans ?_
    rw [bind_map_left]
    -- No check of the round has failed, so the loop goes on or ends as it does without checks.
    refine bind_congr rfl fun next _ => ?_
    rcases next with s' | a
    · exact ih
    · rfl

end Keeps

end Checked

/-! ### Numbers of half a word -/

/-- Lengths of strings take four bytes, and parts of strings start at small integers that take
half a word. -/
structure Narrow (l : Layout) : Prop where
  length : l.storage .stringLength = .int32
  offset : l.storage .stringSlicedOffset = .smi
  wide : SmallInt.Wide l

theorem Synthetic.narrow_standardLayout : Narrow standardLayout where
  length := storage_standardLayout rfl rfl (by cbv)
  offset := storage_standardLayout rfl rfl (by cbv)
  wide := wide_standardLayout

theorem Word.signed32_lt_half (n : ℕ) : Word.signed32 n < (UInt32.size / 2 : ℕ) := by
  unfold Word.signed32
  simp only [UInt32.size]
  split <;> omega

theorem SmallInt.Wide.number_lt_half {l : Layout} (hl : Wide l) (w : UInt64) :
    number l w < (UInt32.size / 2 : ℕ) := by
  have hlt := (Word.signed_bounds w).2
  rw [number, hl.shift_eq, Int.shiftRight_eq_div_pow]
  refine Int.ediv_lt_of_lt_mul (by decide) (hlt.trans_eq ?_)
  decide

namespace JsString

variable {h : Heap} {string object : Address} {n : ℕ}

theorem length_lt_half (hl : Narrow h.layout) (hn : (length string).Yields h n) :
    n < UInt32.size / 2 := by
  obtain ⟨a, -, hn⟩ := yields_bind.mp (yields_length_iff.mp hn)
  rw [Yields.bind_iff (yields_layout.mpr rfl), hl.length] at hn
  obtain ⟨w, -, hn⟩ := yields_bind.mp hn
  exact_mod_cast yields_pure.mp hn ▸ Word.signed32_lt_half w.toNat

theorem skip_lt_half (hl : Narrow h.layout)
    (hn : (count object .stringSlicedOffset).Yields h n) : n < UInt32.size / 2 := by
  obtain ⟨i, hi, hn⟩ := yields_bind.mp hn
  cases yields_pure.mp hn
  obtain ⟨a, -, hi⟩ := yields_bind.mp hi
  rw [Yields.bind_iff (yields_layout.mpr rfl), hl.offset] at hi
  obtain ⟨w, rfl⟩ := exists_number_of_smallInteger hi
  -- What is negative counts as nothing.
  exact (Int.toNat_lt' (by decide)).mpr (hl.wide.number_lt_half w)

/-! ### Ranges -/

/-- A segment starts and stops below `2 ^ 32`. -/
structure Segment.InRange (s : Segment) : Prop where
  start_lt : s.start < UInt32.size
  stop_lt : ∀ stop ∈ s.stop, stop < UInt32.size

namespace Segment

variable {s m : Segment} {found : List UInt16} {made : List Segment}

theorem startIn_le_stopIn (s : Segment) (n : ℕ) : s.startIn n ≤ s.stopIn n := Nat.min_le_right ..

theorem stopIn_le (s : Segment) (n : ℕ) : s.stopIn n ≤ n := Nat.min_le_right ..

theorem inRange_of_lt {start stop : ℕ} (hstart : start < UInt32.size) (hstop : stop < UInt32.size) :
    InRange ⟨string, start, some stop⟩ :=
  ⟨hstart, fun _ hmem => Option.some.inj hmem ▸ hstop⟩

theorem inRange_of_mem_across {first second : Address} {split start stop : ℕ}
    (hstart : start < UInt32.size) (hstop : stop < UInt32.size)
    (hm : m ∈ across first second split start stop) : m.InRange := by
  unfold across at hm
  rcases List.mem_append.mp hm with hm | hm
  · split at hm
    case isTrue =>
      cases List.mem_singleton.mp hm
      exact inRange_of_lt hstart (by omega)
    case isFalse => cases hm
  · split at hm
    case isTrue =>
      cases List.mem_singleton.mp hm
      exact inRange_of_lt (by omega) (by omega)
    case isFalse => cases hm

/-- Whatever range a segment has, what it is made of starts and stops below `2 ^ 32`. -/
theorem inRange_of_mem (hl : Narrow h.layout) (hs : s.resolve.Yields h (found, made))
    (hm : m ∈ made) : m.InRange := by
  obtain ⟨n, hn, hmade⟩ := resolve_cases hs
  have hhalf := length_lt_half hl hn
  have hle := s.startIn_le_stopIn n
  have hstop := s.stopIn_le n
  have hsize : UInt32.size = 2 * (UInt32.size / 2) := rfl
  rcases hmade with rfl | ⟨first, second, split, -, -, rfl⟩ | ⟨part, skip, -, hskip, rfl⟩
  · cases hm
  · exact inRange_of_mem_across (by omega) (by omega) hm
  · cases List.mem_singleton.mp hm
    have hskip : skip < UInt32.size / 2 := by
      rcases hskip with rfl | hskip
      · decide
      · exact skip_lt_half hl hskip
    -- A part starts and ends at sums of two numbers that are below `2 ^ 31` each.
    exact inRange_of_lt (by omega) (by omega)

end Segment

/-- What the resolution of a string comes to, be there rounds enough or not. -/
def Progress.Reached (h : Heap) (string : Address) (p : Progress) : Prop :=
  ReflTransGen (fun p p' => (advance string p).Yields h (.inl p')) ⟨#[], [⟨string, 0, none⟩]⟩ p

/-- The segments that are left are in range, whatever the heap holds. -/
theorem Progress.Reached.inRange (hl : Narrow h.layout) {p : Progress} (hp : Reached h string p) :
    ∀ s ∈ p.segments, s.InRange := by
  induction hp with
  | refl =>
    intro s hs
    cases List.mem_singleton.mp hs
    exact ⟨Nat.two_pow_pos 32, nofun⟩
  | tail _ hstep ih =>
    obtain ⟨s, rest, found, made, hsegments, hs, rfl⟩ := advance_cases hstep
    intro m hm
    rcases List.mem_append.mp hm with hm | hm
    · exact Segment.inRange_of_mem hl hs hm
    · exact ih m (by simp [hsegments, hm])

/-! ### Resolution with checks -/

/-- `flatUnits`, checked. -/
def flatUnitsChecked (string : Address) (typeId : ℤ) (start stop : ℕ) : Checked (List UInt16) := do
  let count ← Checked.sub stop start
  if ← isOneByte typeId then
    let chars ← fieldAt string .stringOneByteChars
    pure ((← bytes (chars.offset start) count).map fun b => UInt16.ofNat b.toNat)
  else
    let chars ← fieldAt string .stringTwoByteChars
    let skip ← Checked.double start
    twoByteUnits (chars.offset skip) count

namespace Segment

/-- `across`, checked. -/
def acrossChecked (first second : Address) (split start stop : ℕ) : Checked (List Segment) :=
  let ahead := if start < split then [⟨first, start, some (min stop split)⟩] else []
  if split < stop then do
    pure (ahead ++ [⟨second, start - split, some (← Checked.sub stop split)⟩])
  else pure ahead

/-- `resolve`, checked. -/
def resolveChecked (s : Segment) : Checked (List UInt16 × List Segment) := do
  let length ← JsString.length s.string
  let stop := s.stopIn length
  let start := s.startIn length
  let typeId ← typeId s.string
  match ← (Representation.ofTypeId typeId : HeapM _) with
  | .sequential => do pure (← flatUnitsChecked s.string typeId start stop, [])
  | .cons =>
    let first ← pointer s.string .stringConsFirst
    let second ← pointer s.string .stringConsSecond
    let split ← JsString.length first
    pure ([], ← acrossChecked first second split start stop)
  | .sliced =>
    let parent ← pointer s.string .stringSlicedParent
    let offset ← count s.string .stringSlicedOffset
    pure ([], [⟨parent, ← Checked.add offset start, some (← Checked.add offset stop)⟩])
  | .thin =>
    let actual ← pointer s.string .stringThinActual
    pure ([], [⟨actual, start, some stop⟩])
  | .external => pure (external, [])

end Segment

/-- `Progress.advance`, checked. -/
def Progress.advanceChecked (whole : Address) : Progress → Checked (Progress ⊕ List UInt16)
  | ⟨units, []⟩ => pure (.inr units.toList)
  | ⟨units, s :: rest⟩ => do
    let (found, made) ← s.resolveChecked
    let units := units ++ found
    if maxStringUnits < units.size then monadLift (fail (.shape (.oversizedString whole)))
    else pure (.inl ⟨units, made ++ rest⟩)

/-- `codeUnits`, checked. -/
def codeUnitsChecked (string : Address) : Checked (List UInt16) :=
  Checked.loop (Progress.advanceChecked string) (.shape (.oversizedString string)) maxRounds
    ⟨#[], [⟨string, 0, none⟩]⟩

open Checked

theorem keeps_flatUnits {typeId : ℤ} {start stop : ℕ} (hle : start ≤ stop)
    (hlt : start < UInt32.size) :
    Keeps h (flatUnitsChecked string typeId start stop) (flatUnits string typeId start stop) := by
  have hsize : 2 * UInt32.size < UInt64.size / 2 := by decide
  rw [flatUnitsChecked, sub_eq hle, pure_bind]
  refine .bind (.lift _) fun oneByte _ => .ite (fun _ => ?_) fun _ => ?_
  · exact .bind (.lift _) fun chars _ => .bind (.lift _) fun _ _ => .pure _
  · refine .bind (.lift _) fun chars _ => ?_
    rw [double_eq (by omega), pure_bind]
    exact .lift _

namespace Segment

theorem acrossChecked_eq (first second : Address) (split start stop : ℕ) :
    acrossChecked first second split start stop =
      pure (across first second split start stop) := by
  unfold acrossChecked across
  by_cases hlt : split < stop
  · rw [if_pos hlt, if_pos hlt, sub_eq hlt.le, pure_bind]
  · rw [if_neg hlt, if_neg hlt, List.append_nil]

/-- However a segment was come by, it is resolved without leaving words. -/
theorem keeps_resolve (hl : Narrow h.layout) (s : Segment) :
    Keeps h s.resolveChecked s.resolve := by
  have hsize : UInt32.size < UInt64.size := by decide
  have hhalf : UInt32.size = 2 * (UInt32.size / 2) := rfl
  refine .bind (.lift _) fun n hn => ?_
  -- The segment is cut down to its string, so it does not matter what it asked for.
  have hn := length_lt_half hl hn
  have hle := s.startIn_le_stopIn n
  have hstop := s.stopIn_le n
  refine .bind (.lift _) fun type _ => .bind (.lift _) fun r _ => ?_
  cases r with
  | sequential => exact .bind (keeps_flatUnits hle (by omega)) fun _ _ => .pure _
  | cons =>
    refine .bind (.lift _) fun first _ => .bind (.lift _) fun second _ =>
      .bind (.lift _) fun split _ => ?_
    rw [acrossChecked_eq, pure_bind]
    exact .pure _
  | sliced =>
    refine .bind (.lift _) fun parent _ => .bind (.lift _) fun skip hskip => ?_
    have hskip := skip_lt_half hl hskip
    rw [add_eq (by omega), pure_bind, add_eq (by omega), pure_bind]
    exact .pure _
  | external => exact .pure _
  | thin => exact .bind (.lift _) fun actual _ => .pure _

end Segment

theorem Progress.keeps_advance (hl : Narrow h.layout) (p : Progress) :
    Keeps h (p.advanceChecked string) (p.advance string) := by
  rcases p with ⟨units, - | ⟨s, rest⟩⟩
  · exact .pure _
  · exact .bind (Segment.keeps_resolve hl s) fun _ _ => .ite (fun _ => .lift _) fun _ => .pure _

theorem keeps_codeUnits (hl : Narrow h.layout) (string : Address) :
    Keeps h (codeUnitsChecked string) (codeUnits string) :=
  .loop (Progress.keeps_advance hl)

/-- **The ranges of segments stay within words.**  Whatever the memory holds, the segments that the
resolution of a string comes to start and stop below `2 ^ 32`, and cut down to a string they do not
stop before they start.  No round has a number that leaves its range, and so none of all rounds
together.  No string that is resolved has more than `2 ^ 25` units. -/
theorem codeUnits_inRange (image : Image) (string : Address) :
    (∀ p, Progress.Reached ⟨image, Synthetic.standardLayout⟩ string p →
        (∀ s ∈ p.segments, s.InRange ∧ ∀ n, s.startIn n ≤ s.stopIn n) ∧
          Keeps ⟨image, Synthetic.standardLayout⟩ (p.advanceChecked string) (p.advance string)) ∧
      Keeps ⟨image, Synthetic.standardLayout⟩ (codeUnitsChecked string) (codeUnits string) ∧
      ∀ units, (codeUnits string).Yields ⟨image, Synthetic.standardLayout⟩ units →
        units.length ≤ 32 * 1024 * 1024 := by
  have hl : Narrow (Heap.mk image Synthetic.standardLayout).layout :=
    Synthetic.narrow_standardLayout
  refine ⟨fun p hp => ⟨fun s hs => ⟨hp.inRange hl s hs, s.startIn_le_stopIn⟩, ?_⟩, ?_, ?_⟩
  · exact p.keeps_advance hl
  · exact keeps_codeUnits hl string
  · exact fun units hunits => Synthetic.Builder.length_le_of_yields_codeUnits hunits

end JsString

end Postmortem
