/-
Postmortem/Proofs/Resolution.lean

Why the resolution of strings ends.

The strings that a string is made of are its parts.  They are a relation on
addresses, of which there are finitely many, so where nothing below a string is
a part of itself every string below it has a rank, and ranks go down from a
string to its parts (`exists_rank`).

A segment costs its width times one more than the rank of its string, where the
width is the number of units that it asks for, and one if it asks for none.  The
segments that one is made of are together no wider than it is, and their ranks
are lower, so they cost less (`Segment.sum_cost_lt`).  No segment is `2 ^ 64`
units wide and no rank reaches `2 ^ 64`: `maxRounds` rounds are enough, and
`codeUnits` never gives up on such a string (`quiet_codeUnits`).

What is resolved on a heap is resolved alike on every heap that captured more,
whether it ends or not (`persists_codeUnits`).
-/
import Mathlib.Algebra.BigOperators.Ring.List
import Mathlib.Algebra.Order.BigOperators.Group.List
import Mathlib.Data.Set.Card
import Mathlib.Logic.Relation
import Postmortem.Proofs.Strict

namespace Postmortem

open HeapM Relation

variable {h h' : Heap}

/-! ### Ranks -/

/-- In a finite relation without cycles below `a`, everything below `a` has a rank that goes down
along the relation. -/
theorem exists_rank {α : Type} [Finite α] {r : α → α → Prop} {a : α}
    (hacyclic : ∀ b, ReflTransGen r a b → ¬ TransGen r b b) :
    ∃ rank : α → ℕ, (∀ b c, ReflTransGen r a b → r b c → rank c < rank b) ∧
      rank a < Nat.card α := by
  -- The rank of a place is how many places are below it; without a cycle it is not one of them.
  refine ⟨fun b => {c | TransGen r b c}.ncard, fun b c hb hbc => ?_, ?_⟩
  · refine Set.ncard_lt_ncard ⟨fun d hcd => TransGen.head hbc hcd, fun hsub => ?_⟩
    exact hacyclic c (hb.tail hbc) (hsub (TransGen.single hbc))
  · refine Set.ncard_lt_card fun huniv => hacyclic a .refl ?_
    show a ∈ {c | TransGen r a c}
    rw [huniv]
    trivial

theorem Address.toFin_injective : Function.Injective fun a : Address => a.word.toFin := by
  rintro ⟨a⟩ ⟨b⟩ hab
  exact congrArg _ (UInt64.toFin_inj.mp hab)

instance : Finite Address := Finite.of_injective _ Address.toFin_injective

theorem card_address_le : Nat.card Address ≤ UInt64.size :=
  (Nat.card_le_card_of_injective _ Address.toFin_injective).trans (Nat.card_fin _).le

/-! ### Lengths -/

theorem Word.signed32_lt (n : Nat) : Word.signed32 n < 2 ^ 63 := by
  unfold Word.signed32
  simp only [UInt32.size]
  split <;> omega

theorem SmallInt.number_lt (l : Layout) (w : UInt64) : SmallInt.number l w < 2 ^ 63 := by
  have hpos : (0 : ℤ) < (2 ^ shift l : ℕ) := Int.natCast_pos.mpr (Nat.two_pow_pos _)
  have hlt : Word.signed w < 2 ^ 63 := (Word.signed_bounds w).2
  unfold SmallInt.number
  rw [Int.shiftRight_eq_div_pow]
  refine Int.ediv_lt_of_lt_mul hpos (hlt.trans_le ?_)
  exact_mod_cast Nat.le_mul_of_pos_right _ (Nat.two_pow_pos _)

theorem Image.unsigned?_lt {m : Image} {a : Address} {width : ℕ} {w : UInt64}
    (hw : m.unsigned? a width = some w) : w.toNat < 256 ^ width := by
  unfold unsigned? at hw
  split at hw
  case isFalse => cases hw
  case isTrue =>
    obtain ⟨bytes, hbytes, rfl⟩ := Option.map_eq_some_iff.mp hw
    rw [← m.length_fetch a width bytes hbytes, UInt64.toNat_ofNat']
    exact (Nat.mod_le ..).trans_lt (Word.ofBytes_lt bytes)

theorem HeapM.exists_number_of_smallInteger {object : Address} {c : Constant} {a : Address} {n : ℤ}
    (hn : (smallInteger object c a).Yields h n) : ∃ w, SmallInt.number h.layout w = n := by
  obtain ⟨v, hv, hn⟩ := yields_bind.mp hn
  obtain ⟨w, -, rfl⟩ := yields_valueAt.mp hv
  unfold Value.classify at hn
  split at hn
  case h_1 heq =>
    split at heq
    case isTrue =>
      cases heq
      exact ⟨w, yields_pure.mp hn⟩
    case isFalse => cases heq
  case h_2 => exact absurd hn yields_fail

theorem HeapM.smallInteger_lt {object : Address} {c : Constant} {a : Address} {n : ℤ}
    (hn : (smallInteger object c a).Yields h n) : n < 2 ^ 63 := by
  obtain ⟨w, rfl⟩ := exists_number_of_smallInteger hn
  exact SmallInt.number_lt ..

/-- A number in a field is one that a signed word can hold, however it is stored. -/
theorem HeapM.int_lt {object : Address} {c : Constant} {n : ℤ} (hn : (int object c).Yields h n) :
    n < 2 ^ 63 := by
  obtain ⟨a, -, hn⟩ := yields_bind.mp hn
  rw [Yields.bind_iff (yields_layout.mpr rfl)] at hn
  cases hstorage : h.layout.storage c <;> rw [hstorage] at hn
  case tagged => exact smallInteger_lt hn
  case smi => exact smallInteger_lt hn
  all_goals
    obtain ⟨w, hw, hn⟩ := yields_bind.mp hn
    cases yields_pure.mp hn
  case int32 => exact Word.signed32_lt _
  case uint16 =>
    have hlt := Image.unsigned?_lt (yields_unsigned.mp hw)
    omega
  case uint8 =>
    have hlt := Image.unsigned?_lt (yields_unsigned.mp hw)
    omega
  case word => exact (Word.signed_bounds w).2

namespace JsString

/-- A string has the length that is stored in it, unless that is negative. -/
theorem yields_length_iff {string : Address} {n : ℕ} :
    (length string).Yields h n ↔ (int string .stringLength).Yields h n := by
  constructor
  · intro hn
    obtain ⟨i, hi, hn⟩ := yields_bind.mp hn
    split at hn
    case isTrue => exact absurd hn yields_fail
    case isFalse hnonneg =>
      cases yields_pure.mp hn
      rwa [Int.toNat_of_nonneg (Int.not_lt.mp hnonneg)]
  · intro hn
    refine hn.bind ?_
    rw [if_neg (by omega)]
    exact yields_pure.mpr rfl

theorem length_lt {string : Address} {n : ℕ} (hn : (length string).Yields h n) :
    n < UInt64.size := by
  have hlt := int_lt (yields_length_iff.mp hn)
  rw [UInt64.size]
  omega

/-! ### Ranges of segments -/

namespace Segment

variable {string : Address} {start stop n : ℕ}

theorem stopIn_range (hstop : stop ≤ n) : stopIn ⟨string, start, some stop⟩ n = stop :=
  Nat.min_eq_left hstop

theorem startIn_range (hle : start ≤ stop) (hstop : stop ≤ n) :
    startIn ⟨string, start, some stop⟩ n = start := by
  rw [startIn, stopIn_range hstop]
  exact Nat.min_eq_left hle

theorem stopIn_whole : stopIn ⟨string, 0, none⟩ n = n := Nat.min_self n

theorem startIn_whole : startIn ⟨string, 0, none⟩ n = 0 := Nat.zero_min _

end Segment

/-! ### Parts -/

/-- How a string is represented. -/
def representation (string : Address) : HeapM Representation := do
  Representation.ofTypeId (← typeId string)

/-- The strings that a string is made of. -/
inductive Part (h : Heap) (whole : Address) : Address → Prop
  | first {part : Address} : (representation whole).Yields h .cons →
      (pointer whole .stringConsFirst).Yields h part → Part h whole part
  | second {part : Address} : (representation whole).Yields h .cons →
      (pointer whole .stringConsSecond).Yields h part → Part h whole part
  | parent {part : Address} : (representation whole).Yields h .sliced →
      (pointer whole .stringSlicedParent).Yields h part → Part h whole part
  | actual {part : Address} : (representation whole).Yields h .thin →
      (pointer whole .stringThinActual).Yields h part → Part h whole part

/-- Nothing that the string is made of, however deep, is made of itself. -/
def Acyclic (h : Heap) (string : Address) : Prop :=
  ∀ part, ReflTransGen (Part h) string part → ¬ TransGen (Part h) part part

/-- Its representation tells where the parts of a string are. -/
theorem part_iff {whole part : Address} {r : Representation}
    (hrep : (representation whole).Yields h r) :
    Part h whole part ↔
      match r with
      | .cons => (pointer whole .stringConsFirst).Yields h part ∨
          (pointer whole .stringConsSecond).Yields h part
      | .sliced => (pointer whole .stringSlicedParent).Yields h part
      | .thin => (pointer whole .stringThinActual).Yields h part
      | .sequential => False
      | .external => False := by
  constructor
  · intro hpart
    cases hpart with
    | first hrep' hpart =>
      cases hrep.unique hrep'
      exact .inl hpart
    | second hrep' hpart =>
      cases hrep.unique hrep'
      exact .inr hpart
    | parent hrep' hpart =>
      cases hrep.unique hrep'
      exact hpart
    | actual hrep' hpart =>
      cases hrep.unique hrep'
      exact hpart
  · intro hpart
    cases r with
    | sequential => exact hpart.elim
    | cons => exact hpart.elim (.first hrep) (.second hrep)
    | sliced => exact .parent hrep hpart
    | external => exact hpart.elim
    | thin => exact .actual hrep hpart

/-- Nothing is made of itself among strings that have sizes, if each one's parts are smaller ones
of them. -/
theorem acyclic_of_smaller {ι : Type} (address : ι → Address) (size : ι → ℕ)
    (hparts : ∀ i b, Part h (address i) b → ∃ j, address j = b ∧ size j < size i) (i : ι) :
    Acyclic h (address i) := by
  have hbelow (i : ι) {b : Address} (hb : TransGen (Part h) (address i) b) :
      ∃ j, address j = b ∧ size j < size i := by
    induction hb with
    | single hb => exact hparts i _ hb
    | tail _ hbc ih =>
      obtain ⟨j, rfl, hlt⟩ := ih
      obtain ⟨k, hc, hlt'⟩ := hparts j _ hbc
      exact ⟨k, hc, hlt'.trans hlt⟩
  -- A string that is made of itself would have smaller and smaller sizes.
  have hcycle (i : ι) : ¬ TransGen (Part h) (address i) (address i) := by
    induction hsize : size i using Nat.strong_induction_on generalizing i with
    | h n ih =>
      intro hcycle
      obtain ⟨j, heq, hlt⟩ := hbelow i hcycle
      exact ih _ (hsize ▸ hlt) j rfl (heq ▸ hcycle)
  intro b hb
  rcases reflTransGen_iff_eq_or_transGen.mp hb with rfl | hb
  · exact hcycle i
  · obtain ⟨j, rfl, -⟩ := hbelow i hb
    exact hcycle j

/-- What a segment is made of: nothing, the two halves of its string, or one part of it. -/
theorem Segment.resolve_cases {s : Segment} {found : List UInt16} {made : List Segment}
    (hs : s.resolve.Yields h (found, made)) :
    ∃ n, (length s.string).Yields h n ∧
      (made = [] ∨
        (∃ first second split, Part h s.string first ∧ Part h s.string second ∧
          made = across first second split (s.startIn n) (s.stopIn n)) ∨
        ∃ part skip, Part h s.string part ∧
          (skip = 0 ∨ (count s.string .stringSlicedOffset).Yields h skip) ∧
          made = [⟨part, skip + s.startIn n, some (skip + s.stopIn n)⟩]) := by
  obtain ⟨n, hn, hs⟩ := yields_bind.mp hs
  obtain ⟨type, htype, hs⟩ := yields_bind.mp hs
  obtain ⟨r, hr, hs⟩ := yields_bind.mp hs
  have hrep : (representation s.string).Yields h r := htype.bind hr
  refine ⟨n, hn, ?_⟩
  cases r with
  | sequential =>
    obtain ⟨units, -, hs⟩ := yields_bind.mp hs
    cases yields_pure.mp hs
    exact .inl rfl
  | cons =>
    obtain ⟨first, hfirst, hs⟩ := yields_bind.mp hs
    obtain ⟨second, hsecond, hs⟩ := yields_bind.mp hs
    obtain ⟨split, -, hs⟩ := yields_bind.mp hs
    cases yields_pure.mp hs
    exact .inr (.inl ⟨first, second, split, .first hrep hfirst, .second hrep hsecond, rfl⟩)
  | sliced =>
    obtain ⟨parent, hparent, hs⟩ := yields_bind.mp hs
    obtain ⟨offset, hoffset, hs⟩ := yields_bind.mp hs
    cases yields_pure.mp hs
    exact .inr (.inr ⟨parent, offset, .parent hrep hparent, .inr hoffset, rfl⟩)
  | external =>
    cases yields_pure.mp hs
    exact .inl rfl
  | thin =>
    obtain ⟨actual, hactual, hs⟩ := yields_bind.mp hs
    cases yields_pure.mp hs
    exact .inr (.inr ⟨actual, 0, .actual hrep hactual, .inl rfl, by simp⟩)

/-! ### Costs -/

namespace Segment

variable {s : Segment} {found : List UInt16} {made : List Segment} {n : ℕ}

/-- How many units a segment asks for of those that its string has. -/
def width (h : Heap) (s : Segment) : ℕ :=
  match (length s.string h).result with
  | .ok n => s.stopIn n - s.startIn n
  | .error _ => 0

/-- What a segment counts for: its units, and one if there are none. -/
def weight (h : Heap) (s : Segment) : ℕ := max 1 (s.width h)

/-- How many rounds a segment takes at most, when its string has a rank. -/
def cost (h : Heap) (rank : Address → ℕ) (s : Segment) : ℕ := s.weight h * (rank s.string + 1)

theorem width_eq (hn : (length s.string).Yields h n) :
    s.width h = s.stopIn n - s.startIn n := by
  unfold width
  rw [hn]

theorem width_le (h : Heap) (string : Address) (start stop : ℕ) :
    width h ⟨string, start, some stop⟩ ≤ stop - start := by
  unfold width startIn stopIn
  cases (length string h).result with
  | ok n => simp only [Option.getD_some]; omega
  | error e => exact Nat.zero_le _

/-- The segments of two halves ask for what is asked of the whole. -/
theorem sum_weight_across_le (first second : Address) {split start stop : ℕ} (hle : start ≤ stop) :
    ((across first second split start stop).map (weight h)).sum ≤ max 1 (stop - start) := by
  have hfirst := width_le h first start (min stop split)
  have hsecond := width_le h second (start - split) (stop - split)
  unfold across weight
  split <;> split <;>
    simp only [List.nil_append, List.append_nil, List.cons_append, List.map_cons, List.map_nil,
      List.sum_cons, List.sum_nil] <;> omega

theorem sum_weight_le (hs : s.resolve.Yields h (found, made)) :
    (made.map (weight h)).sum ≤ s.weight h := by
  obtain ⟨n, hn, rfl | ⟨first, second, split, -, -, rfl⟩ | ⟨part, skip, -, -, rfl⟩⟩ :=
    resolve_cases hs
  · exact Nat.zero_le _
  · rw [weight, width_eq hn]
    exact sum_weight_across_le first second (Nat.min_le_right ..)
  · have hpart := width_le h part (skip + s.startIn n) (skip + s.stopIn n)
    simp only [List.map_cons, List.map_nil, List.sum_cons, List.sum_nil, weight, width_eq hn]
    omega

theorem part_of_mem_across {first second : Address} {split start stop : ℕ} {m : Segment}
    (hm : m ∈ across first second split start stop) : m.string = first ∨ m.string = second := by
  unfold across at hm
  rcases List.mem_append.mp hm with hm | hm <;> split at hm <;> simp_all

/-- A segment is made of segments of the parts of its string. -/
theorem part_of_mem (hs : s.resolve.Yields h (found, made)) {m : Segment} (hm : m ∈ made) :
    Part h s.string m.string := by
  obtain ⟨n, hn, rfl | ⟨first, second, split, hfirst, hsecond, rfl⟩ |
    ⟨part, skip, hpart, -, rfl⟩⟩ := resolve_cases hs
  · cases hm
  · rcases part_of_mem_across hm with heq | heq
    · exact heq ▸ hfirst
    · exact heq ▸ hsecond
  · cases List.mem_singleton.mp hm
    exact hpart

/-- The segments that one is made of cost less than it does. -/
theorem sum_cost_lt (hs : s.resolve.Yields h (found, made)) {rank : Address → ℕ}
    (hrank : ∀ part, Part h s.string part → rank part < rank s.string) :
    (made.map (cost h rank)).sum < s.cost h rank := by
  -- A part ranks lower than its string, which makes up for the one that is added to a rank.
  have hcost : ∀ m ∈ made, m.cost h rank ≤ m.weight h * rank s.string := fun m hm =>
    Nat.mul_le_mul_left _ (hrank _ (part_of_mem hs hm))
  have hweight : 0 < s.weight h := Nat.lt_of_lt_of_le Nat.one_pos (Nat.le_max_left ..)
  calc (made.map (cost h rank)).sum
      ≤ (made.map fun m => m.weight h * rank s.string).sum := List.sum_le_sum hcost
    _ = (made.map (weight h)).sum * rank s.string := List.sum_map_mul_right ..
    _ ≤ s.weight h * rank s.string := Nat.mul_le_mul_right _ (sum_weight_le hs)
    _ < s.weight h * (rank s.string + 1) := Nat.mul_lt_mul_of_pos_left (Nat.lt_succ_self _) hweight

end Segment

/-! ### Runs -/

/-- One round resolves the first segment that is left and puts what it is made of in its place. -/
theorem Progress.advance_cases {whole : Address} {p p' : Progress}
    (hp : (p.advance whole).Yields h (.inl p')) :
    ∃ s rest found made, p.segments = s :: rest ∧ s.resolve.Yields h (found, made) ∧
      p' = ⟨p.units ++ found, made ++ rest⟩ := by
  rcases p with ⟨units, _ | ⟨s, rest⟩⟩
  · cases yields_pure.mp hp
  · obtain ⟨⟨found, made⟩, hs, hp⟩ := yields_bind.mp hp
    refine ⟨s, rest, found, made, rfl, hs, ?_⟩
    dsimp only at hp
    split at hp
    case isTrue => exact absurd hp yields_fail
    case isFalse => exact (Sum.inl.inj (yields_pure.mp hp)).symm

/-- What becomes of units that were all found in a string: too many are refused. -/
def bounded (string : Address) (units : List UInt16) : Except Failure (List UInt16) :=
  if units.length ≤ maxStringUnits then .ok units else .error (.shape (.oversizedString string))

/-- What was found and what the segments that are left account for are together the whole. -/
def Progress.Accounts (P : Segment → List UInt16 → Prop) (whole : List UInt16) (p : Progress) :
    Prop :=
  ∃ parts, List.Forall₂ P p.segments parts ∧ p.units.toList ++ parts.flatten = whole

/-- If a segment is resolved into units and segments that account for what it does, a round goes on,
or it was the last one and found everything, unless that is too much. -/
theorem Progress.advance_accounts {P : Segment → List UInt16 → Prop} {whole : List UInt16}
    (hresolve : ∀ s units, P s units → units.length ≤ whole.length →
      ∃ found made parts, s.resolve.Yields h (found, made) ∧ List.Forall₂ P made parts ∧
        found ++ parts.flatten = units)
    (string : Address) {p : Progress} (hsize : p.units.size ≤ maxStringUnits)
    (hp : p.Accounts P whole) :
    (∃ p', (p.advance string).Yields h (.inl p') ∧ p'.units.size ≤ maxStringUnits ∧
        p'.Accounts P whole) ∨
      (p.advance string h).result = (bounded string whole).map .inr := by
  obtain ⟨parts, hparts, hwhole⟩ := hp
  rcases p with ⟨units, _ | ⟨s, rest⟩⟩
  · rw [List.forall₂_nil_left_iff.mp hparts, List.flatten_nil, List.append_nil] at hwhole
    subst hwhole
    rw [bounded, if_pos (by rwa [Array.length_toList])]
    exact .inr rfl
  · obtain ⟨part, parts, hs, hrest, rfl⟩ := List.forall₂_cons_left_iff.mp hparts
    rw [List.flatten_cons] at hwhole
    have hlength := congrArg List.length hwhole
    simp only [List.length_append] at hlength
    -- What is left accounts for no more than the whole, and so does each segment of it.
    obtain ⟨found, made, made', hfound, hmade, rfl⟩ := hresolve s part hs (by omega)
    rw [List.length_append] at hlength
    have hgrown : (units ++ found).size = units.toList.length + found.length := by
      rw [← Array.length_toList, Array.toList_appendList, List.length_append]
    by_cases hmax : maxStringUnits < (units ++ found).size
    · refine .inr ?_
      rw [bounded, if_neg (by omega), advance, hfound.result_bind]
      dsimp only
      rw [if_pos hmax]
      rfl
    · refine .inl ⟨⟨units ++ found, made ++ rest⟩, hfound.bind ?_, Nat.le_of_not_lt hmax,
        made' ++ parts, List.rel_append hmade hrest, ?_⟩
      · dsimp only
        rw [if_neg hmax]
        exact yields_pure.mpr rfl
      · simpa using hwhole

/-- What the segments that are left cost together. -/
def Progress.cost (h : Heap) (rank : Address → ℕ) (p : Progress) : ℕ :=
  (p.segments.map (Segment.cost h rank)).sum

/-- The segments that are left are of strings that the whole is made of. -/
def Progress.Within (h : Heap) (whole : Address) (p : Progress) : Prop :=
  ∀ s ∈ p.segments, ReflTransGen (Part h) whole s.string

theorem Progress.within_start (string : Address) :
    Progress.Within h string ⟨#[], [⟨string, 0, none⟩]⟩ := by
  intro s hs
  cases List.mem_singleton.mp hs
  exact .refl

/-- A round stays within the whole, and less is left to do. -/
theorem Progress.cost_lt {whole : Address} {p p' : Progress} {rank : Address → ℕ}
    (hrank : ∀ a b, ReflTransGen (Part h) whole a → Part h a b → rank b < rank a)
    (hp : p.Within h whole) (hstep : (p.advance whole).Yields h (.inl p')) :
    p'.Within h whole ∧ p'.cost h rank < p.cost h rank := by
  obtain ⟨s, rest, found, made, hsegments, hs, rfl⟩ := advance_cases hstep
  have hwhole : ReflTransGen (Part h) whole s.string := hp s (by simp [hsegments])
  constructor
  · intro m hm
    rcases List.mem_append.mp hm with hm | hm
    · exact hwhole.tail (Segment.part_of_mem hs hm)
    · exact hp m (by simp [hsegments, hm])
  · have hlt := Segment.sum_cost_lt hs fun part => hrank s.string part hwhole
    simp only [cost, hsegments, List.map_append, List.sum_append, List.map_cons, List.sum_cons]
    omega

theorem Segment.width_lt (h : Heap) (s : Segment) : s.width h < UInt64.size := by
  unfold width
  split
  case h_1 n hn =>
    have hlt : n < UInt64.size := length_lt hn
    have hstop : s.stopIn n ≤ n := Nat.min_le_right ..
    omega
  case h_2 => exact Nat.two_pow_pos 64

/-- A segment takes no more rounds than there are. -/
theorem Segment.cost_lt {s : Segment} {rank : Address → ℕ} (hrank : rank s.string < UInt64.size) :
    s.cost h rank < maxRounds := by
  have hwidth := s.width_lt h
  have hweight : s.weight h < UInt64.size := Nat.max_lt.mpr ⟨by decide, hwidth⟩
  calc s.weight h * (rank s.string + 1)
      ≤ s.weight h * UInt64.size := Nat.mul_le_mul_left _ hrank
    _ < UInt64.size * UInt64.size := Nat.mul_lt_mul_of_pos_right hweight (Nat.two_pow_pos 64)

/-- Some measure bounds the rounds that an acyclic string takes. -/
theorem Acyclic.exists_cost {string : Address} (hstring : Acyclic h string) :
    ∃ rank : Address → ℕ,
      (∀ a b, ReflTransGen (Part h) string a → Part h a b → rank b < rank a) ∧
        Progress.cost h rank ⟨#[], [⟨string, 0, none⟩]⟩ < maxRounds := by
  obtain ⟨rank, hrank, hlt⟩ := exists_rank hstring
  refine ⟨rank, hrank, ?_⟩
  show (Segment.cost h rank ⟨string, 0, none⟩ + 0) < maxRounds
  rw [Nat.add_zero]
  exact Segment.cost_lt (hlt.trans_le card_address_le)

/-- The resolution of an acyclic string ends. -/
theorem quiet_codeUnits {string : Address} (hstring : Acyclic h string) :
    (codeUnits string h).gaveUp = false := by
  obtain ⟨rank, hrank, hlt⟩ := hstring.exists_cost
  -- A round takes one segment apart and resolves no string as a whole.
  refine quiet_loop (Progress.Within h string) (Progress.cost h rank) (fun p => ?_)
    (fun p p' hp hstep => Progress.cost_lt hrank hp hstep) (Progress.within_start string) hlt
  exact (Progress.strict_advance (S := fun _ => False)).quiet fun _ => False.elim

/-- A string that is resolved keeps its units where more was captured. -/
theorem persists_codeUnits (hle : Extends h h') (string : Address) :
    Persists h h' (codeUnits string) :=
  persists_loop fun _ =>
    (Progress.strict_advance (S := fun _ => False)).persists hle fun _ => False.elim

end JsString

end Postmortem
