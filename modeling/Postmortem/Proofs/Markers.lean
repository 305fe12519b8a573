/-
Postmortem/Proofs/Markers.lean

The two forms of a frame marker.

Where small integers are kept in the upper half of the word, a marker is stored
either so (the full form) or shifted by one bit only (the compact form).  Markers are
widened before they are looked at: widening turns the compact form into the full one
and leaves full forms and pointers alone (`widenMarker_eq_encode`,
`widenMarker_encode`, `widenMarker_of_heap`).

So two heaps that differ in the form of the markers at some slots only tell the same
of a frame, whatever its markers lead to, as long as nothing else that is asked for
on the way overlaps those slots (`ReadsApart`).  Behind the markers that is a matter
of what the rest of the reading is confined to.  The two marker slots themselves may
be one word, or lie apart; where they overlap halfway, changing the form of the one
changes what is found in the other (`of_ne_of_overlap`).

Main result: `of_eq_of_differInForm`.
-/
import Postmortem.Proofs.Calls
import Postmortem.Proofs.CycleSafety
import Postmortem.Proofs.Footprint
import Postmortem.Proofs.SmallIntegers

namespace Postmortem

open HeapM

variable {l : Layout} {h h' : Heap} {slots : List Address} {fp a : Address} {c : Constant}

/-! ### Widening -/

namespace Value

/-- The words that a marker is stored as. -/
inductive StoresMarker (l : Layout) (v : ℕ) : UInt64 → Prop
  | compact : StoresMarker l v (UInt64.ofNat (v <<< 1))
  | full : StoresMarker l v (SmallInt.encode l v)

theorem toNat_widen {w : UInt64} (hw : w < 0x80000000) : (w <<< 31).toNat = w.toNat * 2 ^ 31 := by
  have hlt : w.toNat < 2 ^ 31 := hw
  have hshift : (31 : UInt64).toNat % 64 = 31 := rfl
  rw [UInt64.toNat_shiftLeft, hshift, Nat.shiftLeft_eq, Nat.mod_eq_of_lt (by omega)]

/-- Widening a second time changes nothing: what was widened is too large, or zero. -/
theorem widenMarker_widenMarker (l : Layout) (w : UInt64) :
    widenMarker l (widenMarker l w) = widenMarker l w := by
  by_cases hcompact :
      (l.agrees .smiShiftSize 31 && SmallInt.check l w && decide (w < 0x80000000)) = true
  case neg =>
    have hsame : widenMarker l w = w := if_neg hcompact
    rw [hsame, hsame]
  case pos =>
    have hwide : widenMarker l w = w <<< 31 := if_pos hcompact
    have hw : w < 0x80000000 := of_decide_eq_true (Bool.and_eq_true_iff.mp hcompact).2
    rw [hwide]
    by_cases hzero : w = 0
    · subst hzero
      exact hwide
    · have hpos : w.toNat ≠ 0 := fun h => hzero (UInt64.toNat_inj.mp h)
      have hlarge : ¬ w <<< 31 < 0x80000000 := by
        have hnat := toNat_widen hw
        have hbound : (0x80000000 : UInt64).toNat = 2 ^ 31 := rfl
        rw [UInt64.lt_iff_toNat_lt, hnat, hbound]
        omega
      exact if_neg fun hall => hlarge (of_decide_eq_true (Bool.and_eq_true_iff.mp hall).2)

/-- Pointers are left alone. -/
theorem widenMarker_of_heap {w : UInt64} {object : Address}
    (hheap : classify l w = .heap object) : widenMarker l w = w := by
  refine if_neg fun hcompact => ?_
  have hcheck := (Bool.and_eq_true_iff.mp (Bool.and_eq_true_iff.mp hcompact).1).2
  rw [classify, if_pos hcheck] at hheap
  cases hheap

section

variable (hl : SmallInt.Wide l)
include hl

/-- The full form is left alone: its lower half is empty, so it is too large, or zero. -/
theorem widenMarker_encode (n : ℤ) :
    widenMarker l (SmallInt.encode l n) = SmallInt.encode l n := by
  have hnat := hl.toNat_encode n
  by_cases hsmall : SmallInt.encode l n < 0x80000000
  -- Nothing is left of a multiple of `2 ^ 32` below `2 ^ 31`.
  · have hlt : (SmallInt.encode l n).toNat < 2 ^ 31 := hsmall
    have hzero : SmallInt.encode l n = 0 := by
      rw [← UInt64.toNat_inj, UInt64.toNat_zero]
      omega
    rw [hzero, widenMarker]
    split <;> rfl
  · exact if_neg fun hall => hsmall (of_decide_eq_true (Bool.and_eq_true_iff.mp hall).2)

/-- The compact form becomes the full one. -/
theorem widenMarker_compact {v : ℕ} (hv : v < 2 ^ 30) :
    widenMarker l (UInt64.ofNat (v <<< 1)) = SmallInt.encode l v := by
  have hnat : (UInt64.ofNat (v <<< 1)).toNat = 2 * v := by
    rw [UInt64.toNat_ofNat', Nat.shiftLeft_eq]
    omega
  have hsmall : UInt64.ofNat (v <<< 1) < 0x80000000 := by
    have hbound : (0x80000000 : UInt64).toNat = 2 ^ 31 := rfl
    rw [UInt64.lt_iff_toNat_lt, hnat, hbound]
    omega
  have hcheck : SmallInt.check l (UInt64.ofNat (v <<< 1)) = true := by
    rw [hl.check_eq, hnat, decide_eq_true_iff]
    omega
  have hagrees : l.agrees .smiShiftSize 31 = true := by simp [Layout.agrees, hl.shiftSize]
  have hword : (Word.ofInt (v : ℤ)).toNat = v := by
    rw [Word.ofInt, UInt64.toNat_ofNat', UInt64.size]
    omega
  rw [widenMarker, hagrees, hcheck, if_pos (by simpa using hsmall), ← UInt64.toNat_inj,
    toNat_widen hsmall, hnat, hl.toNat_encode, hword]
  omega

theorem widenMarker_eq_encode {v : ℕ} (hv : v < 2 ^ 30) {w : UInt64} (hw : StoresMarker l v w) :
    widenMarker l w = SmallInt.encode l v := by
  cases hw with
  | compact => exact widenMarker_compact hl hv
  | full => exact widenMarker_encode hl v

end

end Value

/-! ### Heaps that differ in the form of markers -/

/-- Two heaps of one build that tell the same of all bytes but those of the words at `slots`, and
store there the same markers, be it in different forms. -/
structure DifferInForm (slots : List Address) (h h' : Heap) : Prop where
  agree : Agree (ApartFrom slots) h h'
  stored : ∀ slot ∈ slots, ∃ v < 2 ^ 30, ∃ w w', h.image.word? slot = some w ∧
    h'.image.word? slot = some w' ∧ Value.StoresMarker h.layout v w ∧
    Value.StoresMarker h.layout v w'

namespace ManagedFrame

/-- What a frame is if no marker tells. -/
def unmarked (fp : Address) : HeapM ManagedFrame := do
  match ← valueAt (← slotAddress fp .frameFunction) with
  | .smi .. => pure (.stub .nonFunction)
  | .heap function =>
    let type ← typeId function
    let l ← layout
    if l.agrees .typeCode type then pure (.stub .internalCode)
    else if l.agrees .typeJsFunction type then do pure (.call (← ofFunction fp function))
    else pure (.stub .nonFunction)

theorem of_eq (fp : Address) : of fp = ofMarkers fp >>= fun
    | some kind => pure (.stub kind)
    | none => unmarked fp := rfl

/-- The reading of a frame asks for words at `slots`, but else for nothing that overlaps them. -/
structure ReadsApart (slots : List Address) (h : Heap) (fp : Address) : Prop where
  context : ∀ a, (slotAddress fp .frameContext).Yields h a → a ∈ slots ∨ ApartFrom slots a 8
  /-- The marker slot is not looked at where the context slot tells an adaptor. -/
  marker : ∀ found, (markerAt fp .frameContext).Yields h found →
    found.number?.any (h.layout.agrees .frameAdaptor) = false →
    ∀ a, (slotAddress fp .frameMarker).Yields h a → a ∈ slots ∨ ApartFrom slots a 8
  rest : (ofMarkers fp).Yields h none → Confined h (ApartFrom slots) (unmarked fp)

/-! ### Reading markers -/

variable {P : Address → ℕ → Prop}

theorem confined_slotAddress : Confined h P (slotAddress fp c) :=
  .andThen confined_constant fun _ _ => .pure

theorem confined_ofMarker {marker : ℤ} : Confined h P (ofMarker marker) := by
  refine .andThen .layout fun l _ => ?_
  split
  · exact .pure
  · split
    · exact .pure
    · exact .fail

/-- A marker that was read, in whatever form. -/
theorem ofMarker_eq_of_word? {w : UInt64} (hw : h.image.word? a = some w) :
    (word a >>= fun raw => layout >>= fun l => pure (Value.ofMarker l raw) : HeapM Value) h =
      .of (.ok (.ofMarker h.layout w)) := by
  have hread : h.image.unsigned? a 8 = some w := hw
  have hword : word a h = .of (.ok w) := by
    rw [word, unsigned_eq, hread]
    rfl
  rw [bind_ok (congrArg Outcome.result hword), hword]
  rfl

/-- The marker in a slot is the same on both heaps. -/
theorem markerAt_congr (hl : SmallInt.Wide h.layout) (hforms : DifferInForm slots h h')
    (hslot : ∀ a, (slotAddress fp c).Yields h a → a ∈ slots ∨ ApartFrom slots a 8) :
    markerAt fp c h' = markerAt fp c h := by
  refine bind_congr (confined_slotAddress.congr hforms.agree) fun a ha => ?_
  rcases hslot a ha with hmem | hapart
  · obtain ⟨v, hv, w, w', hw, hw', hstored, hstored'⟩ := hforms.stored a hmem
    rw [ofMarker_eq_of_word? hw, ofMarker_eq_of_word? hw', hforms.agree.layout, Value.ofMarker,
      Value.ofMarker, Value.widenMarker_eq_encode hl hv hstored,
      Value.widenMarker_eq_encode hl hv hstored']
  · refine Confined.congr ?_ hforms.agree
    exact .andThen (.unsigned hapart) fun _ _ => .andThen .layout fun _ _ => .pure

/-- What the markers tell is the same on both heaps. -/
theorem ofMarkers_congr (hl : SmallInt.Wide h.layout) (hforms : DifferInForm slots h h')
    (hreads : ReadsApart slots h fp) : ofMarkers fp h' = ofMarkers fp h := by
  refine bind_congr (markerAt_congr hl hforms hreads.context) fun found hfound => ?_
  refine bind_congr (Confined.layout.congr hforms.agree) fun l' hl' => ?_
  obtain rfl := yields_layout.mp hl'
  split
  case isTrue => rfl
  case isFalse hadaptor =>
    have hslot := hreads.marker found hfound (Bool.eq_false_iff.mpr hadaptor)
    refine bind_congr (markerAt_congr hl hforms hslot) fun found' _ => ?_
    cases found'.number? with
    | some marker => exact confined_ofMarker.congr hforms.agree
    | none => rfl

/-- **Both forms of a marker are one marker.**  Heaps that differ in the form of the markers at some
slots tell the same of a frame, found or failed, if nothing else that is read for it overlaps those
slots.  Widening gives compact markers the full form, and leaves everything else as it is: full
forms, pointers, and whatever was widened already. -/
theorem of_eq_of_differInForm (hl : SmallInt.Wide h.layout) (hforms : DifferInForm slots h h')
    (hreads : ReadsApart slots h fp) :
    of fp h' = of fp h ∧
      (∀ v < 2 ^ 30, Value.widenMarker h.layout (UInt64.ofNat (v <<< 1)) =
        SmallInt.encode h.layout v) ∧
      (∀ w, Value.widenMarker h.layout (Value.widenMarker h.layout w) =
        Value.widenMarker h.layout w) ∧
      (∀ n, Value.widenMarker h.layout (SmallInt.encode h.layout n) =
        SmallInt.encode h.layout n) ∧
      ∀ w object, Value.classify h.layout w = .heap object →
        Value.widenMarker h.layout w = w := by
  refine ⟨?_, fun v => Value.widenMarker_compact hl, Value.widenMarker_widenMarker h.layout,
    Value.widenMarker_encode hl, fun w object => Value.widenMarker_of_heap⟩
  rw [of_eq]
  refine bind_congr (ofMarkers_congr hl hforms hreads) fun kind hkind => ?_
  cases kind with
  | some kind => rfl
  | none => exact (hreads.rest hkind).congr hforms.agree

/-! ### What is read behind the markers -/

section

variable {function shared : Address} {count : ℕ} {args : ℤ}
  (hframe : RunsFunction h fp function shared count)
  (hargs : h.layout.value? .frameArgs = some args)
  (hshown : ∀ k ≤ count, ∀ v, (valueAt (pushed h.layout fp args k)).Yields h v →
    Reads h (inspect v .default))
include hframe hargs hshown

/-- A call is put together from reads if the values are that its caller pushed. -/
theorem reads_ofFunction : Reads h (ofFunction fp function) := by
  refine .andThen strict_pointer fun shared' hshared => ?_
  obtain rfl := hframe.shared.unique hshared
  refine .andThen strict_int fun count' hcount => ?_
  obtain rfl := hframe.parameters.unique hcount
  refine .andThen strict_slotAddress fun a ha => ?_
  obtain rfl := (yields_slotAddress hargs).unique ha
  refine .andThen strict_pointerSize fun size hsize => ?_
  obtain rfl := yields_pointerSize.unique hsize
  simp only [Int.toNat_natCast, pushed_eq]
  refine .andThen strict_valueAt fun v hv => .bind (hshown count le_rfl v hv) fun receiver => ?_
  refine .bind (.forRange fun i => ?_) fun shown => ?_
  · exact .andThen strict_valueAt (hshown (count - i - 1) (by omega))
  · exact .bind SharedInfo.reads_properName fun _ => .bind SharedInfo.reads_location fun _ => .pure

theorem reads_unmarked : Reads h (unmarked fp) := by
  obtain ⟨offset, hoffset, hfunction⟩ := hframe.slot
  refine .andThen strict_slotAddress fun a ha => ?_
  obtain rfl := (yields_slotAddress hoffset).unique ha
  refine .andThen strict_valueAt fun v hv => ?_
  obtain rfl := hfunction.unique hv
  refine .bind strict_typeId fun type => .bind .layout fun l => .ite .pure (.ite ?_ .pure)
  exact .bind (reads_ofFunction hframe hargs hshown) fun _ => .pure

end

/-! ### A call and a frame of the runtime's -/

open Synthetic

/-- A call with the receiver 7 and the arguments 4 and 3, whose marker is in either form. -/
def numberCall (marker : ℕ) : Heap := callHeap marker [smiWord 3, smiWord 4, smiWord 7]

theorem differInForm_numberCall :
    DifferInForm [⟨0x6ff8⟩] (numberCall (5 <<< 1)) (numberCall (smiWord 5)) where
  agree := agree_listedImage ⟨0x6ff0⟩ (Word.toBytes 8 0x2001) (Word.length_toBytes 8 (5 <<< 1))
    (Word.length_toBytes 8 (smiWord 5)) _ _
  stored := by
    intro slot hslot
    obtain rfl := List.mem_singleton.mp hslot
    refine ⟨5, by decide, 10, 0x500000000, by decide +kernel, by decide +kernel, .compact, ?_⟩
    have hfull : SmallInt.encode (numberCall (5 <<< 1)).layout 5 = 0x500000000 := by decide +kernel
    exact hfull ▸ .full

/-- What the caller pushed are small integers. -/
theorem yields_pushed_numberCall {k : ℕ} (hk : k ≤ 2) : ∃ raw number,
    (valueAt (pushed (numberCall (5 <<< 1)).layout ⟨0x7000⟩ 16 k)).Yields (numberCall (5 <<< 1))
      (.smi raw number) := by
  match k, hk with
  | 0, _ => exact ⟨0x300000000, 3, by decide +kernel⟩
  | 1, _ => exact ⟨0x400000000, 4, by decide +kernel⟩
  | 2, _ => exact ⟨0x700000000, 7, by decide +kernel⟩

theorem runsFunction_numberCall :
    RunsFunction (numberCall (5 <<< 1)) ⟨0x7000⟩ ⟨0x2001⟩ ⟨0x1801⟩ 2 := by
  refine ⟨?_, ⟨-16, ?_, ?_⟩, ⟨140, ?_⟩, ?_, ?_⟩ <;> decide +kernel

/-- What is read behind the marker lies apart from it. -/
theorem readsApart_numberCall : ReadsApart [⟨0x6ff8⟩] (numberCall (5 <<< 1)) ⟨0x7000⟩ := by
  have hslot (c : Constant) (hc : (numberCall (5 <<< 1)).layout.value? c = some (-8)) (a : Address)
      (ha : (slotAddress ⟨0x7000⟩ c).Yields (numberCall (5 <<< 1)) a) :
      a ∈ [⟨0x6ff8⟩] ∨ ApartFrom [⟨0x6ff8⟩] a 8 := by
    obtain rfl := (yields_slotAddress hc).unique ha
    exact .inl (by decide)
  refine ⟨hslot _ (by decide +kernel), fun _ _ _ => hslot _ (by decide +kernel), fun _ => ?_⟩
  have hreads : Reads (numberCall (5 <<< 1)) (unmarked ⟨0x7000⟩) := by
    refine reads_unmarked runsFunction_numberCall (args_callHeap _ _) fun k hk v hv => ?_
    obtain ⟨raw, number, hnumber⟩ := yields_pushed_numberCall hk
    obtain rfl := hnumber.unique hv
    rw [inspect, Inspection.below_smi]
    exact .pure
  -- What is found without the word of the marker does not need it.
  let hidden := (numberCall (5 <<< 1)).without [⟨0x6ff8⟩]
  have hfound : (unmarked ⟨0x7000⟩ hidden).result.toOption.isSome := by decide +kernel
  obtain ⟨found, hfound⟩ := Option.isSome_iff_exists.mp hfound
  exact hreads.confined_apart (yields_iff_toOption.mpr hfound)

/-- The call is read whichever form its marker has. -/
theorem of_eq_of_differInForm_call :
    (of ⟨0x7000⟩ (numberCall (5 <<< 1))).result.toOption.map label = some "f" ∧
      of ⟨0x7000⟩ (numberCall (smiWord 5)) = of ⟨0x7000⟩ (numberCall (5 <<< 1)) := by
  have hwide : SmallInt.Wide (numberCall (5 <<< 1)).layout := by constructor <;> decide +kernel
  exact ⟨by decide +kernel,
    (of_eq_of_differInForm hwide differInForm_numberCall readsApart_numberCall).1⟩

/-- A frame whose context and marker slots share half a word: the context slot holds the word, and
the marker slot the upper half of it. -/
def straddledFrame (word : ℕ) : Heap where
  layout := listedLayout (flatConstants ++ [
    (.frameContext, -8), (.frameMarker, -4), (.frameFunction, -16), (.frameAdaptor, 10),
    (.frameEntry, 1)])
  image := listedImage [(⟨0x6ff0⟩, Word.toBytes 8 0 ++ Word.toBytes 8 word ++ Word.toBytes 4 1)]

theorem differInForm_straddledFrame :
    DifferInForm [⟨0x6ff8⟩] (straddledFrame (1 <<< 1)) (straddledFrame (smiWord 1)) where
  agree := agree_listedImage ⟨0x6ff0⟩ (Word.toBytes 8 0) (Word.length_toBytes 8 (1 <<< 1))
    (Word.length_toBytes 8 (smiWord 1)) _ _
  stored := by
    intro slot hslot
    obtain rfl := List.mem_singleton.mp hslot
    refine ⟨1, by decide, 2, 0x100000000, by decide +kernel, by decide +kernel, .compact, ?_⟩
    have hfull : SmallInt.encode (straddledFrame (1 <<< 1)).layout 1 = 0x100000000 := by
      decide +kernel
    exact hfull ▸ .full

/-- Behind the markers only the function slot is read, which holds a small integer. -/
theorem confined_straddledFrame {word : ℕ} (hword : word = 1 <<< 1 ∨ word = smiWord 1) :
    Confined (straddledFrame word) (ApartFrom [⟨0x6ff8⟩]) (unmarked ⟨0x7000⟩) := by
  have hslot : (slotAddress ⟨0x7000⟩ .frameFunction).Yields (straddledFrame word) ⟨0x6ff0⟩ := by
    rcases hword with rfl | rfl <;> decide +kernel
  have hvalue : (valueAt ⟨0x6ff0⟩).Yields (straddledFrame word) (.smi 0 0) := by
    rcases hword with rfl | rfl <;> decide +kernel
  refine .andThen confined_slotAddress fun a ha => ?_
  obtain rfl := hslot.unique ha
  have hread : Confined (straddledFrame word) (ApartFrom [⟨0x6ff8⟩]) (valueAt ⟨0x6ff0⟩) :=
    .andThen (.unsigned (by decide +kernel)) fun _ _ => .andThen .layout fun _ _ => .pure
  refine .andThen hread fun v hv => ?_
  obtain rfl := hvalue.unique hv
  exact .pure

/-- **Marker slots that overlap halfway are not spared.**  Two frames differ in the form of the
marker 1 in the context slot only, no function, argument or object is in the way, and still they
are told apart. -/
theorem of_ne_of_overlap :
    SmallInt.Wide (straddledFrame (1 <<< 1)).layout ∧
      (slotAddress ⟨0x7000⟩ .frameContext).Yields (straddledFrame (1 <<< 1)) ⟨0x6ff8⟩ ∧
      DifferInForm [⟨0x6ff8⟩] (straddledFrame (1 <<< 1)) (straddledFrame (smiWord 1)) ∧
      (∀ word ∈ [1 <<< 1, smiWord 1],
        Confined (straddledFrame word) (ApartFrom [⟨0x6ff8⟩]) (unmarked ⟨0x7000⟩)) ∧
      (of ⟨0x7000⟩ (straddledFrame (1 <<< 1))).result.toOption.map label = some "<entry>" ∧
      (of ⟨0x7000⟩ (straddledFrame (smiWord 1))).result.toOption.map label =
        some "<non-function>" := by
  refine ⟨by constructor <;> decide +kernel, by decide +kernel, differInForm_straddledFrame,
    fun word hword => confined_straddledFrame ?_, by decide +kernel, by decide +kernel⟩
  simpa using hword

end ManagedFrame

end Postmortem
