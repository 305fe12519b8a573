/-
Postmortem/Proofs/Windowing.lean

What is fetched for a window of an array.

An array declares a length, and its elements are in the slots of a fixed array that
has a length of its own, its capacity (`Keeps`).  Both may be anything in a heap that
was damaged.  What is shown in detail is the window that was asked for, clamped to
the smaller of the two; so an array is shown as the slots of that window are, one
after the other, and no length on record is asked about them (`storedPage`).

What the other slots hold, or that they were lost, is then without influence, unless
it is asked for in another way.  There are three: an object inside the window may be
read from there, a field of the array itself may lie there, and a slot of the window
may overlap others.  The last happens where slots are smaller than words or do not
fit into the memory, and else never (`slotAddress_apart`).  None of the three can be
left out (`shapeOf_ne_of_overlap`).

Main result: `shapeOf_window`.
-/
import Postmortem.Proofs.Alike
import Postmortem.Proofs.Footprint
import Postmortem.Proofs.Paging

namespace Postmortem

open HeapM

variable {h h' : Heap} {P : Address → ℕ → Prop} {array backing object : Address}
  {index length capacity : ℕ}

/-! ### Slots -/

/-- Different ways that are shorter than the memory lead to different places. -/
theorem Address.offset_ne_of_lt {a : Address} {base : ℤ} {m n : ℕ} (hmn : m < n)
    (hn : n < UInt64.size) : a.offset (base + m) ≠ a.offset (base + n) := by
  intro heq
  have hword : (a.offset (base + m)).word.toNat = (a.offset (base + n)).word.toNat := by rw [heq]
  simp only [offset, Word.ofInt, UInt64.toNat_ofNat', UInt64.size] at hword hn
  omega

namespace FixedArray

/-- The address of a slot. -/
def slotAddress (l : Layout) (array : Address) (index : ℕ) : Address :=
  array.field (l.raw .fixedArrayData + index * l.pointerSize) l

/-- The addresses of some slots. -/
def slotAddresses (l : Layout) (array : Address) (indices : List ℕ) : List Address :=
  indices.map (slotAddress l array)

/-- Reading a slot asks for its word, if anything. -/
theorem confined_slot (hslot : P (slotAddress h.layout array index) 8) :
    Confined h P (slot array .fixedArrayData index) := by
  refine .andThen confined_constant fun base hbase => .andThen (.andThen .layout fun _ _ => .pure)
    fun size hsize => .andThen (.andThen .layout fun _ _ => .pure) fun a ha => ?_
  obtain rfl := yields_pointerSize.unique hsize
  obtain rfl := (yields_fieldAddress array _).unique ha
  have hraw : h.layout.raw .fixedArrayData = base := by
    rw [Layout.raw, yields_constant.mp hbase, Option.getD_some]
  rw [slotAddress, hraw] at hslot
  exact .andThen (.unsigned hslot) fun _ _ => .andThen .layout fun _ _ => .pure

theorem offset_slotAddress (l : Layout) (array : Address) (i x : ℕ) :
    (slotAddress l array i).offset x = array.offset
      (l.raw .fixedArrayData - l.raw .heapObjectTag + (i * l.pointerSize + x : ℕ)) := by
  rw [slotAddress, Address.field, Address.offset_offset]
  congr 1
  push_cast
  omega

/-- Slots that words fit into do not overlap if all of them fit into the memory. -/
theorem slotAddress_apart {l : Layout} {i j : ℕ} (hsize : 8 ≤ l.pointerSize)
    (hfit : capacity * l.pointerSize ≤ UInt64.size) (hi : i < capacity) (hj : j < capacity)
    (hne : i ≠ j) : (slotAddress l array j).Apart (slotAddress l array i) 8 := by
  have hbefore {m n x y : ℕ} (hmn : m < n) (hn : n < capacity) (hx : x < 8) (hy : y < 8) :
      m * l.pointerSize + x < n * l.pointerSize + y ∧ n * l.pointerSize + y < UInt64.size := by
    have hnext := Nat.mul_le_mul_right l.pointerSize (Nat.succ_le_of_lt hmn)
    have hlast := Nat.mul_le_mul_right l.pointerSize (Nat.succ_le_of_lt hn)
    rw [Nat.succ_mul] at hnext hlast
    omega
  intro x hx y hy
  rw [offset_slotAddress, offset_slotAddress]
  rcases Nat.lt_or_gt_of_ne hne with hlt | hgt
  · obtain ⟨hxy, hsize⟩ := hbefore hlt hj hx hy
    exact Address.offset_ne_of_lt hxy hsize
  · obtain ⟨hyx, hsize⟩ := hbefore hgt hi hy hx
    exact (Address.offset_ne_of_lt hyx hsize).symm

end FixedArray

theorem Window.mem_range'_iff {w : Window} :
    index ∈ List.range' w.start w.length ↔ w.start ≤ index ∧ index < w.stop := by
  have hle := w.start_le_stop
  rw [List.mem_range'_1, Window.length]
  omega

namespace Inspection

variable {inner : Inspector} {kind : Kind} {o : Options} {w : Window}

/-! ### Windows -/

/-- What slot `index` is shown as, whatever length is on record. -/
def storedElement (inner : Inspector) (backing : Address) (o : Options) (index : ℕ) :
    HeapM (Element Node) := do
  let found ← slot backing .fixedArrayData index
  if ← isHole found then pure ⟨index, none⟩
  else do pure ⟨index, some (← inner found o.child)⟩

/-- What the slots of a window are shown as, one after the other. -/
def storedPage (inner : Inspector) (backing : Address) (o : Options) (w : Window) :
    HeapM (Page (Element Node)) := do
  pure ⟨← (List.range' w.start w.length).mapM (storedElement inner backing o), w⟩

theorem element_eq (hcapacity : (FixedArray.length backing).Yields h capacity)
    (hindex : index < capacity) :
    element inner backing o index h = storedElement inner backing o index h := by
  have hlength : Alike h h (FixedArray.length backing) := alike_count
  have hget : FixedArray.get backing index h = slot backing .fixedArrayData index h := by
    rw [FixedArray.get, hlength.bind_eq hcapacity, if_pos hindex]
  exact bind_congr hget fun _ _ => rfl

/-- The length on record does not matter to a window that it allows. -/
theorem elementPage_eq (hcapacity : (FixedArray.length backing).Yields h capacity)
    (hstop : w.stop ≤ capacity) :
    elementPage inner backing o w h = storedPage inner backing o w h := by
  have hitems : forRange w.start (element inner backing o) w.length h =
      (List.range' w.start w.length).mapM (storedElement inner backing o) h := by
    rw [forRange_eq_mapM]
    refine mapM_congr fun i hi => element_eq hcapacity ?_
    obtain ⟨-, hlt⟩ := Window.mem_range'_iff.mp hi
    omega
  exact bind_congr hitems fun _ _ => rfl

/-- What is shown for the slots of a window is found by requests that `P` allows. -/
structure ConfinedInside (h : Heap) (P : Address → ℕ → Prop) (inner : Inspector)
    (backing : Address) (o : Options) (w : Window) : Prop where
  hole : ∀ i, w.start ≤ i → i < w.stop → ∀ v, (slot backing .fixedArrayData i).Yields h v →
    Confined h P (isHole v)
  value : ∀ i, w.start ≤ i → i < w.stop → ∀ v, (slot backing .fixedArrayData i).Yields h v →
    (isHole v).Yields h false → Confined h P (inner v o.child)

/-- Only the slots of the window are asked for, and what is shown for them. -/
theorem confined_storedPage
    (hslots : ∀ i, w.start ≤ i → i < w.stop → P (FixedArray.slotAddress h.layout backing i) 8)
    (hinside : ConfinedInside h P inner backing o w) :
    Confined h P (storedPage inner backing o w) := by
  refine .andThen (.mapM fun i hi => ?_) fun _ _ => .pure
  obtain ⟨hle, hlt⟩ := Window.mem_range'_iff.mp hi
  refine .andThen (FixedArray.confined_slot (hslots i hle hlt)) fun v hv =>
    .andThen (hinside.hole i hle hlt v hv) fun hole hhole => ?_
  cases hole with
  | true => exact .pure
  | false => exact .andThen (hinside.value i hle hlt v hv hhole) fun _ _ => .pure

/-! ### Arrays -/

/-- `array`, taken for an array of the kind, declares `length` elements and keeps them in the
`capacity` slots of `backing`. -/
inductive Keeps (h : Heap) (array : Address) : Kind → ℕ → Address → ℕ → Prop
  | fixedArray {length : ℕ} : (FixedArray.length array).Yields h length →
      Keeps h array .fixedArray length array length
  | array {length capacity : ℕ} {backing : Address} : (JsArray.length array).Yields h length →
      (JsArray.backing array).Yields h backing →
      (FixedArray.length backing).Yields h capacity → Keeps h array .array length backing capacity

/-- What an array of a kind is shown as in detail. -/
def arrayOf (kind : Kind) (length : ℕ) (elements : Page (Element Node)) : Shape Node :=
  match kind with
  | .array => .array length (some elements)
  | _ => .fixedArray length (some elements)

/-- The window of an array that is shown. -/
def shownWindow (o : Options) (length capacity : ℕ) : Window :=
  .of o.current o.limit (min length capacity)

theorem stop_shownWindow_le : (shownWindow o length capacity).stop ≤ capacity :=
  (shownWindow o length capacity).stop_le_total.trans (Nat.min_le_right ..)

theorem whenDetailed_bind {α β : Type} (hdetailed : o.detailed = true) (x : HeapM α)
    (f : Option α → HeapM β) : whenDetailed o x >>= f = x >>= fun a => f (some a) := by
  rw [whenDetailed, if_pos hdetailed]
  simp only [bind_assoc, pure_bind]

/-- An array is shown as the slots of the window are. -/
theorem shapeOf_eq (hdetailed : o.detailed = true)
    (hkeeps : Keeps h array kind length backing capacity) :
    shapeOf inner kind array o h = (do
      let page ← storedPage inner backing o (shownWindow o length capacity)
      pure (arrayOf kind length page) : HeapM (Shape Node)) h := by
  cases hkeeps with
  | fixedArray hlength =>
    have halike : Alike h h (FixedArray.length array) := alike_count
    have hwindow : Window.of o.current o.limit length = shownWindow o length length := by
      rw [shownWindow, Nat.min_self]
    refine (halike.bind_eq hlength).trans ?_
    refine (congrFun (whenDetailed_bind hdetailed _ _) h).trans ?_
    rw [hwindow]
    exact bind_congr (elementPage_eq hlength stop_shownWindow_le) fun _ _ => rfl
  | array hlength hbacking hcapacity =>
    have halike : Alike h h (JsArray.length array) := alike_count
    have halike' : Alike h h (FixedArray.length backing) := alike_count
    refine (halike.bind_eq hlength).trans ?_
    refine (congrFun (whenDetailed_bind hdetailed _ _) h).trans ?_
    refine bind_congr ?_ fun _ _ => rfl
    refine ((alike_pointer rfl rfl).bind_eq hbacking).trans ?_
    refine (halike'.bind_eq hcapacity).trans ?_
    exact elementPage_eq hcapacity stop_shownWindow_le

/-- Slots outside a window do not overlap those inside. -/
theorem apartFrom_slots {l : Layout} {skipped : List ℕ} (hstop : w.stop ≤ capacity)
    (hskipped : ∀ j ∈ skipped, j < capacity ∧ ¬ (w.start ≤ j ∧ j < w.stop))
    (hsize : 8 ≤ l.pointerSize) (hfit : capacity * l.pointerSize ≤ UInt64.size) :
    ∀ i, w.start ≤ i → i < w.stop →
      ApartFrom (FixedArray.slotAddresses l backing skipped) (FixedArray.slotAddress l backing i)
        8 := by
  intro i hle hlt a ha
  obtain ⟨j, hj, rfl⟩ := List.mem_map.mp ha
  obtain ⟨hcapacity, hout⟩ := hskipped j hj
  refine FixedArray.slotAddress_apart hsize hfit (by omega) hcapacity ?_
  rintro rfl
  exact hout ⟨hle, hlt⟩

/-- **An array is fetched by windows.**  What is shown of an array in detail is settled by the slots
of the window: they are gone through in order, and neither an array that declares more elements than
there are slots nor any slot outside makes a difference.  So the outcome is the same on every heap
that tells the same apart from slots outside, as long as the array is the same there; what is found
for the slots inside is not to be read from those outside, and where slots are smaller than words or
go all around the memory, neither are the slots inside. -/
theorem shapeOf_window {skipped : List ℕ} (hdetailed : o.detailed = true)
    (hkeeps : Keeps h array kind length backing capacity) (hw : w = shownWindow o length capacity)
    (hskipped : ∀ j ∈ skipped, j < capacity ∧ ¬ (w.start ≤ j ∧ j < w.stop))
    (hslots : 8 ≤ h.layout.pointerSize ∧ capacity * h.layout.pointerSize ≤ UInt64.size ∨
      ∀ i, w.start ≤ i → i < w.stop →
        ApartFrom (FixedArray.slotAddresses h.layout backing skipped)
          (FixedArray.slotAddress h.layout backing i) 8)
    (hinside : ConfinedInside h (ApartFrom (FixedArray.slotAddresses h.layout backing skipped))
      inner backing o w) :
    (∀ h', Agree (ApartFrom (FixedArray.slotAddresses h.layout backing skipped)) h h' →
        Keeps h' array kind length backing capacity →
        shapeOf inner kind array o h' = shapeOf inner kind array o h) ∧
      shapeOf inner kind array o h = (do
        pure (arrayOf kind length (← storedPage inner backing o w)) : HeapM (Shape Node)) h ∧
      ∀ shape, (shapeOf inner kind array o).Yields h shape →
        ∃ items, shape = arrayOf kind length ⟨items, w⟩ ∧
          items.map Element.index = List.range' w.start w.length := by
  subst hw
  have hshape : shapeOf inner kind array o h = _ := shapeOf_eq hdetailed hkeeps
  refine ⟨fun h' hagree hkeeps' => ?_, hshape, fun shape hyields => ?_⟩
  · have hinside' := confined_storedPage
      (hslots.elim (fun ⟨hsize, hfit⟩ => apartFrom_slots stop_shownWindow_le hskipped hsize hfit)
        id) hinside
    rw [hshape, shapeOf_eq hdetailed hkeeps']
    exact bind_congr (hinside'.congr hagree) fun _ _ => rfl
  · rw [Yields, hshape] at hyields
    obtain ⟨page, hpage, hyields⟩ := yields_bind.mp hyields
    obtain ⟨items, hitems, hpage⟩ := yields_bind.mp hpage
    cases yields_pure.mp hpage
    refine ⟨items, (yields_pure.mp hyields).symm, ?_⟩
    have hindices := (yields_mapM.mp hitems).imp fun _ _ he => index_of_shown he
    have hsame := List.forall₂_map_right_iff.mpr hindices
    rw [List.forall₂_eq_eq_eq] at hsame
    exact hsame.symm

/-! ### A long array with a short backing -/

open Synthetic

/-- An array that declares six elements and has slots for four: something that is no object, the
hole, a string, and again something that is no object. -/
def longArray : Heap where
  layout := listedLayout (flatConstants ++ [
    (.typeJsError, 170), (.typeJsArray, 160), (.arrayLength, 24), (.objectElements, 16),
    (.typeOddball, 150), (.oddballKind, 8), (.oddballTheHole, 3)])
  image := listedImage [
    (⟨0x100c⟩, Word.toBytes 2 160), (⟨0x110c⟩, Word.toBytes 2 134), (⟨0x120c⟩, Word.toBytes 2 150),
    (⟨0x130c⟩, Word.toBytes 2 8),
    (⟨0x2000⟩, wordsBytes [0x1001, 0, 0x3001, smiWord 6]),
    (⟨0x3000⟩, wordsBytes [0x1101, smiWord 4, 0xbeef, 0x4001, 0x5001, 0xbeef]),
    (⟨0x4000⟩, wordsBytes [0x1201, smiWord 3]),
    (⟨0x5000⟩, headerBytes 0x1301 2 ++ [0x68, 0x69])]

/-- The same array, where the first and the last slot were not captured. -/
def tornArray : Heap :=
  longArray.without (FixedArray.slotAddresses longArray.layout ⟨0x3001⟩ [0, 3])

/-- The two elements in the middle. -/
def middleOptions : Options := { shallowOptions with current := 1, limit := 2 }

/-- Where errors have a type, kinds are told by the type alone. -/
theorem Kind.reads_of (htype : h.layout.has .typeJsError = true) : Reads h (Kind.of object) := by
  have herror (type : ℤ) : Reads h (Kind.isError object type) := by
    refine .andThen .layout fun l hl => ?_
    obtain rfl := yields_layout.mp hl
    rw [if_pos htype]
    exact .pure
  refine .bind strict_typeId fun type => .bind .layout fun l => ?_
  split
  · exact .pure
  · exact .bind (herror type) fun _ => .ite .pure .pure

theorem reads_below_string (htype : h.layout.has .typeJsError = true)
    (hkind : (Kind.of object).Yields h .string) (hstring : (isString (.heap object)).Yields h true)
    {levels : ℕ} {ancestors : List Address} :
    Reads h (below (levels + 1) ancestors (.heap object) o) := by
  refine .andThen (Kind.reads_of htype) fun kind hyields => ?_
  obtain rfl := hkind.unique hyields
  refine .bind (.bind (JsString.reads_text (.typed hstring)) fun _ => .pure) fun _ => ?_
  exact .bind reads_shownMap fun _ => .pure

/-- The hole and the string are read from elsewhere. -/
theorem confinedInside_longArray :
    ConfinedInside longArray
      (ApartFrom (FixedArray.slotAddresses longArray.layout ⟨0x3001⟩ [0, 3]))
      (below 2 [⟨0x2001⟩]) ⟨0x3001⟩ middleOptions (shownWindow middleOptions 6 4) := by
  have hslots {i : ℕ} (hle : 1 ≤ i) (hlt : i < 3) {v : Value}
      (hv : (slot ⟨0x3001⟩ .fixedArrayData i).Yields longArray v) :
      v = .heap ⟨0x4001⟩ ∨ v = .heap ⟨0x5001⟩ := by
    obtain rfl | rfl : i = 1 ∨ i = 2 := by omega
    · exact .inl (hv.unique (by decide +kernel))
    · exact .inr (hv.unique (by decide +kernel))
  constructor
  · intro i hle hlt v hv
    obtain rfl | rfl := hslots hle hlt hv
    · have hhole : (isHole (.heap ⟨0x4001⟩)).Yields tornArray true := by decide +kernel
      exact Reads.confined_apart strict_isHole hhole
    · have hhole : (isHole (.heap ⟨0x5001⟩)).Yields tornArray false := by decide +kernel
      exact Reads.confined_apart strict_isHole hhole
  · intro i hle hlt v hv hfull
    obtain rfl | rfl := hslots hle hlt hv
    · exact absurd (hfull.unique (b := true) (by decide +kernel)) (by decide)
    · have hfound : (below 2 [⟨0x2001⟩] (.heap ⟨0x5001⟩) middleOptions.child
          tornArray).result.toOption.isSome := by decide +kernel
      obtain ⟨n, hn⟩ := Option.isSome_iff_exists.mp hfound
      exact (reads_below_string (by decide +kernel) (by decide +kernel)
        (by decide +kernel)).confined_apart (yields_iff_toOption.mpr hn)

/-- The length of an array, and what is shown of its elements: their indexes, and where they are if
they are no holes. -/
def digest (found : Outcome (Shape Node)) : Option (ℕ × List (ℕ × Option Address)) :=
  match found.result with
  | .ok (.array length (some page)) | .ok (.fixedArray length (some page)) =>
    some (length, page.items.map fun e => (e.index, e.value.map Node.address))
  | _ => none

/-- The elements in the middle are shown, whether or not the others were captured. -/
theorem shapeOf_window_longArray :
    digest (shapeOf (below 2 [⟨0x2001⟩]) .array ⟨0x2001⟩ middleOptions longArray) =
        some (6, [(1, none), (2, some ⟨0x5001⟩)]) ∧
      shapeOf (below 2 [⟨0x2001⟩]) .array ⟨0x2001⟩ middleOptions tornArray =
        shapeOf (below 2 [⟨0x2001⟩]) .array ⟨0x2001⟩ middleOptions longArray := by
  have hkeeps : Keeps longArray ⟨0x2001⟩ .array 6 ⟨0x3001⟩ 4 :=
    .array (by decide +kernel) (by decide +kernel) (by decide +kernel)
  have hkeeps' : Keeps tornArray ⟨0x2001⟩ .array 6 ⟨0x3001⟩ 4 :=
    .array (by decide +kernel) (by decide +kernel) (by decide +kernel)
  have hskipped : ∀ j ∈ [0, 3], j < 4 ∧ ¬ ((shownWindow middleOptions 6 4).start ≤ j ∧
      j < (shownWindow middleOptions 6 4).stop) := by decide
  have hwindow := shapeOf_window rfl hkeeps rfl hskipped (.inl (by decide +kernel))
    confinedInside_longArray
  exact ⟨by decide +kernel, hwindow.1 tornArray (agree_without _ _) hkeeps'⟩

/-! ### Slots that are not apart -/

/-- Heaps that tell the same apart from slot `j` of an array, which is outside the window, and tell
different things of the array, though there are small integers only inside. -/
structure ToldApart (h h' : Heap) (kind : Kind) (array : Address) (o : Options)
    (length : ℕ) (backing : Address) (capacity j : ℕ) : Prop where
  isKind : (Kind.of array).Yields h kind
  keeps : Keeps h array kind length backing capacity
  outside : j < capacity ∧ (shownWindow o length capacity).stop ≤ j
  agree : Agree (ApartFrom (FixedArray.slotAddresses h.layout backing [j])) h h'
  inside : ∀ i, (shownWindow o length capacity).start ≤ i →
    i < (shownWindow o length capacity).stop → ∃ raw number,
      (slot backing .fixedArrayData i).Yields h (.smi raw number)
  differ : shapeOf (below 1 [array]) kind array o h' ≠ shapeOf (below 1 [array]) kind array o h

/-- The first element. -/
def firstOptions : Options := { shallowOptions with limit := 1 }

theorem exists_yields_smi {raw : UInt64} {number : ℤ}
    (hfirst : (slot backing .fixedArrayData 0).Yields h (.smi raw number)) (i : ℕ) (hlt : i < 1) :
    ∃ raw number, (slot backing .fixedArrayData i).Yields h (.smi raw number) := by
  obtain rfl := Nat.lt_one_iff.mp hlt
  exact ⟨raw, number, hfirst⟩

/-- An array in the slots of its own backing: the fifth slot is the field of its length. -/
def nestedArray (length : ℕ) : Heap where
  layout := listedLayout (flatConstants ++ [
    (.typeJsArray, 160), (.arrayLength, 24), (.objectElements, 16)])
  image := listedImage [
    (⟨0x2000⟩, wordsBytes [0x1101, smiWord 5, smiWord 7, 0x1001, 0, 0x2001] ++
      Word.toBytes 8 (smiWord length) ++ []),
    (⟨0x100c⟩, Word.toBytes 2 160), (⟨0x110c⟩, Word.toBytes 2 134)]

theorem toldApart_nestedArray :
    ToldApart (nestedArray 5) (nestedArray 4) .array ⟨0x2019⟩ firstOptions 5 ⟨0x2001⟩ 5 4 where
  isKind := by decide +kernel
  keeps := .array (by decide +kernel) (by decide +kernel) (by decide +kernel)
  outside := by decide
  agree := by
    have hslot : FixedArray.slotAddresses (nestedArray 5).layout ⟨0x2001⟩ [4] = [⟨0x2030⟩] := by
      decide +kernel
    rw [hslot]
    exact agree_listedImage ⟨0x2000⟩ (wordsBytes [0x1101, smiWord 5, smiWord 7, 0x1001, 0, 0x2001])
      (Word.length_toBytes 8 _) (Word.length_toBytes 8 _) _ _
  inside := fun i _ => by
    have hfirst : (slot ⟨0x2001⟩ .fixedArrayData 0).Yields (nestedArray 5)
        (.smi 0x700000000 7) := by decide +kernel
    exact exists_yields_smi hfirst i
  differ := fun hsame => absurd (congrArg digest hsame) (by decide +kernel)

/-- An array of two slots of four bytes, so that the words in them overlap. -/
def narrowArray (word : ℕ) : Heap where
  layout := listedLayout (flatConstants ++ [(.pointerSizeLog2, 2)])
  image := listedImage [
    (⟨0x2000⟩, wordsBytes [0x1101, smiWord 2] ++ Word.toBytes 4 0 ++ Word.toBytes 8 word ++ []),
    (⟨0x110c⟩, Word.toBytes 2 134)]

theorem toldApart_narrowArray :
    ToldApart (narrowArray 7) (narrowArray 8) .fixedArray ⟨0x2001⟩ firstOptions 2 ⟨0x2001⟩ 2 1 where
  isKind := by decide +kernel
  keeps := .fixedArray (by decide +kernel)
  outside := by decide
  agree := by
    have hslot : FixedArray.slotAddresses (narrowArray 7).layout ⟨0x2001⟩ [1] = [⟨0x2014⟩] := by
      decide +kernel
    rw [hslot]
    exact agree_listedImage ⟨0x2000⟩ (wordsBytes [0x1101, smiWord 2] ++ Word.toBytes 4 0)
      (Word.length_toBytes 8 _) (Word.length_toBytes 8 _) _ _
  inside := fun i _ => by
    have hfirst : (slot ⟨0x2001⟩ .fixedArrayData 0).Yields (narrowArray 7)
        (.smi 0x700000000 7) := by decide +kernel
    exact exists_yields_smi hfirst i
  differ := fun hsame => absurd (congrArg digest hsame) (by decide +kernel)

/-- An array that declares so many slots that the last of them is the first one again. -/
def roundArray (word : ℕ) : Heap where
  layout := listedLayout ((.smiShiftSize, 0) :: flatConstants)
  image := listedImage [
    (⟨0x2000⟩, wordsBytes [0x1101, (2 ^ 61 + 1) <<< 1] ++ Word.toBytes 8 word ++ []),
    (⟨0x110c⟩, Word.toBytes 2 134)]

theorem toldApart_roundArray :
    ToldApart (roundArray 14) (roundArray 16) .fixedArray ⟨0x2001⟩ firstOptions (2 ^ 61 + 1)
      ⟨0x2001⟩ (2 ^ 61 + 1) (2 ^ 61) where
  isKind := by decide +kernel
  keeps := .fixedArray (by decide +kernel)
  outside := by decide
  agree := by
    have hslot : FixedArray.slotAddresses (roundArray 14).layout ⟨0x2001⟩ [2 ^ 61] =
        [⟨0x2010⟩] := by decide +kernel
    rw [hslot]
    exact agree_listedImage ⟨0x2000⟩ (wordsBytes [0x1101, (2 ^ 61 + 1) <<< 1])
      (Word.length_toBytes 8 _) (Word.length_toBytes 8 _) _ _
  inside := fun i _ => by
    have hfirst : (slot ⟨0x2001⟩ .fixedArrayData 0).Yields (roundArray 14) (.smi 14 7) := by
      decide +kernel
    exact exists_yields_smi hfirst i
  differ := fun hsame => absurd (congrArg digest hsame) (by decide +kernel)

/-- **Slots outside a window matter where they overlap what is read.**  The length of an array lies
in such a slot; slots are smaller than words; slots go all around the memory. -/
theorem shapeOf_ne_of_overlap :
    ToldApart (nestedArray 5) (nestedArray 4) .array ⟨0x2019⟩ firstOptions 5 ⟨0x2001⟩ 5 4 ∧
      ToldApart (narrowArray 7) (narrowArray 8) .fixedArray ⟨0x2001⟩ firstOptions 2 ⟨0x2001⟩ 2 1 ∧
      ToldApart (roundArray 14) (roundArray 16) .fixedArray ⟨0x2001⟩ firstOptions (2 ^ 61 + 1)
        ⟨0x2001⟩ (2 ^ 61 + 1) (2 ^ 61) :=
  ⟨toldApart_nestedArray, toldApart_narrowArray, toldApart_roundArray⟩

end Inspection

end Postmortem
