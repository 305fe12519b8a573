/-
Postmortem/Proofs/Tiling.lean

The slots of an instance.

Behind its header an object has its internal fields, and behind these the properties
that lie inside.  Three functions say where: internal fields are counted from the
header on, a property inside is counted back from the end of the instance, and how
many internal fields there are is worked out from both ends.  A map that passes the
check for its properties (`PlainInstance`) leaves as many slots before these as the
instance has room for, so the two ways of counting agree: field `f` inside is in the
slot behind the internal fields and `f` more (`offset_property`), and each byte behind
the header is in exactly one slot (`existsUnique_part`).

A read begins where its slot does.  It is refused only if the memory was not captured
(`storedAt`), or if a field that is not inside is not in the properties array either.

Main result: `exists_tiles`.
-/
import Mathlib.Algebra.Order.Ring.Int
import Mathlib.Tactic.Linarith
import Mathlib.Tactic.Ring
import Postmortem.Proofs.Listing
import Postmortem.Proofs.Paging

namespace Postmortem

open HeapM

variable {h : Heap} {object map : Address} {header size count : ℤ} {internal inside : ℕ}

/-! ### What reads give -/

/-- A field whose number can be read is one that the build tells of. -/
theorem HeapM.has_of_yields_int {c : Constant} {n : ℤ} (hn : (int object c).Yields h n) :
    h.layout.has c = true := by
  obtain ⟨a, ha, -⟩ := yields_bind.mp hn
  obtain ⟨offset, hoffset, -⟩ := yields_bind.mp ha
  rw [Layout.has, yields_constant.mp hoffset]
  rfl

theorem slotBytes_pos (log2 : Option ℤ) : 0 < slotBytes log2 := by
  unfold slotBytes
  split
  · split
    · rw [Nat.one_shiftLeft]
      exact Nat.two_pow_pos _
    · decide
  · decide

theorem Layout.pointerSize_pos (l : Layout) : 0 < (l.pointerSize : ℤ) :=
  Int.natCast_pos.mpr (slotBytes_pos _)

/-! ### Maps -/

/-- A map of ordinary objects, whose instances have `size` bytes and `count` properties inside, and
where the header ends: the check is passed, and behind the header there is room for whole slots. -/
structure PlainInstance (h : Heap) (map : Address) (header size count : ℤ) : Prop where
  isPlain : ∃ type, (Map.instanceType map).Yields h type ∧ h.layout.isPlainObject type = true
  value?_header : h.layout.value? .objectInternalFields = some header
  yields_size : (Map.instanceSize map).Yields h size
  yields_count : (Map.inObjectProperties map).Yields h count
  checked : (Map.checkInObjectRegion map).Yields h ()
  size_pos : 0 < size
  header_le : header ≤ size
  dvd : (h.layout.pointerSize : ℤ) ∣ size - header

namespace PlainInstance

/-- What the check leaves of the counts that a map can tell. -/
theorem count_bounds (hmap : PlainInstance h map header size count) :
    0 ≤ count ∧ count * h.layout.pointerSize ≤ size - header := by
  obtain ⟨slots, hslots, -⟩ := yields_bind.mp hmap.yields_size
  obtain ⟨l, hl, hcount⟩ := yields_bind.mp hmap.yields_count
  cases yields_layout.mp hl
  obtain ⟨number, hnumber, -⟩ := yields_bind.mp hcount
  -- The build tells all that the check needs, so it was made.
  have hall : (h.layout.has h.layout.inObjectConstant && h.layout.has .mapInstanceSize &&
      h.layout.has .objectInternalFields) = true := by
    rw [has_of_yields_int hnumber, has_of_yields_int hslots, Layout.has, hmap.value?_header]
    rfl
  have hchecked := hmap.checked
  unfold Map.checkInObjectRegion at hchecked
  rw [(yields_layout.mpr rfl).bind_iff, if_pos hall,
    (yields_constant.mpr hmap.value?_header).bind_iff, hmap.yields_size.bind_iff,
    hmap.yields_count.bind_iff] at hchecked
  have hfits : ¬ (count < 0 ∨ (0 < count ∧ size - header < count * h.layout.pointerSize)) := by
    intro hrefused
    rw [if_pos hrefused] at hchecked
    exact yields_fail hchecked
  rw [not_or, not_and, not_lt, not_lt] at hfits
  refine ⟨hfits.1, ?_⟩
  rcases hfits.1.eq_or_lt with rfl | hpos
  · rw [zero_mul]
    exact sub_nonneg.mpr hmap.header_le
  · exact hfits.2 hpos

/-- The instance has slots for the properties inside, and some more. -/
theorem exists_slots (hmap : PlainInstance h map header size count) :
    ∃ internal inside : ℕ, count = inside ∧
      size = header + (internal + inside) * h.layout.pointerSize := by
  obtain ⟨hnonneg, hle⟩ := hmap.count_bounds
  obtain ⟨slots, hslots⟩ := hmap.dvd
  have hroom : count ≤ slots := by
    rw [hslots, mul_comm] at hle
    exact le_of_mul_le_mul_left hle h.layout.pointerSize_pos
  obtain ⟨inside, rfl⟩ := Int.eq_ofNat_of_zero_le hnonneg
  obtain ⟨internal, hinternal⟩ := Int.eq_ofNat_of_zero_le (sub_nonneg.mpr hroom)
  refine ⟨internal, inside, rfl, ?_⟩
  rw [← hinternal, sub_add_cancel, mul_comm, ← hslots, add_sub_cancel]

end PlainInstance

/-! ### Slots -/

/-- What a slot behind the header is for. -/
inductive Part (internal inside : ℕ) where
  | internalField (index : Fin internal)
  /-- The field of a property, counted from the first that lies inside. -/
  | property (field : Fin inside)

namespace Part

/-- How many slots come before, behind the header. -/
def slot : Part internal inside → ℕ
  | internalField index => index
  | property field => internal + field

/-- Where in the instance the slot begins. -/
def offset (l : Layout) (header : ℤ) (part : Part internal inside) : ℤ :=
  header + part.slot * l.pointerSize

theorem slot_lt (part : Part internal inside) : part.slot < internal + inside := by
  cases part with
  | internalField index => exact Nat.lt_add_right inside index.isLt
  | property field => exact Nat.add_lt_add_left field.isLt internal

theorem slot_injective : Function.Injective (slot : Part internal inside → ℕ) := by
  rintro (i | f) (i' | f') heq
  · exact congrArg internalField (Fin.ext heq)
  · exact absurd heq (Nat.ne_of_lt (Nat.lt_add_right f' i.isLt))
  · exact absurd heq.symm (Nat.ne_of_lt (Nat.lt_add_right f i'.isLt))
  · exact congrArg property (Fin.ext (Nat.add_left_cancel heq))

theorem exists_slot {n : ℕ} (hn : n < internal + inside) :
    ∃ part : Part internal inside, part.slot = n := by
  by_cases hlt : n < internal
  · exact ⟨.internalField ⟨n, hlt⟩, rfl⟩
  · exact ⟨.property ⟨n - internal, by omega⟩, show internal + (n - internal) = n by omega⟩

/-- A byte is in the slot that its distance from the header tells. -/
theorem mem_slot_iff {l : Layout} {byte : ℤ} {part : Part internal inside} :
    (part.offset l header ≤ byte ∧ byte < part.offset l header + l.pointerSize) ↔
      (byte - header) / l.pointerSize = part.slot := by
  have hbelow : part.offset l header ≤ byte ↔
      (part.slot : ℤ) ≤ (byte - header) / l.pointerSize := by
    rw [Int.le_ediv_iff_mul_le l.pointerSize_pos, offset]
    exact ⟨fun hle => by linarith, fun hle => by linarith⟩
  have habove : byte < part.offset l header + l.pointerSize ↔
      (byte - header) / l.pointerSize < part.slot + 1 := by
    rw [Int.ediv_lt_iff_lt_mul l.pointerSize_pos, offset, add_mul, one_mul]
    exact ⟨fun hlt => by linarith, fun hlt => by linarith⟩
  rw [hbelow, habove, Int.lt_add_one_iff]
  exact ⟨fun ⟨hge, hle⟩ => le_antisymm hle hge, fun heq => ⟨heq.ge, heq.le⟩⟩

/-- **No overlap, no gap**: each byte behind the header is in one slot, and no other byte is. -/
theorem existsUnique_part {l : Layout} {byte : ℤ}
    (hsize : size = header + (internal + inside) * l.pointerSize) :
    (header ≤ byte ∧ byte < size) ↔
      ∃! part : Part internal inside,
        part.offset l header ≤ byte ∧ byte < part.offset l header + l.pointerSize := by
  simp only [mem_slot_iff]
  have hinside : (header ≤ byte ∧ byte < size) ↔
      0 ≤ (byte - header) / l.pointerSize ∧
        (byte - header) / l.pointerSize < internal + inside := by
    rw [Int.ediv_lt_iff_lt_mul l.pointerSize_pos, Int.le_ediv_iff_mul_le l.pointerSize_pos, hsize]
    exact ⟨fun ⟨hge, hlt⟩ => ⟨by linarith, by linarith⟩,
      fun ⟨hge, hlt⟩ => ⟨by linarith, by linarith⟩⟩
  rw [hinside]
  constructor
  · rintro ⟨hnonneg, hlt⟩
    obtain ⟨n, hn⟩ := Int.eq_ofNat_of_zero_le hnonneg
    obtain ⟨part, hpart⟩ : ∃ part : Part internal inside, part.slot = n := exists_slot (by omega)
    refine ⟨part, ?_, ?_⟩
    · show (byte - header) / l.pointerSize = part.slot
      rw [hn, hpart]
    · intro part' hpart'
      refine slot_injective ?_
      show part'.slot = part.slot
      omega
  · rintro ⟨part, hpart, -⟩
    have hlt := part.slot_lt
    omega

end Part

namespace JsObject

/-! ### Fields inside -/

/-- What a property with the given key is read as whose value is at `place`. -/
def storedAt (h : Heap) (key : Value) (isDouble : Bool) (place : Address) :
    Except Failure (Value × PropertySlot) :=
  match h.image.word? place with
  | some w => .ok (key, if isDouble then .double ⟨w⟩ else .value (.classify h.layout w))
  | none => .error (.unreadable place 8)

/-- Descriptor `index` tells of a field; `field` is its number, counted from the first inside. -/
def TellsField (h : Heap) (descriptors : Address) (index : ℕ) (key : Value) (field : ℤ)
    (isDouble : Bool) : Prop :=
  ∃ details, (DescriptorArray.entry descriptors index 0).Yields h
    ⟨key, details, .field field isDouble⟩

variable {descriptors : Address} {index : ℕ} {key : Value} {field : ℤ} {isDouble : Bool}
  {outside : Option Address}

/-- Where the number of a field goes if there are `count` properties inside. -/
theorem TellsField.entry (htells : TellsField h descriptors index key field isDouble) (count : ℤ) :
    ∃ details, (DescriptorArray.entry descriptors index count).Yields h
      ⟨key, details, .field (field - count) isDouble⟩ := by
  obtain ⟨details, hentry⟩ := htells
  refine ⟨details, ?_⟩
  obtain ⟨details', hdetails, hentry⟩ := yields_bind.mp hentry
  obtain ⟨key', hkey, hentry⟩ := yields_bind.mp hentry
  obtain ⟨storage, hstorage, hentry⟩ := yields_bind.mp hentry
  cases yields_pure.mp hentry
  refine hdetails.bind (hkey.bind (Yields.bind (a := .field (field - count) isDouble) ?_
    (yields_pure.mpr rfl)))
  -- The count is subtracted only where the details tell of a field, so the reads are the same.
  obtain ⟨⟨isField, isDescriptor⟩, hkinds, hstorage⟩ := yields_bind.mp hstorage
  refine hkinds.bind ?_
  dsimp only at hstorage ⊢
  split at hstorage
  case isTrue => cases yields_pure.mp hstorage
  case isFalse hnot =>
    rw [if_neg hnot]
    split at hstorage
    case isFalse => cases yields_pure.mp hstorage
    case isTrue hfield =>
      rw [if_pos hfield]
      obtain ⟨number, hnumber, hstorage⟩ := yields_bind.mp hstorage
      obtain ⟨representation, hrepresentation, hstorage⟩ := yields_bind.mp hstorage
      obtain ⟨l, hl, hstorage⟩ := yields_bind.mp hstorage
      cases yields_layout.mp hl
      cases yields_pure.mp hstorage
      refine hnumber.bind (hrepresentation.bind ((yields_layout.mpr rfl).bind ?_))
      rw [sub_zero]
      exact yields_pure.mpr rfl

/-- A property whose place is found is what is stored there. -/
theorem result_describedProperty {place : Address}
    (htells : TellsField h descriptors index key field isDouble)
    (hplace : (fieldPlace object (field - count) size outside).Yields h place) :
    (describedProperty object descriptors count size outside index h).result =
      storedAt h key isDouble place := by
  obtain ⟨details, hentry⟩ := htells.entry count
  rw [describedProperty, hentry.result_bind]
  dsimp only
  rw [hplace.result_bind]
  unfold storedAt
  rcases hword : h.image.word? place with - | w
  -- A double is read in another way than a tagged value, and fails in the same way.
  · have hfails : (word place h).result = .error (.unreadable place 8) := by
      rw [word, unsigned, show h.image.unsigned? place 8 = none from hword]
      rfl
    cases isDouble
    · show ((valueAt place >>= _) h).result = _
      rw [bind_error (e := .unreadable place 8)]
      · rfl
      · rw [valueAt, bind_error hfails]
        rfl
    · show ((doubleAt place >>= _) h).result = _
      rw [bind_error (e := .unreadable place 8)]
      · rfl
      · rw [doubleAt, bind_error hfails]
        rfl
  · have hreads : (word place).Yields h w := yields_word.mpr hword
    cases isDouble
    · have hvalue : (valueAt place).Yields h (.classify h.layout w) :=
        hreads.bind ((yields_layout.mpr rfl).bind (yields_pure.mpr rfl))
      exact hvalue.result_bind
    · have hdouble : (doubleAt place).Yields h ⟨w⟩ := hreads.bind (yields_pure.mpr rfl)
      exact hdouble.result_bind

/-- A property whose place is not found is refused for the same reason. -/
theorem result_describedProperty_error {e : Failure}
    (htells : TellsField h descriptors index key field isDouble)
    (hplace : (fieldPlace object (field - count) size outside h).result = .error e) :
    (describedProperty object descriptors count size outside index h).result = .error e := by
  obtain ⟨details, hentry⟩ := htells.entry count
  rw [describedProperty, hentry.result_bind]
  dsimp only
  rw [bind_error hplace]
  rfl

theorem storedAt_ne_shape (h : Heap) (key : Value) (isDouble : Bool) (place : Address)
    (fault : ShapeFault) : storedAt h key isDouble place ≠ .error (.shape fault) := by
  unfold storedAt
  split <;> exact nofun

/-- Counting back from the end comes to the slot that counting from the header comes to. -/
theorem offset_property (f : Fin inside) {l : Layout}
    (hsize : size = header + (internal + inside) * l.pointerSize) :
    size + ((f : ℤ) - inside) * l.pointerSize =
      (Part.property f : Part internal inside).offset l header := by
  rw [hsize, Part.offset, Part.slot]
  push_cast
  ring

theorem yields_fieldPlace_inside (f : Fin inside)
    (hmap : PlainInstance h map header size inside)
    (hsize : size = header + (internal + inside) * h.layout.pointerSize) :
    (fieldPlace object ((f : ℤ) - inside) size outside).Yields h
      (object.field ((Part.property f : Part internal inside).offset h.layout header)
        h.layout) := by
  have hpos := h.layout.pointerSize_pos
  have hf : (f : ℤ) < inside := Int.ofNat_lt.mpr f.isLt
  have hoffset := offset_property f hsize
  have hge : header ≤ (Part.property f : Part internal inside).offset h.layout header :=
    le_add_of_nonneg_right (mul_nonneg (Int.natCast_nonneg _) hpos.le)
  have hlt : (Part.property f : Part internal inside).offset h.layout header < size := by
    rw [← hoffset]
    exact add_lt_of_neg_right size (mul_neg_of_neg_of_pos (sub_neg.mpr hf) hpos)
  unfold fieldPlace
  rw [yields_pointerSize.bind_iff]
  dsimp only
  rw [if_pos (sub_neg.mpr hf), (yields_constant.mpr hmap.value?_header).bind_iff, hoffset,
    if_neg (by rw [not_or, not_lt, not_le]; exact ⟨hge, hlt⟩)]
  exact yields_fieldAddress object _

/-! ### Fields outside -/

section

variable {array : Address} {length : ℕ} {data : ℤ}
  (hlength : (FixedArray.length array).Yields h length)
include hlength

theorem yields_fieldPlace_outside (hdata : h.layout.value? .fixedArrayData = some data)
    (hnonneg : 0 ≤ field) (hlt : field < length) :
    (fieldPlace object field size (some array)).Yields h
      (array.field (data + field * h.layout.pointerSize) h.layout) := by
  unfold fieldPlace
  rw [yields_pointerSize.bind_iff]
  dsimp only
  rw [if_neg (not_lt.mpr hnonneg), hlength.bind_iff, if_pos hlt,
    (yields_constant.mpr hdata).bind_iff]
  exact yields_fieldAddress array _

theorem result_fieldPlace_refused (hle : length ≤ field) :
    (fieldPlace object field size (some array) h).result =
      .error (.shape (.outsideProperties field length)) := by
  unfold fieldPlace
  rw [yields_pointerSize.result_bind]
  dsimp only
  rw [if_neg (not_lt.mpr ((Int.natCast_nonneg length).trans hle)), hlength.result_bind,
    if_neg (not_lt.mpr hle)]
  rfl

/-- Of a build that does not tell where arrays have their slots no slot is read. -/
theorem result_fieldPlace_missing (hdata : h.layout.value? .fixedArrayData = none)
    (hnonneg : 0 ≤ field) (hlt : field < length) :
    (fieldPlace object field size (some array) h).result = .error (.missing .fixedArrayData) := by
  have hconstant : (constant .fixedArrayData h).result = .error (.missing .fixedArrayData) := by
    rw [constant, (yields_layout.mpr rfl).result_bind, hdata]
    rfl
  unfold fieldPlace
  rw [yields_pointerSize.result_bind]
  dsimp only
  rw [if_neg (not_lt.mpr hnonneg), hlength.result_bind, if_pos hlt, bind_error hconstant]
  rfl

/-- The bounds of the properties array are the reason exactly where they are passed. -/
theorem refused_iff (htells : TellsField h descriptors index key field isDouble)
    (hcount : count ≤ field) :
    (describedProperty object descriptors count size (some array) index h).result =
      .error (.shape (.outsideProperties (field - count) length)) ↔ length ≤ field - count := by
  constructor
  · intro hrefused
    by_contra hlt
    rw [not_le] at hlt
    have hnonneg : 0 ≤ field - count := sub_nonneg.mpr hcount
    cases hdata : h.layout.value? .fixedArrayData with
    | none =>
      rw [result_describedProperty_error htells
        (result_fieldPlace_missing hlength hdata hnonneg hlt)] at hrefused
      cases hrefused
    | some data =>
      rw [result_describedProperty htells
        (yields_fieldPlace_outside hlength hdata hnonneg hlt)] at hrefused
      exact storedAt_ne_shape h key isDouble _ _ hrefused
  · intro hle
    exact result_describedProperty_error htells (result_fieldPlace_refused hlength hle)

end

/-! ### The whole instance -/

theorem yields_internalFieldsLength (hof : (Map.of object).Yields h map)
    (hmap : PlainInstance h map header size inside)
    (hsize : size = header + (internal + inside) * h.layout.pointerSize) :
    (internalFieldsLength object).Yields h internal := by
  obtain ⟨type, htype, hplain⟩ := hmap.isPlain
  unfold internalFieldsLength
  rw [hof.bind_iff, htype.bind_iff, (yields_layout.mpr rfl).bind_iff, if_pos hplain,
    hmap.yields_size.bind_iff, if_neg hmap.size_pos.ne']
  rw [yields_pointerSize.bind_iff, hmap.yields_count.bind_iff,
    (yields_constant.mpr hmap.value?_header).bind_iff, yields_pure]
  have hleft : size - inside * h.layout.pointerSize - header = internal * h.layout.pointerSize := by
    rw [hsize]
    ring
  rw [hleft, Int.mul_tdiv_cancel _ h.layout.pointerSize_pos.ne']
  exact Int.toNat_natCast internal

/-- Where the values of an object are read from: internal fields and the properties inside from
slots of the instance that do not overlap, the other properties from the properties array. -/
structure Tiles (h : Heap) (object : Address) (header size : ℤ) (internal inside : ℕ) : Prop where
  length : (internalFieldsLength object).Yields h internal
  slots : (internal + inside : ℤ) = (size - header) / h.layout.pointerSize
  internalField : ∀ w words, (internalFields object w).Yields h words ↔
    List.Forall₂ (fun (i : ℕ) (found : Address) =>
      h.image.word? (object.field (header + i * h.layout.pointerSize) h.layout) = some found.word)
      (List.range' w.start w.length) words
  /-- A property inside is read from its slot, and refused only if the slot was not captured. -/
  fieldInside : ∀ {descriptors outside index key isDouble} {f : ℤ},
    TellsField h descriptors index key f isDouble → 0 ≤ f → f < inside →
    (describedProperty object descriptors inside size outside index h).result =
      storedAt h key isDouble
        (object.field (header + (internal + f) * h.layout.pointerSize) h.layout)
  fieldOutside : ∀ {descriptors array index key isDouble} {length : ℕ} {f data : ℤ},
    TellsField h descriptors index key f isDouble → inside ≤ f →
    (FixedArray.length array).Yields h length → h.layout.value? .fixedArrayData = some data →
    f - inside < length →
    (describedProperty object descriptors inside size (some array) index h).result =
      storedAt h key isDouble
        (array.field (data + (f - inside) * h.layout.pointerSize) h.layout)
  refused_iff : ∀ {descriptors array index key isDouble} {length : ℕ} {f : ℤ},
    TellsField h descriptors index key f isDouble → inside ≤ f →
    (FixedArray.length array).Yields h length →
    ((describedProperty object descriptors inside size (some array) index h).result =
      .error (.shape (.outsideProperties (f - inside) length)) ↔ length ≤ f - inside)
  tiled : ∀ byte, (header ≤ byte ∧ byte < size) ↔ ∃! part : Part internal inside,
    part.offset h.layout header ≤ byte ∧
      byte < part.offset h.layout header + h.layout.pointerSize

theorem yields_internalFields_iff (hheader : h.layout.value? .objectInternalFields = some header)
    (w : Window) (words : List Address) :
    (internalFields object w).Yields h words ↔
      List.Forall₂ (fun (i : ℕ) (found : Address) =>
        h.image.word? (object.field (header + i * h.layout.pointerSize) h.layout) =
          some found.word) (List.range' w.start w.length) words := by
  rw [internalFields, yields_forRange]
  refine iff_of_eq (congrArg (List.Forall₂ · (List.range' w.start w.length) words)
    (funext fun i => funext fun found => ?_))
  rw [(yields_constant.mpr hheader).bind_iff, yields_pointerSize.bind_iff,
    (yields_fieldAddress object _).bind_iff, ← yields_word, eq_iff_iff, yields_bind]
  constructor
  · rintro ⟨w, hw, hfound⟩
    cases yields_pure.mp hfound
    exact hw
  · intro hw
    exact ⟨found.word, hw, yields_pure.mpr rfl⟩

/-- **An instance is tiled** by its internal fields and the properties inside, if its map passes the
check: what reads either from one end or the other reads it from the same slots. -/
theorem exists_tiles (hof : (Map.of object).Yields h map)
    (hmap : PlainInstance h map header size count) :
    ∃ internal inside : ℕ, count = inside ∧ Tiles h object header size internal inside := by
  obtain ⟨internal, inside, rfl, hsize⟩ := hmap.exists_slots
  refine ⟨internal, inside, rfl, ?_⟩
  constructor
  case length => exact yields_internalFieldsLength hof hmap hsize
  case slots =>
    rw [hsize, add_sub_cancel_left, Int.mul_ediv_cancel _ h.layout.pointerSize_pos.ne']
  case internalField => exact yields_internalFields_iff hmap.value?_header
  case fieldInside =>
    intro descriptors outside index key isDouble f htells hnonneg hlt
    obtain ⟨f, rfl⟩ := Int.eq_ofNat_of_zero_le hnonneg
    have hf : f < inside := Int.ofNat_lt.mp hlt
    exact result_describedProperty htells (yields_fieldPlace_inside ⟨f, hf⟩ hmap hsize)
  case fieldOutside =>
    intro descriptors array index key isDouble length f data htells hle hlength hdata hlt
    exact result_describedProperty htells
      (yields_fieldPlace_outside hlength hdata (sub_nonneg.mpr hle) hlt)
  case refused_iff =>
    intro descriptors array index key isDouble length f htells hle hlength
    exact refused_iff hlength htells hle
  case tiled => exact fun byte => Part.existsUnique_part hsize

open Synthetic

/-- An object of seven slots, three of them its header, of a build that tells the slot of the first
property inside; it is the sixth. -/
def tiledHeap : Heap where
  layout := listedLayout (flatConstants ++ [
    (.typeJsObject, 160), (.objectInternalFields, 24), (.mapInstanceSize, 8),
    (.mapInObjectStart, 9)])
  image := listedImage [
    (⟨0x1208⟩, [7, 5, 0, 0] ++ Word.toBytes 4 160),
    (⟨0x6000⟩, wordsBytes [0x1201, 0x4001, 0x2001, 0xbeef, 0xcafe, smiWord 1, smiWord 2])]

theorem plainInstance_tiledHeap : PlainInstance tiledHeap ⟨0x1201⟩ 24 56 2 where
  isPlain := ⟨160, by decide +kernel, by decide +kernel⟩
  value?_header := by decide +kernel
  yields_size := by decide +kernel
  yields_count := by decide +kernel
  checked := by decide +kernel
  size_pos := by decide
  header_le := by decide
  dvd := by decide +kernel

theorem exists_tiles_pair :
    (Map.of ⟨0x6001⟩).Yields tiledHeap ⟨0x1201⟩ ∧
      PlainInstance tiledHeap ⟨0x1201⟩ 24 56 2 ∧ Tiles tiledHeap ⟨0x6001⟩ 24 56 2 2 := by
  have hof : (Map.of ⟨0x6001⟩).Yields tiledHeap ⟨0x1201⟩ := by decide +kernel
  obtain ⟨internal, inside, hinside, htiles⟩ := exists_tiles hof plainInstance_tiledHeap
  have hlength : (internalFieldsLength ⟨0x6001⟩).Yields tiledHeap 2 := by decide +kernel
  cases htiles.length.unique hlength
  obtain rfl : inside = 2 := by omega
  exact ⟨hof, plainInstance_tiledHeap, htiles⟩

end JsObject

end Postmortem
