/-
Postmortem/Proofs/Decoding.lean

Reading the parts of an object that was built by hand.

Arrays, maps, strings and descriptors are read from the bytes that stand in their
blocks.  None of this asks how these got there.

A map packs the number of its descriptors into one word and the details of a
descriptor pack the number of a field into another, so what is read is what was
written only as long as the numbers are small; a map has room for no more than 252
properties inside anyway, as its instances are measured in slots by one byte.
-/
import Postmortem.Proofs.BuiltObjects
import Postmortem.Proofs.Collections
import Postmortem.Proofs.Rope
import Postmortem.Proofs.StandardBuild
import Postmortem.Proofs.Utf16Codec

namespace Postmortem.Synthetic.Builder

open HeapM JsString

variable {b : Builder} {start : ℕ}

/-! ### Arrays -/

section

variable {slots : List UInt64} (harray : b.HasArray start slots)
  (hpoisoned : b.memory.poisoned = []) (hfew : slots.length < 2 ^ 31)
include harray hpoisoned hfew

theorem HasArray.yields_length :
    (FixedArray.length (objectAt start)).Yields b.heap slots.length := by
  have hlength := harray.length.smallInt (c := .fixedArrayLength)
    (value?_standardLayout rfl rfl (by cbv)) (storage_standardLayout rfl rfl (by cbv))
    hpoisoned hfew
  exact hlength.bind (yields_pure.mpr (Int.toNat_natCast _))

theorem HasArray.yields_get {i : ℕ} {w : UInt64} (hw : slots[i]? = some w) :
    (FixedArray.get (objectAt start) i).Yields b.heap (.classify standardLayout w) := by
  have hdata : (constant .fixedArrayData).Yields b.heap ((16 : ℕ) : ℤ) :=
    yields_constant.mpr value?_fixedArrayData
  have hsize : pointerSize.Yields b.heap 8 := by
    rw [← pointerSize_standardLayout]
    exact yields_pointerSize
  have hplace : (fieldAddress (objectAt start) (((16 : ℕ) : ℤ) + (i : ℤ) * ((8 : ℕ) : ℤ))).Yields
      b.heap ⟨UInt64.ofNat (start + 16 + 8 * i)⟩ := by
    have hfield := yields_fieldAddress (h := b.heap) (objectAt start) ((16 + 8 * i : ℕ) : ℤ)
    rw [layout_heap, field_objectAt, ← Nat.add_assoc] at hfield
    rwa [show ((16 : ℕ) : ℤ) + (i : ℤ) * ((8 : ℕ) : ℤ) = ((16 + 8 * i : ℕ) : ℤ) by push_cast; ring]
  refine (harray.yields_length hpoisoned hfew).bind ?_
  rw [if_pos (List.getElem?_eq_some_iff.mp hw).1]
  exact hdata.bind (hsize.bind (hplace.bind ((harray.slots i w hw).valueAt hpoisoned)))

end

/-! ### Maps -/

theorem Has.yields_mapOf {map : Address} (hhas : b.Has start (Word.toBytes 8 map.word.toNat))
    (hpoisoned : b.memory.poisoned = []) : (Map.of (objectAt start)).Yields b.heap map := by
  have hhas' : b.Has (start + 0) (Word.toBytes 8 map.word.toNat) := hhas
  have hword : (HeapM.fieldWord (objectAt start) .heapObjectMap).Yields b.heap map.word :=
    hhas'.fieldWord (value?_standardLayout rfl rfl (by cbv)) hpoisoned
  exact hword.bind (yields_pure.mpr rfl)

theorem Has.yields_instanceType {type : ℕ} (hhas : b.Has (start + 12) (numberBytes 2 type))
    (hpoisoned : b.memory.poisoned = []) (htype : type < 2 ^ 16) :
    (Map.instanceType (objectAt start)).Yields b.heap type := by
  have hread : (int (objectAt start) .mapInstanceType).Yields b.heap type :=
    hhas.uint16 (value?_standardLayout rfl rfl (by cbv))
      (storage_standardLayout rfl rfl (by cbv)) hpoisoned htype
  unfold Map.instanceType
  rw [(yields_layout.mpr (layout_heap b)).bind_iff,
    if_pos (has_standardLayout rfl rfl (by cbv))]
  exact hread

section

variable {parts : Parts} {n : ℕ} (hmap : b.HasMap start (parts.mapContents n))
  (hpoisoned : b.memory.poisoned = []) (hcount : n ≤ 252)
include hmap hpoisoned hcount

theorem HasMap.yields_instanceSlots :
    (Map.instanceSlots (objectAt start)).Yields b.heap ((3 + n : ℕ) : ℤ) := by
  have hsize : b.Has (start + 8) [UInt8.ofNat (3 + n)] :=
    hmap.size.slice (i := 0) (n := 1) (by simp)
  exact hsize.uint8 (value?_standardLayout rfl rfl (by cbv))
    (storage_standardLayout rfl rfl (by cbv)) hpoisoned (by omega)

theorem HasMap.yields_instanceSize :
    (Map.instanceSize (objectAt start)).Yields b.heap ((24 : ℤ) + ((0 : ℕ) + (n : ℕ)) * 8) := by
  have hpointer : pointerSize.Yields b.heap 8 := by
    rw [← pointerSize_standardLayout]
    exact yields_pointerSize
  refine (hmap.yields_instanceSlots hpoisoned hcount).bind (hpointer.bind (yields_pure.mpr ?_))
  push_cast
  ring

theorem HasMap.yields_inObjectProperties :
    (Map.inObjectProperties (objectAt start)).Yields b.heap n := by
  -- The byte behind the number of slots tells the slot of the first property, which is the fourth.
  have hstart : b.Has (start + 9) [UInt8.ofNat (3 + n - min n (3 + n))] :=
    hmap.size.slice (i := 1) (n := 1) (by simp)
  have hthree : 3 + n - min n (3 + n) = 3 := by omega
  rw [hthree] at hstart
  have hnumber : (int (objectAt start) .mapInObjectStart).Yields b.heap ((3 : ℕ) : ℤ) :=
    hstart.uint8 (value?_standardLayout rfl rfl (by cbv))
      (storage_standardLayout rfl rfl (by cbv)) hpoisoned (by decide)
  have hconstant : standardLayout.inObjectConstant = .mapInObjectStart := by
    rw [Layout.inObjectConstant, if_pos (has_standardLayout rfl rfl (by cbv))]
  unfold Map.inObjectProperties
  rw [(yields_layout.mpr (layout_heap b)).bind_iff, hconstant, hnumber.bind_iff, if_pos rfl]
  refine (hmap.yields_instanceSlots hpoisoned hcount).bind (yields_pure.mpr ?_)
  push_cast
  ring

theorem HasMap.yields_checkInObjectRegion :
    (Map.checkInObjectRegion (objectAt start)).Yields b.heap () := by
  have hheader : (constant .objectInternalFields).Yields b.heap 24 :=
    yields_constant.mpr value?_objectInternalFields
  unfold Map.checkInObjectRegion
  rw [(yields_layout.mpr (layout_heap b)).bind_iff]
  split
  case isFalse => exact yields_pure.mpr rfl
  case isTrue =>
    rw [hheader.bind_iff, (hmap.yields_instanceSize hpoisoned hcount).bind_iff,
      (hmap.yields_inObjectProperties hpoisoned hcount).bind_iff, if_neg]
    · exact yields_pure.mpr rfl
    · rw [pointerSize_standardLayout]
      push_cast
      omega

theorem HasMap.yields_bitField3 :
    (Map.bitField3 (objectAt start)).Yields b.heap ((n * 1024 : ℕ) : ℤ) :=
  hmap.bitField3.int32 (n := n * 1024) (value?_standardLayout rfl rfl (by cbv))
    (storage_standardLayout rfl rfl (by cbv)) hpoisoned (by omega)

theorem HasMap.yields_ownDescriptors :
    (Map.ownDescriptors (objectAt start)).Yields b.heap n := by
  have hmask : (constant .mapOwnDescriptorsMask).Yields b.heap 1047552 :=
    yields_constant.mpr (value?_standardLayout rfl rfl (by cbv))
  have hshift : (constant .mapOwnDescriptorsShift).Yields b.heap 10 :=
    yields_constant.mpr (value?_standardLayout rfl rfl (by cbv))
  -- The mask leaves ten bits, which is more than the counts that there are.
  have hbits : ∀ n < 253,
      (Word.shiftRight (Word.maskBits (n * 1024 : ℕ) 1047552) 10).toNat = n := by decide +kernel
  exact hmask.bind (hshift.bind ((hmap.yields_bitField3 hpoisoned hcount).bind
    (yields_pure.mpr (hbits n (by omega)))))

theorem HasMap.yields_isDictionary :
    (Map.isDictionary (objectAt start)).Yields b.heap false := by
  have hshift : (constant .mapDictionaryMapShift).Yields b.heap 21 :=
    yields_constant.mpr (value?_standardLayout rfl rfl (by cbv))
  have hbit : ∀ n < 253, (Word.shiftRight (n * 1024 : ℕ) 21 % 2 == 1) = false := by decide +kernel
  exact hshift.bind ((hmap.yields_bitField3 hpoisoned hcount).bind
    (yields_pure.mpr (hbit n (by omega))))

omit hmap hpoisoned hcount in
/-- The instance has no slot but those of the properties. -/
theorem size_eq (b : Builder) (n : ℕ) : ((24 : ℤ) + ((0 : ℕ) + (n : ℕ)) * 8) =
    24 + ((0 : ℕ) + (n : ℕ)) * b.heap.layout.pointerSize := by
  rw [layout_heap, pointerSize_standardLayout]
  rfl

/-- The map passes the check, and says that nothing but properties is in the object. -/
theorem HasMap.plainInstance :
    PlainInstance b.heap (objectAt start) 24 ((24 : ℤ) + ((0 : ℕ) + (n : ℕ)) * 8) n where
  isPlain := by
    have htype : standardLayout.value? .typeJsObject = some 1043 :=
      value?_standardLayout rfl rfl (by cbv)
    have hread : (Map.instanceType (objectAt start)).Yields b.heap ((1043 : ℕ) : ℤ) :=
      hmap.type.yields_instanceType hpoisoned (by decide)
    refine ⟨_, hread, ?_⟩
    rw [layout_heap, Layout.isPlainObject, Layout.agrees, htype]
    rfl
  value?_header := value?_objectInternalFields
  yields_size := hmap.yields_instanceSize hpoisoned hcount
  yields_count := hmap.yields_inObjectProperties hpoisoned hcount
  checked := hmap.yields_checkInObjectRegion hpoisoned hcount
  size_pos := by omega
  header_le := by omega
  dvd := by
    rw [layout_heap, pointerSize_standardLayout]
    exact ⟨n, by push_cast; ring⟩

end

/-! ### Strings -/

theorem tagsDistinct_standardLayout : TagsDistinct standardLayout := by
  have hsequential : standardLayout.value? .stringSeqTag = some 0 :=
    value?_standardLayout rfl rfl (by cbv)
  have hcons : standardLayout.value? .stringConsTag = some 1 :=
    value?_standardLayout rfl rfl (by cbv)
  have hsliced : standardLayout.value? .stringSlicedTag = some 3 :=
    value?_standardLayout rfl rfl (by cbv)
  have hexternal : standardLayout.value? .stringExternalTag = some 2 :=
    value?_standardLayout rfl rfl (by cbv)
  have hthin : standardLayout.value? .stringThinTag = some 5 :=
    value?_standardLayout rfl rfl (by cbv)
  intro r s tag hr hs
  -- Two representations are the same, or their tags are two of the five numbers.
  cases r <;> cases s <;> first
    | rfl
    | simp only [Representation.tag, hsequential, hcons, hsliced, hexternal, hthin,
        Option.some.injEq] at hr hs
      omega

/-- One-byte units, each in two bytes. -/
def wideUnits (units : List UInt8) : List UInt16 := units.map fun u => UInt16.ofNat u.toNat

theorem toNat_wideUnit (u : UInt8) : (UInt16.ofNat u.toNat).toNat = u.toNat := by
  have hlt := u.toNat_lt
  rw [UInt16.toNat_ofNat']
  omega

theorem rowBytes_wideUnits (units : List UInt8) : rowBytes true (wideUnits units) = units := by
  show (wideUnits units).map (fun u => UInt8.ofNat u.toNat) = units
  rw [wideUnits, List.map_map]
  refine (List.map_congr_left fun u _ => ?_).trans (List.map_id units)
  show UInt8.ofNat (UInt16.ofNat u.toNat).toNat = u
  rw [toNat_wideUnit, UInt8.ofNat_toNat]

/-- Units below 256 are characters by themselves. -/
theorem decodeUnits_of_lt {units : List UInt16} (hunits : ∀ u ∈ units, u.toNat < 256) :
    Utf16.decodeUnits units = units.map fun u => Char.ofNat u.toNat := by
  induction units with
  | nil => rfl
  | cons u units ih =>
    obtain ⟨hu, hunits⟩ := List.forall_mem_cons.mp hunits
    have hplain : Utf16.isSurrogate u = false := by
      rw [← Bool.not_eq_true, Utf16.isSurrogate_iff]
      omega
    rw [Utf16.decodeUnits_plain hplain, ih hunits, List.map_cons]

theorem withoutMark_of_lt {units : List UInt16} (hunits : ∀ u ∈ units, u.toNat < 256) :
    Utf16.withoutMark units = units := by
  cases units with
  | nil => rfl
  | cons u units =>
    have hu := hunits u (List.mem_cons_self ..)
    have hmark : u ≠ Utf16.byteOrderMark := by
      rintro rfl
      exact absurd hu (by decide)
    rw [Utf16.withoutMark, if_neg hmark]

theorem toNat_lt_of_mem_wideUnits {units : List UInt8} : ∀ u ∈ wideUnits units, u.toNat < 256 := by
  intro u hu
  obtain ⟨u, -, rfl⟩ := List.mem_map.mp hu
  rw [toNat_wideUnit]
  exact u.toNat_lt

theorem decode_latin1Units {text : String} (htext : ∀ c ∈ text.toList, c.toNat < 256) :
    Utf16.decode (wideUnits (latin1Units text)) = text := by
  rw [Utf16.decode, Utf16.decodeWith, withoutMark_of_lt toNat_lt_of_mem_wideUnits, Utf16.replaced,
    decodeUnits_of_lt toNat_lt_of_mem_wideUnits, wideUnits, latin1Units, List.map_map, List.map_map]
  refine (congrArg String.ofList ?_).trans String.ofList_toList
  refine (List.map_congr_left fun c hc => ?_).trans (List.map_id text.toList)
  show Char.ofNat (UInt16.ofNat (UInt8.ofNat c.toNat).toNat).toNat = c
  rw [toNat_wideUnit, UInt8.toNat_ofNat_of_lt' (htext c hc), Char.ofNat_toNat]

theorem IsStringMap.yields_typeId {map : Address} (hmap : IsStringMap ∅ b map)
    (hhas : b.Has start (Word.toBytes 8 map.word.toNat)) (hpoisoned : b.memory.poisoned = []) :
    (typeId (objectAt start)).Yields b.heap 8 := by
  obtain ⟨place, rfl, htype, -⟩ := hmap
  have hread : (Map.instanceType (objectAt place)).Yields b.heap ((8 : ℕ) : ℤ) :=
    htype.yields_instanceType hpoisoned (by decide)
  exact (hhas.yields_mapOf hpoisoned).bind hread

theorem HasString.stored {map : Address} {units : List UInt8}
    (hstring : b.HasString start map units) (hmap : IsStringMap ∅ b map)
    (hpoisoned : b.memory.poisoned = []) (hshort : units.length < 2 ^ 31) :
    Rope.Stored b.heap (.flat (objectAt start) ⟨UInt64.ofNat (start + 16)⟩ true
      (wideUnits units)) := by
  have hmask : (constant .stringEncodingMask).Yields b.heap 8 :=
    yields_constant.mpr (value?_standardLayout rfl rfl (by cbv))
  have htag : (constant .stringOneByteTag).Yields b.heap 8 :=
    yields_constant.mpr (value?_standardLayout rfl rfl (by cbv))
  have hlength : (int (objectAt start) .stringLength).Yields b.heap (wideUnits units).length := by
    rw [wideUnits, List.length_map]
    exact hstring.length.int32 (value?_standardLayout rfl rfl (by cbv))
      (storage_standardLayout rfl rfl (by cbv)) hpoisoned hshort
  refine .flat ⟨hmap.yields_typeId hstring.map hpoisoned, ⟨7, ?_, ?_⟩, hlength⟩
    (hmask.bind (htag.bind (yields_pure.mpr (by decide)))) (fun _ u hu => ?_)
    (yields_fieldAt (value?_standardLayout rfl rfl (by cbv)))
  · exact value?_standardLayout rfl rfl (by cbv)
  · have hzero : Word.maskBits 8 7 = 0 := by decide
    rw [hzero]
    exact value?_standardLayout rfl rfl (by cbv)
  · exact toNat_lt_of_mem_wideUnits u hu

section

variable {map : Address} {units : List UInt8} (hstring : b.HasString start map units)
  (hmap : IsStringMap ∅ b map) (hpoisoned : b.memory.poisoned = [])
include hstring hmap hpoisoned

theorem HasString.yields_isString : (isString (.heap (objectAt start))).Yields b.heap true := by
  have hfirst : standardLayout.value? .typeFirstNonstring = some 128 :=
    value?_standardLayout rfl rfl (by cbv)
  have hstringType : standardLayout.isString 8 = true := by
    rw [Layout.isString, hfirst]
    rfl
  exact (hmap.yields_typeId hstring.map hpoisoned).bind ((yields_layout.mpr (layout_heap b)).bind
    (yields_pure.mpr hstringType))

/-- The text of a string that is not too long. -/
theorem HasString.yields_text (hshort : units.length ≤ maxStringUnits) :
    (JsString.text (objectAt start)).Yields b.heap (Utf16.decode (wideUnits units)) := by
  have hlength : (wideUnits units).length = units.length := List.length_map ..
  have htags : TagsDistinct b.heap.layout := by
    rw [layout_heap]
    exact tagsDistinct_standardLayout
  have hcap : maxStringUnits < 2 ^ 31 := by decide
  -- The units are one piece, fetched as it was written.
  have hread : (Rope.flat (objectAt start) ⟨UInt64.ofNat (start + 16)⟩ true
      (wideUnits units)).Readable b.heap 0 (wideUnits units).length := by
    intro _
    rw [Nat.mul_zero, Int.natCast_zero, Address.offset_zero, Nat.sub_zero, List.drop_zero,
      List.take_length, rowBytes_wideUnits, unitBytes, if_pos rfl, Nat.one_mul, hlength]
    exact hstring.units.fetch hpoisoned
  have hstored := hstring.stored hmap hpoisoned (by omega)
  have hunits : (codeUnits (objectAt start)).Yields b.heap (wideUnits units) :=
    hstored.yields_units htags (by show (wideUnits _).length ≤ _; omega) hread
  exact hunits.bind (yields_pure.mpr rfl)

end

/-- The text of a key that has no other characters than those of one-byte strings. -/
theorem HasString.yields_keyText {map : Address} {text : String}
    (hstring : b.HasString start map (latin1Units text)) (hmap : IsStringMap ∅ b map)
    (hpoisoned : b.memory.poisoned = []) (htext : ∀ c ∈ text.toList, c.toNat < 256)
    (hshort : text.length ≤ maxStringUnits) :
    (keyText (.heap (objectAt start))).Yields b.heap text := by
  have hread := hstring.yields_text hmap hpoisoned (length_latin1Units text ▸ hshort)
  rw [decode_latin1Units htext] at hread
  unfold keyText
  rwa [(hstring.yields_isString hmap hpoisoned).bind_iff, if_pos rfl]

/-! ### Descriptors -/

theorem length_descriptorSlots (keys : List ℕ) :
    (descriptorSlots keys).length = 2 + 3 * keys.length := by
  simp [descriptorSlots, List.length_flatMap]
  omega

theorem getElem?_descriptorSlots {keys : List ℕ} {i j key : ℕ} (hkey : keys[i]? = some key)
    (hj : j < 3) : (descriptorSlots keys)[2 + 3 * i + j]? =
      [(objectAt key).word, smallInt 0, smallInt (fieldDetails i)][j]? := by
  have hitem : keys.zipIdx[i]? = some (key, i) := by
    rw [List.getElem?_zipIdx, hkey, Nat.zero_add]
    rfl
  rw [descriptorSlots, show 2 + 3 * i + j = 3 * i + j + 1 + 1 by omega, List.getElem?_cons_succ,
    List.getElem?_cons_succ, getElem?_flatMap_triple (fun _ => rfl) hitem hj]

section

variable {keys : List ℕ} {i key : ℕ} (harray : b.HasArray start (descriptorSlots keys))
  (hpoisoned : b.memory.poisoned = []) (hkey : keys[i]? = some key) (hcount : keys.length ≤ 252)
include harray hpoisoned hkey hcount

theorem HasArray.yields_part {c : Constant} {j : ℕ} {w : UInt64} (hj : j < 3)
    (hc : standardLayout.value? c = some (j : ℤ))
    (hw : [(objectAt key).word, smallInt 0, smallInt (fieldDetails i)][j]? = some w) :
    (DescriptorArray.part (objectAt start) i c).Yields b.heap (.classify standardLayout w) := by
  have hpart : (constant c).Yields b.heap (j : ℤ) := yields_constant.mpr hc
  have hfirst : (constant .descriptorFirstIndex).Yields b.heap 2 :=
    yields_constant.mpr (value?_standardLayout rfl rfl (by cbv))
  have hsize : (constant .descriptorEntrySize).Yields b.heap 3 :=
    yields_constant.mpr (value?_standardLayout rfl rfl (by cbv))
  -- Behind the two slots of the head come three for each descriptor.
  have hindex : ((2 : ℤ) + (i : ℤ) * 3 + (j : ℤ)).toNat = 2 + 3 * i + j := by omega
  have hslot : (descriptorSlots keys)[2 + 3 * i + j]? = some w := by
    rw [getElem?_descriptorSlots hkey hj, hw]
  unfold DescriptorArray.part
  rw [hpart.bind_iff, hfirst.bind_iff, hsize.bind_iff, FixedArray.getInt, if_neg (by omega), hindex]
  refine harray.yields_get hpoisoned ?_ hslot
  rw [length_descriptorSlots]
  omega

theorem HasArray.yields_details :
    (DescriptorArray.details (objectAt start) i).Yields b.heap ((i * 1024 : ℕ) : ℤ) := by
  have hi := (List.getElem?_eq_some_iff.mp hkey).1
  have hread := harray.yields_part (c := .descriptorDetailsSlot) hpoisoned hkey hcount (j := 2)
    (by decide) (value?_standardLayout rfl rfl (by cbv)) rfl
  have hdetails : fieldDetails i = ((i * 1024 : ℕ) : ℤ) := by
    rw [fieldDetails]
    push_cast
    rfl
  rw [hdetails, classify_smallInt (by omega)] at hread
  exact hread.bind (yields_pure.mpr rfl)

end

theorem yields_detailBits {details : ℤ} {mask shift : Constant} {m n : ℤ}
    (hmask : standardLayout.value? mask = some m) (hshift : standardLayout.value? shift = some n) :
    (detailBits details mask shift).Yields b.heap
      (Word.shiftRight (Word.maskBits details m) n) := by
  have hmask' : (constant mask).Yields b.heap m := yields_constant.mpr hmask
  have hshift' : (constant shift).Yields b.heap n := yields_constant.mpr hshift
  exact hmask'.bind (hshift'.bind (yields_pure.mpr rfl))

/-- The details of field `i` say that it is a field, and which. -/
theorem yields_ofDetails {i : ℕ} (hi : i < 252) :
    (PropertyStorage.ofDetails ((i * 1024 : ℕ) : ℤ) 0).Yields b.heap (.field i false) := by
  have hbits : ∀ i < 252,
      Word.shiftRight (Word.maskBits (i * 1024 : ℕ) 2) 1 = 0 ∧
      Word.shiftRight (Word.maskBits (i * 1024 : ℕ) 1047552) 10 = i ∧
      Word.shiftRight (Word.maskBits (i * 1024 : ℕ) 448) 6 = 0 := by decide +kernel
  obtain ⟨hlocation, hindex, hrepresentation⟩ := hbits i hi
  have hfield : standardLayout.value? .descriptorLocationField = some 0 :=
    value?_standardLayout rfl rfl (by cbv)
  have hdescriptor : standardLayout.value? .descriptorLocationDescriptor = some 1 :=
    value?_standardLayout rfl rfl (by cbv)
  have hdouble : standardLayout.value? .descriptorRepresentationDouble = some 2 :=
    value?_standardLayout rfl rfl (by cbv)
  have hreadLocation : (detailBits (i * 1024 : ℕ) .descriptorLocationMask
      .descriptorLocationShift).Yields b.heap 0 := by
    rw [← hlocation]
    exact yields_detailBits (value?_standardLayout rfl rfl (by cbv))
      (value?_standardLayout rfl rfl (by cbv))
  have hreadIndex : (detailBits (i * 1024 : ℕ) .descriptorIndexMask
      .descriptorIndexShift).Yields b.heap i := by
    rw [← hindex]
    exact yields_detailBits (value?_standardLayout rfl rfl (by cbv))
      (value?_standardLayout rfl rfl (by cbv))
  have hreadRepresentation : (detailBits (i * 1024 : ℕ) .descriptorRepresentationMask
      .descriptorRepresentationShift).Yields b.heap 0 := by
    rw [← hrepresentation]
    exact yields_detailBits (value?_standardLayout rfl rfl (by cbv))
      (value?_standardLayout rfl rfl (by cbv))
  have hkinds : (PropertyStorage.kinds ((i * 1024 : ℕ) : ℤ)).Yields b.heap (true, false) := by
    unfold PropertyStorage.kinds
    rw [(yields_layout.mpr (layout_heap b)).bind_iff,
      if_pos (has_standardLayout rfl rfl (by cbv)), hreadLocation.bind_iff, Layout.agrees,
      Layout.agrees, hfield, hdescriptor]
    exact yields_pure.mpr rfl
  -- A field of no double representation; nothing is subtracted, as none is counted inside here.
  unfold PropertyStorage.ofDetails
  rw [hkinds.bind_iff]
  dsimp only
  rw [if_neg (by decide), if_pos rfl, hreadIndex.bind_iff, hreadRepresentation.bind_iff,
    (yields_layout.mpr (layout_heap b)).bind_iff, Layout.agrees, hdouble, sub_zero]
  exact yields_pure.mpr rfl

theorem HasArray.tellsField {keys : List ℕ} {i key : ℕ}
    (harray : b.HasArray start (descriptorSlots keys)) (hpoisoned : b.memory.poisoned = [])
    (hkey : keys[i]? = some key) (hcount : keys.length ≤ 252) (heven : 2 ∣ key) :
    JsObject.TellsField b.heap (objectAt start) i (.heap (objectAt key)) i false := by
  have hi := (List.getElem?_eq_some_iff.mp hkey).1
  have hreadKey := harray.yields_part (c := .descriptorKeySlot) hpoisoned hkey hcount (j := 0)
    (by decide) (value?_standardLayout rfl rfl (by cbv)) rfl
  rw [classify_objectAt heven] at hreadKey
  exact ⟨_, (harray.yields_details hpoisoned hkey hcount).bind
    (hreadKey.bind ((yields_ofDetails (by omega)).bind (yields_pure.mpr rfl)))⟩

end Postmortem.Synthetic.Builder
