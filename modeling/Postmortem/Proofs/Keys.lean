/-
Postmortem/Proofs/Keys.lean

Keys and properties tell the same story.

Both are listed by going through the elements, and through the dictionary or the
descriptors of an object, but not by one function.  The keys leave out what the
object does not hold itself: holes, and properties that are not kept in a field.
Whether a property is kept in a field is told by its word of details alone
(`Layout.tellsField`).  The number of properties that lie inside the object goes
into the number of the field, not into what a property is kept as
(`exists_ofDetails_zero`), and it is only the properties that ask for it.

Main result: `yields_keys`.
-/
import Postmortem.Proofs.Collections
import Postmortem.Proofs.Properties
import Postmortem.Proofs.Listing

namespace Postmortem

open HeapM

/-! ### Details -/

/-- The bits of a word of details that a mask selects, shifted down. -/
def Layout.detailBits (l : Layout) (details : Int) (mask shift : Constant) : Int :=
  Word.shiftRight (Word.maskBits details (l.raw mask)) (l.raw shift)

/-- Whether a word of details tells of a field, by a location or, in older builds, by the kind of
the property.  What is told to be in the descriptor is in no field. -/
def Layout.tellsField (l : Layout) (details : Int) : Bool :=
  if l.has .descriptorLocationMask then
    let location := l.detailBits details .descriptorLocationMask .descriptorLocationShift
    l.agrees .descriptorLocationField location && !l.agrees .descriptorLocationDescriptor location
  else
    let kind := Word.maskBits details (l.raw .descriptorTypeMask)
    l.agrees .descriptorTypeField kind &&
      !(l.agrees .descriptorTypeConstField kind || l.agrees .descriptorTypeConstant kind)

/-- Whether a property is kept in a field. -/
def PropertyStorage.isField : PropertyStorage → Bool
  | .field .. => true
  | .descriptor | .unsupported => false

section

variable {h : Heap} {details inObject : Int} {storage : PropertyStorage} {c : Constant}

theorem raw_of_yields {value : Int} (hvalue : (constant c).Yields h value) :
    h.layout.raw c = value := by
  rw [Layout.raw, yields_constant.mp hvalue, Option.getD_some]

theorem detailBits_of_yields {mask shift : Constant} {bits : Int}
    (hbits : (detailBits details mask shift).Yields h bits) :
    h.layout.detailBits details mask shift = bits := by
  obtain ⟨m, hmask, hbits⟩ := yields_bind.mp hbits
  obtain ⟨s, hshift, hbits⟩ := yields_bind.mp hbits
  rw [Layout.detailBits, raw_of_yields hmask, raw_of_yields hshift]
  exact yields_pure.mp hbits

theorem tellsField_of_yields_kinds {isField isDescriptor : Bool}
    (hkinds : (PropertyStorage.kinds details).Yields h (isField, isDescriptor)) :
    h.layout.tellsField details = (isField && !isDescriptor) := by
  rw [PropertyStorage.kinds, (yields_layout.mpr rfl).bind_iff] at hkinds
  rw [Layout.tellsField]
  split
  case isTrue hlocation =>
    rw [if_pos hlocation] at hkinds
    obtain ⟨location, hbits, hkinds⟩ := yields_bind.mp hkinds
    cases yields_pure.mp hkinds
    rw [detailBits_of_yields hbits]
  case isFalse hlocation =>
    rw [if_neg hlocation] at hkinds
    obtain ⟨mask, hmask, hkinds⟩ := yields_bind.mp hkinds
    cases yields_pure.mp hkinds
    rw [raw_of_yields hmask]

/-- Where a property is found with some number of properties inside the object, it is found with
any, and kept in a field or not. -/
theorem exists_ofDetails_zero
    (hstorage : (PropertyStorage.ofDetails details inObject).Yields h storage) :
    ∃ storage', (PropertyStorage.ofDetails details 0).Yields h storage' ∧
      storage'.isField = h.layout.tellsField details := by
  obtain ⟨⟨isField, isDescriptor⟩, hkinds, hstorage⟩ := yields_bind.mp hstorage
  have htells := tellsField_of_yields_kinds hkinds
  rw [htells]
  simp only [PropertyStorage.ofDetails, hkinds.bind_iff]
  cases isDescriptor with
  | true => exact ⟨.descriptor, yields_pure.mpr rfl, (Bool.and_false _).symm⟩
  | false =>
    cases isField with
    | false => exact ⟨.unsupported, yields_pure.mpr rfl, rfl⟩
    | true =>
      obtain ⟨index, hindex, hstorage⟩ := yields_bind.mp hstorage
      obtain ⟨representation, hrepresentation, -⟩ := yields_bind.mp hstorage
      exact ⟨_, hindex.bind (hrepresentation.bind ((yields_layout.mpr rfl).bind
        (yields_pure.mpr rfl))), rfl⟩

end

namespace JsObject

variable {h : Heap} {object map descriptors elements : Address} {n : ℕ}
  {entries : List (Value × PropertySlot)} {hole own : ℕ → Bool} {text : Value → String}

/-- Whether descriptor `index` tells of a field. -/
def tellsField (descriptors : Address) (index : ℕ) : HeapM Bool := do
  let details ← DescriptorArray.details descriptors index
  pure ((← layout).tellsField details)

/-- Whether the property at a position is kept in a dictionary or in a field. -/
def holdsProperty (object : Address) (index : ℕ) : HeapM Bool := do
  let map ← Map.of object
  if ← Map.isDictionary map then pure true
  else
    match ← Map.descriptors map with
    | none => pure false
    | some descriptors => tellsField descriptors index

/-! ### Elements -/

theorem yields_elementKeys (helements : (JsObject.elements object).Yields h elements)
    (hlength : (FixedArray.length elements).Yields h n)
    (hholes : ∀ i < n, ∃ v, (FixedArray.get elements i).Yields h v ∧ (isHole v).Yields h (hole i)) :
    (elementKeys object).Yields h (((List.range n).filter fun i => !hole i).map toString) := by
  refine helements.bind (hlength.bind (Yields.bind (yields_forRange.mpr ?_)
    (yields_pure.mpr (filterMap_id_map_ite (fun i => !hole i) toString (List.range n)))))
  rw [List.range_eq_range', List.forall₂_map_right_iff, List.forall₂_same]
  intro i hi
  obtain ⟨v, hv, hhole⟩ := hholes i (by simpa using hi)
  refine hv.bind (hhole.bind (yields_pure.mpr ?_))
  cases hole i <;> rfl

/-! ### Properties -/

/-- A described property has the key of its descriptor. -/
theorem exists_entry_of_readDescribed {property : Value × PropertySlot} {index : ℕ}
    (hproperty : (readDescribed object map descriptors index).Yields h property) :
    ∃ inObject entry, (DescriptorArray.entry descriptors index inObject).Yields h entry ∧
      entry.key = property.1 := by
  obtain ⟨inObject, -, hproperty⟩ := yields_bind.mp hproperty
  obtain ⟨size, -, hproperty⟩ := yields_bind.mp hproperty
  obtain ⟨outside, -, hproperty⟩ := yields_bind.mp hproperty
  obtain ⟨entry, hentry, hproperty⟩ := yields_bind.mp hproperty
  refine ⟨inObject, entry, hentry, ?_⟩
  split at hproperty
  · obtain ⟨v, -, hproperty⟩ := yields_bind.mp hproperty
    exact congrArg Prod.fst (yields_pure.mp hproperty)
  · exact congrArg Prod.fst (yields_pure.mp hproperty)
  · obtain ⟨place, -, hproperty⟩ := yields_bind.mp hproperty
    split at hproperty
    all_goals
      obtain ⟨found, -, hproperty⟩ := yields_bind.mp hproperty
      exact congrArg Prod.fst (yields_pure.mp hproperty)

/-- The key of a described property is listed if its descriptor tells of a field. -/
theorem exists_ownKey {property : Value × PropertySlot} {index : ℕ} {key : String}
    (hproperty : (readDescribed object map descriptors index).Yields h property)
    (hkey : (keyText property.1).Yields h key) :
    ∃ isField, (tellsField descriptors index).Yields h isField ∧
      (ownKey? descriptors index).Yields h (if isField then some key else none) := by
  obtain ⟨inObject, entry, hentry, hname⟩ := exists_entry_of_readDescribed hproperty
  obtain ⟨details, hdetails, hentry⟩ := yields_bind.mp hentry
  obtain ⟨name, hkeySlot, hentry⟩ := yields_bind.mp hentry
  obtain ⟨storage, hstorage, hentry⟩ := yields_bind.mp hentry
  cases yields_pure.mp hentry
  obtain ⟨storage', hstorage', hfield⟩ := exists_ofDetails_zero hstorage
  refine ⟨h.layout.tellsField details,
    hdetails.bind ((yields_layout.mpr rfl).bind (yields_pure.mpr rfl)), ?_⟩
  refine Yields.bind (hdetails.bind (hkeySlot.bind (hstorage'.bind (yields_pure.mpr rfl)))) ?_
  rw [← hfield]
  cases storage' with
  | field => exact (hname ▸ hkey).bind (yields_pure.mpr rfl)
  | descriptor => exact yields_pure.mpr rfl
  | unsupported => exact yields_pure.mpr rfl

theorem yields_propertyKeys_dictionary (hmap : (Map.of object).Yields h map)
    (hmode : (Map.isDictionary map).Yields h true)
    (hproperties : (properties object none).Yields h entries)
    (htexts : ∀ entry ∈ entries, (keyText entry.1).Yields h (text entry.1)) :
    (propertyKeys object map).Yields h (entries.map fun entry => text entry.1) := by
  obtain ⟨dictionary, hdictionary⟩ : ∃ dictionary,
      (JsObject.dictionary object).Yields h dictionary := by
    rw [properties, hmap.bind_iff] at hproperties
    obtain ⟨⟨⟩, -, hproperties⟩ := yields_bind.mp hproperties
    rw [hmode.bind_iff, if_pos rfl] at hproperties
    obtain ⟨dictionary, hdictionary, -⟩ := yields_bind.mp hproperties
    exact ⟨dictionary, hdictionary⟩
  obtain ⟨-, found, hfound, rfl⟩ :=
    (yields_properties_dictionary hmap hmode hdictionary).mp hproperties
  rw [propertyKeys, hmode.bind_iff, if_pos rfl, hdictionary.bind_iff, hfound.bind_iff,
    yields_mapM, List.map_map, List.forall₂_map_right_iff, List.forall₂_same]
  exact fun entry hentry => htexts (ofEntry entry) (List.mem_map_of_mem hentry)

theorem yields_propertyKeys_described (hmode : (Map.isDictionary map).Yields h false)
    (hdescriptors : (Map.descriptors map).Yields h (some descriptors))
    (hown : (Map.ownDescriptors map).Yields h n)
    (hall : List.Forall₂ (fun i property =>
      (readDescribed object map descriptors i).Yields h property) (List.range' 0 n) entries)
    (htexts : ∀ entry ∈ entries, (keyText entry.1).Yields h (text entry.1)) :
    ∃ own : ℕ → Bool, (∀ i < n, (tellsField descriptors i).Yields h (own i)) ∧
      (propertyKeys object map).Yields h
        ((entries.zipIdx.filter fun entry => own entry.2).map fun entry => text entry.1.1) := by
  let own (i : ℕ) : Bool := (tellsField descriptors i h).result.toOption.getD false
  have hfound {i : ℕ} {isField : Bool} (hfield : (tellsField descriptors i).Yields h isField) :
      own i = isField := by
    simp only [own, yields_iff_toOption.mp hfield, Option.getD_some]
  refine ⟨own, fun i hi => ?_, ?_⟩
  · obtain ⟨property, hmem, hproperty⟩ : ∃ property ∈ entries,
        (readDescribed object map descriptors i).Yields h property := by
      obtain ⟨hlength, hget⟩ := List.forall₂_iff_get.mp hall
      have hi' : i < (List.range' 0 n).length := by simpa using hi
      exact ⟨_, List.get_mem entries ⟨i, hlength ▸ hi'⟩, by simpa using hget i hi' (hlength ▸ hi')⟩
    obtain ⟨isField, hfield, -⟩ := exists_ownKey hproperty (htexts property hmem)
    rwa [hfound hfield]
  · rw [propertyKeys, hmode.bind_iff, if_neg (by decide), hdescriptors.bind_iff]
    dsimp only
    rw [hown.bind_iff]
    have hnames := filterMap_id_map_ite (fun entry : (Value × PropertySlot) × ℕ => own entry.2)
      (fun entry => text entry.1.1) entries.zipIdx
    refine Yields.bind (yields_forRange.mpr ?_) (yields_pure.mpr hnames)
    refine forall₂_map_zipIdx hall fun i property hmem hproperty => ?_
    obtain ⟨isField, hfield, hkey⟩ := exists_ownKey hproperty (htexts property hmem)
    rwa [← hfound hfield] at hkey

/-- The names of the properties that are held, in the order of the properties. -/
theorem yields_propertyKeys (hmap : (Map.of object).Yields h map)
    (hproperties : (properties object none).Yields h entries)
    (htexts : ∀ entry ∈ entries, (keyText entry.1).Yields h (text entry.1)) :
    ∃ own : ℕ → Bool, (∀ i < entries.length, (holdsProperty object i).Yields h (own i)) ∧
      (propertyKeys object map).Yields h
        ((entries.zipIdx.filter fun entry => own entry.2).map fun entry => text entry.1.1) := by
  have hread := hproperties
  rw [properties, hmap.bind_iff] at hread
  obtain ⟨⟨⟩, -, hread⟩ := yields_bind.mp hread
  obtain ⟨isDictionary, hmode, hread⟩ := yields_bind.mp hread
  simp only [holdsProperty, hmap.bind_iff, hmode.bind_iff]
  cases isDictionary with
  | true =>
    refine ⟨fun _ => true, fun _ _ => yields_pure.mpr rfl, ?_⟩
    have hnames := yields_propertyKeys_dictionary hmap hmode hproperties htexts
    rwa [List.filter_true, ← Function.comp_def (fun entry : Value × PropertySlot => text entry.1)
      Prod.fst, ← List.map_map, List.zipIdx_map_fst]
  | false =>
    rw [if_neg (by decide)] at hread
    obtain ⟨found, hdescriptors, hread⟩ := yields_bind.mp hread
    simp only [Bool.false_eq_true, if_false, hdescriptors.bind_iff]
    cases found with
    | none =>
      cases yields_pure.mp hread
      refine ⟨fun _ => false, fun _ _ => yields_pure.mpr rfl, ?_⟩
      rw [propertyKeys, hmode.bind_iff, if_neg (by decide), hdescriptors.bind_iff]
      exact yields_pure.mpr rfl
    | some descriptors =>
      obtain ⟨n, hown, -⟩ := yields_bind.mp hread
      obtain ⟨-, hall⟩ :=
        (yields_properties_described hmap hmode hdescriptors hown).mp hproperties
      have hlength : n = entries.length := by simpa [wantedDescriptors] using hall.length_eq
      exact hlength ▸ yields_propertyKeys_described hmode hdescriptors hown hall htexts

/-- The keys are the indices of the elements that are not holes and the names of the properties
that the object holds, in the order of the properties. -/
theorem yields_keys (hproperties : (properties object none).Yields h entries)
    (helements : (JsObject.elements object).Yields h elements)
    (hlength : (FixedArray.length elements).Yields h n)
    (hholes : ∀ i < n, ∃ v, (FixedArray.get elements i).Yields h v ∧ (isHole v).Yields h (hole i))
    (htexts : ∀ entry ∈ entries, (keyText entry.1).Yields h (text entry.1)) :
    ∃ own : ℕ → Bool, (∀ i < entries.length, (holdsProperty object i).Yields h (own i)) ∧
      (keys object).Yields h (((List.range n).filter fun i => !hole i).map toString ++
        (entries.zipIdx.filter fun entry => own entry.2).map fun entry => text entry.1.1) := by
  have helementKeys := yields_elementKeys helements hlength hholes
  obtain ⟨map, hmap, hrest⟩ := yields_bind.mp hproperties
  obtain ⟨⟨⟩, hcheck, -⟩ := yields_bind.mp hrest
  obtain ⟨own, hown, hnames⟩ := yields_propertyKeys hmap hproperties htexts
  exact ⟨own, hown, hmap.bind (hcheck.bind (helementKeys.bind (hnames.bind
    (yields_pure.mpr rfl))))⟩

/-! ### An object with three descriptors -/

open Synthetic

/-- An object with two elements, the second of them a hole, and a property of each sort: one in the
object itself, one in its descriptor, and one that is kept in a way not understood. -/
def describedHeap : Heap where
  layout := listedLayout (flatConstants ++ [
    (.typeOddball, 150), (.oddballKind, 8), (.oddballTheHole, 3),
    (.objectProperties, 8), (.objectElements, 16), (.objectInternalFields, 24),
    (.mapInstanceSize, 8), (.mapInObjectCount, 9), (.mapBitField3, 16), (.mapDescriptors, 24),
    (.mapDictionaryMapShift, 0), (.mapOwnDescriptorsMask, 0x1e), (.mapOwnDescriptorsShift, 1),
    (.descriptorFirstIndex, 0), (.descriptorEntrySize, 3), (.descriptorKeySlot, 0),
    (.descriptorDetailsSlot, 1), (.descriptorValueSlot, 2), (.descriptorLocationMask, 0x6),
    (.descriptorLocationShift, 1), (.descriptorLocationField, 0),
    (.descriptorLocationDescriptor, 1), (.descriptorIndexMask, 0x78), (.descriptorIndexShift, 3),
    (.descriptorRepresentationMask, 0x180), (.descriptorRepresentationShift, 7),
    (.descriptorRepresentationDouble, 1)])
  image := listedImage [
    (⟨0x100c⟩, Word.toBytes 2 134), (⟨0x110c⟩, Word.toBytes 2 8), (⟨0x130c⟩, Word.toBytes 2 150),
    (⟨0x1208⟩, [4, 1, 0, 0] ++ Word.toBytes 4 160 ++ wordsBytes [6, 0x4001]),
    (⟨0x2000⟩, wordsBytes [0x1001, smiWord 2, smiWord 7, 0x3001]),
    (⟨0x3000⟩, wordsBytes [0x1301, smiWord 3]),
    (⟨0x4000⟩, wordsBytes [0x1001, smiWord 9, 0x5001, smiWord 0, 0, smiWord 3, smiWord 2, smiWord 8,
      smiWord 4, smiWord 4, 0]),
    (⟨0x5000⟩, headerBytes 0x1101 2 ++ [0x68, 0x69]),
    (⟨0x6000⟩, wordsBytes [0x1201, 0, 0x2001, smiWord 5])]

/-- The key of the hole and the keys of what is not in the object are left out. -/
theorem yields_keys_describedHeap :
    ∃ entries, (properties ⟨0x6001⟩ none).Yields describedHeap entries ∧ entries.length = 3 ∧
      (keys ⟨0x6001⟩).Yields describedHeap ["0", "hi"] := by
  have hkeys : (properties ⟨0x6001⟩ none describedHeap).result.toOption.map
      (List.map Prod.fst) = some [.heap ⟨0x5001⟩, .smi 0x300000000 3, .smi 0x400000000 4] := by
    decide +kernel
  obtain ⟨entries, hentries, hkeys⟩ := Option.map_eq_some_iff.mp hkeys
  have hproperties := yields_iff_toOption.mpr hentries
  have hlength : entries.length = 3 := by simpa using congrArg List.length hkeys
  let text : Value → String := fun key => key.number?.elim "hi" toString
  have htexts : ∀ entry ∈ entries, (keyText entry.1).Yields describedHeap (text entry.1) := by
    intro entry hentry
    have hmem : entry.1 ∈ entries.map Prod.fst := List.mem_map_of_mem hentry
    rw [hkeys] at hmem
    generalize entry.1 = key at hmem ⊢
    simp only [List.mem_cons, List.not_mem_nil, or_false] at hmem
    rcases hmem with rfl | rfl | rfl <;> decide +kernel
  have hholes : ∀ i < 2, ∃ v, (FixedArray.get ⟨0x2001⟩ i).Yields describedHeap v ∧
      (isHole v).Yields describedHeap (i == 1) := by
    intro i hi
    obtain rfl | rfl : i = 0 ∨ i = 1 := by omega
    · exact ⟨.smi 0x700000000 7, by decide +kernel, by decide +kernel⟩
    · exact ⟨.heap ⟨0x3001⟩, by decide +kernel, by decide +kernel⟩
  have helements : (JsObject.elements ⟨0x6001⟩).Yields describedHeap ⟨0x2001⟩ := by decide +kernel
  obtain ⟨own, hown, hall⟩ := yields_keys hproperties helements (by decide +kernel) hholes htexts
  have hfirst : own 0 = true := (hown 0 (by omega)).unique (by decide +kernel)
  have hsecond : own 1 = false := (hown 1 (by omega)).unique (by decide +kernel)
  have hthird : own 2 = false := (hown 2 (by omega)).unique (by decide +kernel)
  refine ⟨entries, hproperties, hlength, ?_⟩
  obtain ⟨first, second, third, rfl⟩ := List.length_eq_three.mp hlength
  have hname : first.1 = .heap ⟨0x5001⟩ := (List.cons.inj hkeys).1
  have hindex : Nat.repr 0 = "0" := by decide
  simpa [hfirst, hsecond, hthird, hname, text, Value.number?, List.range_succ, hindex] using hall

end JsObject

end Postmortem
