/-
Postmortem/Proofs/RoundTrip.lean

Objects built are objects decoded.

An object that stands in a heap with all its parts is read part by part: what its map
counts, where its descriptors say that the fields are, the strings of its keys, the
words in its slots.  The parts stand there once the object has been built, and stay
there whatever is built later, so what is decoded is what was built.

Two things are in the way of keys.  The decoder refuses strings of more than 2 ^ 25
units, however they came about.  And the map of one-byte strings is remembered in a
table with the oddballs, where the oddball of kind minus nine has the same place: when
it is there first, it is taken for the map.

Main result: `decodes_object`.
-/
import Postmortem.Proofs.Collections
import Postmortem.Proofs.Decoding
import Postmortem.Proofs.Properties

namespace Postmortem.Synthetic.Builder

open HeapM JsString

variable {b : Builder} {start : ℕ}

/-! ### Objects -/

/-- What a property is listed as, whose key is the string at `cell.2`. -/
def listedAs (cell : (String × UInt64) × ℕ) : Value × PropertySlot :=
  (.heap (objectAt cell.2), .value (.classify standardLayout cell.1.2))

namespace HasObject

variable {properties : List (String × UInt64)} {parts : Parts}
  (hobject : b.HasObject start properties parts)
include hobject

theorem length_keys : parts.keys.length = properties.length := hobject.keys.length_eq.symm

theorem getElem?_of_cell {i : ℕ} {property : String × UInt64} {key : ℕ}
    (hcell : (properties.zip parts.keys)[i]? = some (property, key)) :
    properties[i]? = some property ∧ parts.keys[i]? = some key ∧
      b.HasString key parts.stringMap (latin1Units property.1) := by
  obtain ⟨hproperty, hkey⟩ := List.getElem?_zip_eq_some.mp hcell
  exact ⟨hproperty, hkey, (List.forall₂_iff_zip.mp hobject.keys).2
    (List.mem_of_getElem? hcell)⟩

theorem exists_cell {i key : ℕ} (hkey : parts.keys[i]? = some key) :
    ∃ property, (properties.zip parts.keys)[i]? = some (property, key) := by
  have hi : i < properties.length :=
    (List.getElem?_eq_some_iff.mp hkey).1.trans_eq hobject.length_keys
  exact ⟨properties[i], List.getElem?_zip_eq_some.mpr ⟨List.getElem?_eq_getElem hi, hkey⟩⟩

theorem forall₂_cells {γ : Type} (f : (String × UInt64) × ℕ → γ) :
    List.Forall₂ (fun i c => ∃ cell, (properties.zip parts.keys)[i]? = some cell ∧ f cell = c)
      (List.range' 0 properties.length) ((properties.zip parts.keys).map f) := by
  have hlength : (properties.zip parts.keys).length = properties.length := by
    rw [List.length_zip, hobject.length_keys, Nat.min_self]
  rw [forall₂_range'_iff (by omega), List.drop_zero, ← hlength, List.take_length,
    forall₂_image_iff]

variable (hpoisoned : b.memory.poisoned = [])
include hpoisoned

theorem yields_elements :
    (JsObject.elements (objectAt start)).Yields b.heap (objectAt parts.empty) := by
  have hvalue := hobject.elements.value (c := .objectElements)
    (value?_standardLayout rfl rfl (by cbv)) hpoisoned
  rw [classify_objectAt hobject.empty.even] at hvalue
  exact hvalue.bind (yields_pure.mpr rfl)

theorem yields_elementsLength :
    (JsObject.elementsLength (objectAt start)).Yields b.heap 0 :=
  (hobject.yields_elements hpoisoned).bind (hobject.empty.yields_length hpoisoned (by decide))

theorem yields_outside :
    (JsObject.properties? (objectAt start)).Yields b.heap (some (objectAt parts.empty)) := by
  have hvalue := hobject.outside.value (c := .objectProperties)
    (value?_standardLayout rfl rfl (by cbv)) hpoisoned
  rw [classify_objectAt hobject.empty.even] at hvalue
  exact hvalue.bind (yields_pure.mpr rfl)

theorem yields_descriptors :
    (Map.descriptors (objectAt parts.map)).Yields b.heap (some (objectAt parts.descriptors)) := by
  have hvalue := hobject.hasMap.descriptors.value (w := (objectAt parts.descriptors).word)
    (c := .mapDescriptors) (value?_standardLayout rfl rfl (by cbv)) hpoisoned
  rw [classify_objectAt hobject.descriptors.even] at hvalue
  exact hvalue.bind (yields_pure.mpr rfl)

variable (hcount : properties.length ≤ 252)
include hcount

theorem yields_propertiesLength :
    (JsObject.propertiesLength (objectAt start)).Yields b.heap properties.length := by
  unfold JsObject.propertiesLength
  rw [(hobject.map.yields_mapOf hpoisoned).bind_iff,
    (hobject.hasMap.yields_isDictionary hpoisoned hcount).bind_iff, if_neg (by decide)]
  exact hobject.hasMap.yields_ownDescriptors hpoisoned hcount

theorem yields_internalFieldsLength :
    (JsObject.internalFieldsLength (objectAt start)).Yields b.heap 0 :=
  JsObject.yields_internalFieldsLength (hobject.map.yields_mapOf hpoisoned)
    (hobject.hasMap.plainInstance hpoisoned hcount) (size_eq b _)

theorem yields_readDescribed {i : ℕ} {cell : (String × UInt64) × ℕ}
    (hcell : (properties.zip parts.keys)[i]? = some cell) :
    (JsObject.readDescribed (objectAt start) (objectAt parts.map) (objectAt parts.descriptors)
      i).Yields b.heap (listedAs cell) := by
  obtain ⟨property, key⟩ := cell
  obtain ⟨hproperty, hkey, hstring⟩ := hobject.getElem?_of_cell hcell
  have hi := (List.getElem?_eq_some_iff.mp hproperty).1
  have hmap := hobject.hasMap.plainInstance hpoisoned hcount
  have htells := hobject.descriptors.tellsField hpoisoned hkey
    (hobject.length_keys.trans_le hcount) hstring.even
  have hplace : (JsObject.fieldPlace (objectAt start) ((i : ℤ) - properties.length) _
      (some (objectAt parts.empty))).Yields b.heap _ :=
    JsObject.yields_fieldPlace_inside (⟨i, hi⟩ : Fin properties.length) hmap (size_eq b _)
  have hoffset : (Postmortem.Part.property ⟨i, hi⟩ : Postmortem.Part 0 properties.length).offset
      b.heap.layout 24 = ((24 + 8 * i : ℕ) : ℤ) := by
    rw [layout_heap, Postmortem.Part.offset, Postmortem.Part.slot, pointerSize_standardLayout]
    push_cast
    ring
  rw [hoffset, layout_heap, field_objectAt, ← Nat.add_assoc] at hplace
  -- The slot that the decoder comes to is the one that the word was written to.
  have hword : b.heap.image.word? ⟨UInt64.ofNat (start + 24 + 8 * i)⟩ = some property.2 := by
    refine yields_word.mp ((hobject.values i property.2 ?_).word hpoisoned)
    rw [List.getElem?_map, hproperty, Option.map_some]
  refine hmap.yields_count.bind (hmap.yields_size.bind
    ((hobject.yields_outside hpoisoned).bind ?_))
  unfold Yields
  rw [JsObject.result_describedProperty htells hplace, JsObject.storedAt, hword]
  rfl

theorem yields_properties :
    (JsObject.properties (objectAt start) none).Yields b.heap
      ((properties.zip parts.keys).map listedAs) := by
  have hmap := hobject.hasMap.plainInstance hpoisoned hcount
  refine (JsObject.yields_properties_described (hobject.map.yields_mapOf hpoisoned)
    (hobject.hasMap.yields_isDictionary hpoisoned hcount) (hobject.yields_descriptors hpoisoned)
    (hobject.hasMap.yields_ownDescriptors hpoisoned hcount)).mpr
    ⟨⟨hmap.checked, ⟨_, hmap.yields_count⟩, ⟨_, hmap.yields_size⟩,
      ⟨_, hobject.yields_outside hpoisoned⟩⟩, ?_⟩
  refine (hobject.forall₂_cells listedAs).imp fun i entry hentry => ?_
  obtain ⟨cell, hcell, rfl⟩ := hentry
  exact hobject.yields_readDescribed hpoisoned hcount hcell

theorem yields_ownKey_iff {i key : ℕ} (hkey : parts.keys[i]? = some key) (found : Option String) :
    (JsObject.ownKey? (objectAt parts.descriptors) i).Yields b.heap found ↔
      ∃ name, (keyText (.heap (objectAt key))).Yields b.heap name ∧ some name = found := by
  obtain ⟨property, hcell⟩ := hobject.exists_cell hkey
  obtain ⟨-, -, hstring⟩ := hobject.getElem?_of_cell hcell
  obtain ⟨details, hentry⟩ := hobject.descriptors.tellsField hpoisoned hkey
    (hobject.length_keys.trans_le hcount) hstring.even
  rw [JsObject.ownKey?, hentry.bind_iff]
  dsimp only
  rw [yields_bind]
  simp only [yields_pure]

theorem forall₂_ownKey_iff (found : List (Option String)) :
    List.Forall₂ (fun i found => (JsObject.ownKey? (objectAt parts.descriptors) i).Yields b.heap
        found) (List.range' 0 properties.length) found ↔
      ∃ names, List.Forall₂ (fun key name => (keyText (.heap (objectAt key))).Yields b.heap name)
        parts.keys names ∧ names.map some = found := by
  simp only [← forall₂_image_iff]
  rw [← forall₂_exists_iff, ← List.take_length (l := parts.keys), hobject.length_keys,
    ← List.drop_zero (l := parts.keys),
    ← forall₂_range'_iff (Nat.zero_add _ ▸ hobject.length_keys.ge)]
  constructor
  · intro hall
    -- A descriptor that is read has a key, as there are as many keys as descriptors.
    have hwithin : ∀ i ∈ List.range' 0 properties.length, ∃ key, parts.keys[i]? = some key := by
      intro i hi
      rw [List.mem_range'_1, Nat.zero_add, ← hobject.length_keys] at hi
      exact ⟨_, List.getElem?_eq_getElem hi.2⟩
    refine ((List.forall₂_and_left _ _).mpr ⟨hwithin, hall⟩).imp fun i found hi => ?_
    obtain ⟨⟨key, hkey⟩, hfound⟩ := hi
    exact ⟨key, hkey, (hobject.yields_ownKey_iff hpoisoned hcount hkey found).mp hfound⟩
  · intro hall
    refine hall.imp fun i found hi => ?_
    obtain ⟨key, hkey, hname⟩ := hi
    exact (hobject.yields_ownKey_iff hpoisoned hcount hkey found).mpr hname

/-- The keys of an object are the texts of their strings. -/
theorem yields_keys_iff {names : List String} :
    (JsObject.keys (objectAt start)).Yields b.heap names ↔
      List.Forall₂ (fun key name => (keyText (.heap (objectAt key))).Yields b.heap name) parts.keys
        names := by
  have hnoElements : (JsObject.elementKeys (objectAt start)).Yields b.heap [] := by
    unfold JsObject.elementKeys
    rw [(hobject.yields_elements hpoisoned).bind_iff,
      (hobject.empty.yields_length hpoisoned (by decide)).bind_iff]
    exact yields_pure.mpr rfl
  have hnames (names : List String) :
      (JsObject.propertyKeys (objectAt start) (objectAt parts.map)).Yields b.heap names ↔
        List.Forall₂ (fun key name => (keyText (.heap (objectAt key))).Yields b.heap name)
          parts.keys names := by
    unfold JsObject.propertyKeys
    rw [(hobject.hasMap.yields_isDictionary hpoisoned hcount).bind_iff, if_neg (by decide),
      (hobject.yields_descriptors hpoisoned).bind_iff]
    dsimp only
    rw [(hobject.hasMap.yields_ownDescriptors hpoisoned hcount).bind_iff, yields_bind]
    simp only [yields_pure, yields_forRange, hobject.forall₂_ownKey_iff hpoisoned hcount]
    constructor
    -- Every descriptor has a name, so none is dropped from the list.
    · rintro ⟨_, ⟨names, hall, rfl⟩, rfl⟩
      rwa [List.filterMap_map, Function.id_comp, List.filterMap_some]
    · intro hall
      refine ⟨_, ⟨names, hall, rfl⟩, ?_⟩
      rw [List.filterMap_map, Function.id_comp, List.filterMap_some]
  unfold JsObject.keys
  rw [(hobject.map.yields_mapOf hpoisoned).bind_iff,
    (hobject.hasMap.yields_checkInObjectRegion hpoisoned hcount).bind_iff, hnoElements.bind_iff,
    yields_bind]
  simp only [yields_pure, List.nil_append, hnames, exists_eq_right]

end HasObject

section

variable {properties : List (String × UInt64)} {parts : Parts} {isLegible : Prop}
  (hobject : b.HasObject start properties parts) (hpoisoned : b.memory.poisoned = [])
  (hlatin : ∀ property ∈ properties, ∀ c ∈ property.1.toList, c.toNat < 256)
  (hstrings : isLegible → properties ≠ [] → IsStringMap ∅ b parts.stringMap)
include hobject hpoisoned hlatin hstrings

/-- The string of each key, unless it is too long, has the key for its text. -/
theorem HasObject.forall₂_keyText : List.Forall₂ (fun property key =>
      isLegible → property.1.length ≤ maxStringUnits →
        (keyText (.heap (objectAt key))).Yields b.heap property.1) properties parts.keys := by
  refine ((List.forall₂_and_left _ _).mpr ⟨fun _ => id, hobject.keys⟩).imp ?_
  rintro property key ⟨hproperty, hstring⟩ hlegible hshort
  exact hstring.yields_keyText (hstrings hlegible (List.ne_nil_of_mem hproperty)) hpoisoned
    (hlatin property hproperty) hshort

/-- What is listed of each property: a string of its key, and its word. -/
theorem HasObject.forall₂_listed : List.Forall₂ (fun property entry =>
      entry.2 = .value (.classify standardLayout property.2) ∧
      (isLegible → property.1.length ≤ maxStringUnits →
        (keyText entry.1).Yields b.heap property.1))
    properties ((properties.zip parts.keys).map listedAs) := by
  refine forall₂_map_zip (hobject.forall₂_keyText hpoisoned hlatin hstrings) ?_
  intro property key htext
  exact ⟨rfl, htext⟩

end

/-- The first entry with a name is that of the first property with it. -/
theorem yields_firstNamed {properties : List (String × UInt64)}
    {entries : List (Value × PropertySlot)} {h : Heap} (value : UInt64 → PropertySlot)
    (hentries : List.Forall₂ (fun property entry => entry.2 = value property.2 ∧
      (keyText entry.1).Yields h property.1) properties entries) (name : String) :
    (JsObject.firstNamed name entries).Yields h
      ((properties.find? (·.1 = name)).map fun property => value property.2) := by
  induction hentries with
  | nil => exact yields_pure.mpr rfl
  | @cons property entry properties entries hentry _ ih =>
    obtain ⟨key, slot⟩ := entry
    obtain ⟨rfl, hkey⟩ := hentry
    rw [JsObject.firstNamed, hkey.bind_iff]
    by_cases heq : property.1 = name
    · rw [if_pos heq, List.find?_cons_of_pos (by simpa using heq)]
      exact yields_pure.mpr rfl
    · rw [if_neg heq, List.find?_cons_of_neg (by simpa using heq)]
      exact ih

/-! ### Built objects -/

/-- What is decoded of an object with no elements and no internal fields: its properties in order,
and, if the map of strings can be made out, their keys as far as none is longer than the decoder
reads. -/
structure Decodes (h : Heap) (object : Address) (properties : List (String × UInt64))
    (isLegible : Prop) : Prop where
  elementsLength : (JsObject.elementsLength object).Yields h 0
  propertiesLength : (JsObject.propertiesLength object).Yields h properties.length
  internalFieldsLength : (JsObject.internalFieldsLength object).Yields h 0
  listed : ∃ entries, (JsObject.properties object none).Yields h entries ∧
    List.Forall₂ (fun property entry =>
      entry.2 = .value (.classify standardLayout property.2) ∧
      (isLegible → property.1.length ≤ maxStringUnits → (keyText entry.1).Yields h property.1))
    properties entries
  keys : isLegible → (∀ property ∈ properties, property.1.length ≤ maxStringUnits) →
    (JsObject.keys object).Yields h (properties.map (·.1))
  /-- The first property with a name is found by it, and none if there is none. -/
  property? : isLegible → (∀ property ∈ properties, property.1.length ≤ maxStringUnits) →
    ∀ name, (JsObject.property? object name).Yields h ((properties.find? (·.1 = name)).map
      fun property => .value (.classify standardLayout property.2))

theorem HasObject.decodes {properties : List (String × UInt64)} {parts : Parts} {isLegible : Prop}
    (hobject : b.HasObject start properties parts) (hpoisoned : b.memory.poisoned = [])
    (hcount : properties.length ≤ 252)
    (hlatin : ∀ property ∈ properties, ∀ c ∈ property.1.toList, c.toNat < 256)
    (hstrings : isLegible → properties ≠ [] → IsStringMap ∅ b parts.stringMap) :
    Decodes b.heap (objectAt start) properties isLegible := by
  have hlisted := hobject.yields_properties hpoisoned hcount
  have hentries := hobject.forall₂_listed hpoisoned hlatin hstrings
  constructor
  case elementsLength => exact hobject.yields_elementsLength hpoisoned
  case propertiesLength => exact hobject.yields_propertiesLength hpoisoned hcount
  case internalFieldsLength => exact hobject.yields_internalFieldsLength hpoisoned hcount
  case listed => exact ⟨_, hlisted, hentries⟩
  case keys =>
    intro hlegible hshort
    have htexts := (List.forall₂_and_left _ _).mpr
      ⟨hshort, hobject.forall₂_keyText hpoisoned hlatin hstrings⟩
    rw [hobject.yields_keys_iff hpoisoned hcount, List.forall₂_map_right_iff]
    exact (htexts.imp fun _ _ htext => htext.2 hlegible htext.1).flip
  case property? =>
    intro hlegible hshort name
    have htexts := (List.forall₂_and_left _ _).mpr ⟨hshort, hentries⟩
    refine hlisted.bind (yields_firstNamed (fun w => .value (.classify standardLayout w))
      (htexts.imp fun _ _ hentry => ?_) name)
    exact ⟨hentry.2.1, hentry.2.2 hlegible hentry.1⟩

/-- **Objects built are objects decoded**, whatever is built before and after; their keys too unless
the map of one-byte strings was mistaken before. -/
theorem decodes_object (earlier later : List Step) (properties : List (String × UInt64))
    (hcount : properties.length ≤ 252)
    (hlatin : ∀ property ∈ properties, ∀ c ∈ property.1.toList, c.toNat < 256)
    (hnext : ((after (object properties) (empty.run earlier)).run later).next ≤ UInt64.size) :
    Decodes ((after (object properties) (empty.run earlier)).run later).heap
      (value (object properties) (empty.run earlier)) properties
      (KeepsStringMap empty earlier) := by
  have htidy : Tidy True ∅ (object properties) := Account.tidy (.objectOfType ..)
  have hgrows := grows_run _ later hnext
  have hfits := hgrows.next_le.trans hnext
  have hbefore := (htidy.next_le (empty.run earlier)).trans hfits
  have hpoisoned := (kept_run empty earlier hbefore).poisoned
  have hkept := htidy.kept_empty _ hfits
  obtain ⟨start, parts, hvalue, hobject, hshared⟩ :=
    object_spec properties (even_run sound_empty.even earlier) hfits
  rw [hvalue]
  -- The parts stand when the object has been built, and are still there at the end.
  refine (hobject.grows hgrows).decodes
    (hgrows.kept.poisoned.trans (hkept.poisoned.trans hpoisoned)) hcount hlatin ?_
  intro hkeeps hne
  have hsound := htidy.sound (sound_empty.run hkeeps hbefore) hfits
  exact (hsound.shares _ (hshared hne)).grows hgrows

/-- An object with two properties of one name, between two strings. -/
theorem decodes_object_twice :
    KeepsStringMap empty [.oneByteString "before"] ∧
      Decodes ((after (object [("a", smallInt 1), ("a", smallInt 2)])
          (empty.run [.oneByteString "before"])).run [.oneByteString "after"]).heap
        (value (object [("a", smallInt 1), ("a", smallInt 2)])
          (empty.run [.oneByteString "before"])) [("a", smallInt 1), ("a", smallInt 2)]
        (KeepsStringMap empty [.oneByteString "before"]) := by
  have hkeeps : KeepsStringMap empty [.oneByteString "before"] := ⟨nofun, trivial⟩
  have hnext : ((after (object [("a", smallInt 1), ("a", smallInt 2)])
      (empty.run [.oneByteString "before"])).run [.oneByteString "after"]).next ≤ UInt64.size := by
    have hone (text : String) (b : Builder) :
        (b.run [.oneByteString text]).next ≤ b.next + (183 + text.length) :=
      next_oneByteString_le text b
    have hbefore := hone "before" empty
    have hobject := next_object_le [("a", smallInt 1), ("a", smallInt 2)]
      (empty.run [.oneByteString "before"])
    have hafter := hone "after" (after (object [("a", smallInt 1), ("a", smallInt 2)])
      (empty.run [.oneByteString "before"]))
    have hempty : empty.next = 0x100000 := rfl
    have hlengths : "a".length = 1 ∧ "before".length = 6 ∧ "after".length = 5 := by decide
    simp only [List.map_cons, List.map_nil, List.sum_cons, List.sum_nil, List.length_cons,
      List.length_nil, hlengths] at hbefore hobject hafter
    rw [UInt64.size]
    omega
  have hlatin : ∀ c ∈ "a".toList, c.toNat < 256 := by
    rw [show "a".toList = ['a'] from rfl, List.forall_mem_singleton]
    decide
  refine ⟨hkeeps, decodes_object _ _ _ (by decide) ?_ hnext⟩
  exact List.forall_mem_cons.mpr ⟨hlatin, List.forall_mem_singleton.mpr hlatin⟩

/-! ### Keys that are not decoded -/

/-- What every round keeps, and the last one turns into what is wanted, holds of the result. -/
theorem of_yields_loop {σ α : Type} {step : σ → HeapM (σ ⊕ α)} {e : Failure} {h : Heap}
    (inv : σ → Prop) (P : α → Prop)
    (hstep : ∀ s s', inv s → (step s).Yields h (.inl s') → inv s')
    (hdone : ∀ s a, inv s → (step s).Yields h (.inr a) → P a) {fuel : ℕ} {s : σ} {a : α}
    (hs : inv s) (ha : (loop step e fuel s).Yields h a) : P a := by
  induction fuel generalizing s with
  | zero =>
    rw [loop_zero] at ha
    exact absurd ha yields_giveUp
  | succ fuel ih =>
    rw [loop_succ] at ha
    obtain ⟨next, hnext, ha⟩ := yields_bind.mp ha
    cases next with
    | inl s' => exact ih (hstep s s' hs hnext) ha
    | inr a' =>
      cases yields_pure.mp ha
      exact hdone s _ hs hnext

/-- The decoder never gives more units than it allows. -/
theorem length_le_of_yields_codeUnits {h : Heap} {string : Address} {units : List UInt16}
    (hunits : (codeUnits string).Yields h units) : units.length ≤ maxStringUnits := by
  refine of_yields_loop (fun p => p.units.size ≤ maxStringUnits)
    (fun units => units.length ≤ maxStringUnits) ?_ ?_ (Nat.zero_le _) hunits
  · rintro ⟨units, - | ⟨s, rest⟩⟩ p' hp hstep
    · cases yields_pure.mp hstep
    · obtain ⟨found, -, hstep⟩ := yields_bind.mp hstep
      dsimp only at hstep
      split at hstep
      case isTrue => exact absurd hstep yields_fail
      case isFalse hle =>
        cases yields_pure.mp hstep
        exact not_lt.mp hle
  · rintro ⟨units, - | ⟨s, rest⟩⟩ found hp hstep
    · cases yields_pure.mp hstep
      exact hp
    · obtain ⟨found', -, hstep⟩ := yields_bind.mp hstep
      dsimp only at hstep
      split at hstep
      case isTrue => exact absurd hstep yields_fail
      case isFalse => cases yields_pure.mp hstep

theorem length_decode_le (units : List UInt16) : (Utf16.decode units).length ≤ units.length := by
  have hreading := Utf16.isReading_decodeUnits (Utf16.withoutMark units)
  rw [Utf16.decode, Utf16.decodeWith, Utf16.replaced, String.length_ofList]
  refine (Nat.le.intro hreading.length_add_pairCount).trans ?_
  cases units with
  | nil => exact le_rfl
  | cons u units =>
    rw [Utf16.withoutMark]
    split
    · exact Nat.le_succ _
    · exact le_rfl

theorem length_le_of_yields_text {h : Heap} {string : Address} {text : String}
    (htext : (JsString.text string).Yields h text) : text.length ≤ maxStringUnits := by
  obtain ⟨units, hunits, htext⟩ := yields_bind.mp htext
  cases yields_pure.mp htext
  exact (length_decode_le units).trans (length_le_of_yields_codeUnits hunits)

theorem length_le_of_yields_keyText {h : Heap} {key : Address} {text : String}
    (htext : (keyText (.heap key)).Yields h text) : text.length ≤ maxStringUnits := by
  unfold keyText at htext
  obtain ⟨isString, -, htext⟩ := yields_bind.mp htext
  cases isString with
  | true => exact length_le_of_yields_text htext
  | false =>
    cases yields_pure.mp htext
    decide

/-- A key of one unit more than the decoder reads. -/
def longKey : String := String.ofList (List.replicate (maxStringUnits + 1) 'a')

theorem not_yields_unsigned {k width : ℕ} {w : UInt64} (hwidth : 0 < width)
    (hnone : b.byte? k = none) : ¬ (HeapM.unsigned ⟨UInt64.ofNat k⟩ width).Yields b.heap w := by
  intro hread
  obtain ⟨width, rfl⟩ := Nat.exists_eq_succ_of_ne_zero hwidth.ne'
  have hfetch : b.memory.fetch ⟨UInt64.ofNat k⟩ (width + 1) = none := by
    rw [SparseMemory.fetch, SparseMemory.collect]
    rw [show b.memory.bytes[UInt64.ofNat k]? = none from hnone]
    exact ite_self none
  have hunsigned : b.heap.image.unsigned? ⟨UInt64.ofNat k⟩ (width + 1) = none := by
    rw [Image.unsigned?]
    show (if isWordWidth (width + 1) then (b.memory.fetch _ _).map _ else none) = none
    rw [hfetch]
    exact ite_self none
  unfold Yields HeapM.unsigned at hread
  rw [hunsigned] at hread
  cases hread

/-- Whether an object is a string is not found where its map does not tell its type. -/
theorem not_yields_isString {map : ℕ} {answer : Bool}
    (hhas : b.Has start (Word.toBytes 8 (objectAt map).word.toNat))
    (hpoisoned : b.memory.poisoned = []) (hnone : b.byte? (map + 12) = none) :
    ¬ (isString (.heap (objectAt start))).Yields b.heap answer := by
  intro hanswer
  obtain ⟨type, htype, -⟩ := yields_bind.mp hanswer
  obtain ⟨found, hfound, htype⟩ := yields_bind.mp htype
  cases hfound.unique (hhas.yields_mapOf hpoisoned)
  have hplace : (fieldAt (objectAt map) .mapInstanceType).Yields b.heap
      ⟨UInt64.ofNat (map + 12)⟩ := yields_fieldAt (value?_standardLayout rfl rfl (by cbv))
  have hstorage : standardLayout.storage .mapInstanceType = .uint16 :=
    storage_standardLayout rfl rfl (by cbv)
  unfold Map.instanceType at htype
  rw [(yields_layout.mpr (layout_heap b)).bind_iff, if_pos (has_standardLayout rfl rfl (by cbv)),
    int, hplace.bind_iff, (yields_layout.mpr (layout_heap b)).bind_iff, hstorage] at htype
  obtain ⟨w, hw, -⟩ := yields_bind.mp htype
  exact not_yields_unsigned (by decide) hnone hw

/-- A string whose map does not tell its type has no text. -/
theorem not_yields_keyText {map : ℕ} {text : String}
    (hhas : b.Has start (Word.toBytes 8 (objectAt map).word.toNat))
    (hpoisoned : b.memory.poisoned = []) (hnone : b.byte? (map + 12) = none) :
    ¬ (keyText (.heap (objectAt start))).Yields b.heap text := by
  intro htext
  obtain ⟨isString, hisString, -⟩ := yields_bind.mp htext
  exact not_yields_isString hhas hpoisoned hnone hisString

theorem byte?_empty (k : ℕ) : empty.byte? k = none := by
  simp [byte?, empty, SparseMemory.empty]

/-- The oddball that goes by the number of one-byte strings, made in a heap without objects, is
taken for their map and does not tell a type. -/
theorem taken_spec : ∃ map,
    (empty.run [.oddball takenKind]).shared[InstanceType.oneByteString]? = some (objectAt map) ∧
      (empty.run [.oddball takenKind]).byte? (map + 12) = none ∧
      map + 12 < (empty.run [.oddball takenKind]).next ∧
      (empty.run [.oddball takenKind]).next ≤ empty.next + 192 := by
  have hnone : empty.shared[-1 - takenKind]? = none := by simp [empty]
  have htidy : Tidy False ∅ (map InstanceType.oddball) := Account.tidy (.map _)
  have hmap := next_map_le InstanceType.oddball empty
  have hempty : empty.next = 0x100000 := rfl
  have hsize : UInt64.size = 2 ^ 64 := rfl
  have hkept := htidy.kept_empty empty (by omega)
  have hlength (w : UInt64) : (Word.toBytes 8 w.toNat).length = 8 := Word.length_toBytes 8 _
  have hkey : -1 - takenKind = InstanceType.oneByteString := by decide
  have hblock : blockBytes 40 = 64 := by decide
  rw [show empty.run [.oddball takenKind] = after (oddball takenKind) empty from rfl,
    after_oddball_none hnone, hkey]
  generalize after (map InstanceType.oddball) empty = b at *
  refine ⟨b.next, Std.HashMap.getElem?_insert_self, ?_, ?_, ?_⟩
  · -- The block has a map and a number, and nothing between the two.
    show (((b.reserve 40).put (b.next + 0) _).put (b.next + 32) _).byte? (b.next + 12) = none
    rw [byte?_put (by rw [hlength]; omega) (by omega), if_neg (by omega),
      byte?_put (by rw [hlength]; omega) (by omega), if_neg (by rw [hlength]; omega)]
    show b.byte? (b.next + 12) = none
    rw [hkept.byte? _ (by omega) (Set.notMem_empty _) (.inr (by omega)), byte?_empty]
  · rw [next_remember, next_fill, next_reserve]
    omega
  · rw [next_remember, next_fill, next_reserve]
    omega

/-- A key that is too long for the decoder is not decoded. -/
theorem not_yields_keys_of_lt {name : String} (hlong : maxStringUnits < name.length)
    (hroom : name.length ≤ 2 ^ 63) :
    ¬ (JsObject.keys (value (object [(name, 0)]) empty)).Yields
      (after (object [(name, 0)]) empty).heap [name] := by
  have htidy : Tidy False ∅ (object [(name, 0)]) := Account.tidy (.objectOfType ..)
  have hempty : empty.next = 0x100000 := rfl
  have hsize : UInt64.size = 2 ^ 64 := rfl
  have hobjectRoom := next_object_le [(name, 0)] empty
  simp only [List.map_cons, List.map_nil, List.sum_cons, List.sum_nil, List.length_cons,
    List.length_nil] at hobjectRoom
  have hnext : (after (object [(name, 0)]) empty).next ≤ UInt64.size := by omega
  have hkept := htidy.kept_empty empty hnext
  obtain ⟨start, parts, hvalue, hobject, -⟩ := object_spec [(name, 0)] sound_empty.even hnext
  rw [hvalue, hobject.yields_keys_iff hkept.poisoned (Nat.le_add_left 1 251)]
  intro hall
  obtain ⟨key, keys, hkey, -, -⟩ := List.forall₂_cons_right_iff.mp hall
  exact absurd (length_le_of_yields_keyText hkey) (not_le.mpr hlong)

/-- **Keys that are not decoded**: the key of an object that is built after the oddball that takes
the place of the map, and a key of more units than the decoder reads. -/
theorem not_yields_keys :
    ¬ (JsObject.keys (value (object [("a", 0)]) (empty.run [.oddball takenKind]))).Yields
        (after (object [("a", 0)]) (empty.run [.oddball takenKind])).heap ["a"] ∧
      ¬ (JsObject.keys (value (object [(longKey, 0)]) empty)).Yields
        (after (object [(longKey, 0)]) empty).heap [longKey] := by
  have htidy (watched : Prop) (properties : List (String × UInt64)) :
      Tidy watched ∅ (object properties) := Account.tidy (.objectOfType ..)
  have hempty : empty.next = 0x100000 := rfl
  have hsize : UInt64.size = 2 ^ 64 := rfl
  constructor
  · -- The keys get the oddball for their map, and it has no byte where maps tell their type.
    obtain ⟨map, hmap, hnone, hlt, hle⟩ := taken_spec
    have heven : 2 ∣ (empty.run [.oddball takenKind]).next := even_run sound_empty.even _
    have hpoisoned : (empty.run [.oddball takenKind]).memory.poisoned = [] :=
      (kept_run empty _ (by omega)).poisoned
    generalize empty.run [.oddball takenKind] = b at *
    have hroom := next_object_le [("a", 0)] b
    simp only [List.map_cons, List.map_nil, List.sum_cons, List.sum_nil, List.length_cons,
      List.length_nil, show "a".length = 1 from rfl] at hroom
    have hnext : (after (object [("a", 0)]) b).next ≤ UInt64.size := by omega
    have hkept := (htidy True [("a", 0)]).kept_empty b hnext
    obtain ⟨start, parts, hvalue, hobject, hshared⟩ := object_spec [("a", 0)] heven hnext
    rw [hvalue, hobject.yields_keys_iff (hkept.poisoned.trans hpoisoned) (by decide)]
    intro hall
    obtain ⟨key, keys, hkey, -, hkeys⟩ := List.forall₂_cons_right_iff.mp hall
    have hstrings := hobject.keys
    rw [hkeys] at hstrings
    obtain ⟨hstring, -⟩ := List.forall₂_cons.mp hstrings
    have hword := hstring.map
    have hsame : some parts.stringMap = some (objectAt map) :=
      (hshared (by decide)).symm.trans (hkept.shared trivial _ hmap)
    rw [Option.some.inj hsame] at hword
    refine not_yields_keyText hword (hkept.poisoned.trans hpoisoned) ?_ hkey
    rw [hkept.byte? _ (by omega) (Set.notMem_empty _) (.inl hlt), hnone]
  · have hlength : longKey.length = maxStringUnits + 1 := by
      rw [longKey, String.length_ofList, List.length_replicate]
    refine not_yields_keys_of_lt (hlength.symm ▸ Nat.lt_succ_self _) ?_
    rw [hlength]
    decide

end Postmortem.Synthetic.Builder
