/-
Postmortem/Heap/Object.lean

Objects of the language.

What an object holds is in three places, listed in this order: elements, by
index, in an array of their own; properties, by name, found through the map's
descriptors or in a dictionary; and internal fields, words of the embedder
between the header and the properties that lie inside the object.

A property inside the object is counted back from the object's end, so its
offset depends on the instance size; an offset that is not between the header
and the end is refused.
-/
import Postmortem.Heap.Constructor
import Postmortem.Heap.Descriptor
import Postmortem.Heap.Dictionary

namespace Postmortem

open HeapM

/-- The value of a property as it is stored. -/
inductive PropertySlot where
  | value (v : Value)
  /-- A double without a box. -/
  | double (d : Double)
  /-- A value that is kept in a way not understood; the word of details. -/
  | unsupported (details : Int)

namespace JsObject

/-- The array of the elements. -/
def elements (object : Address) : HeapM Address := pointer object .objectElements

/-- The array of the properties that do not lie inside the object. Objects without any may hold a
number in its place. -/
def properties? (object : Address) : HeapM (Option Address) := do
  pure (← value object .objectProperties).heap?

/-- The dictionary of the properties. -/
def dictionary (object : Address) : HeapM Address := do
  match ← properties? object with
  | some dictionary => pure dictionary
  | none => fail (.shape (.noDictionary object))

/-! ### Counts -/

def elementsLength (object : Address) : HeapM Nat := do
  FixedArray.length (← elements object)

def propertiesLength (object : Address) : HeapM Nat := do
  let map ← Map.of object
  if ← Map.isDictionary map then NameDictionary.liveCount (← dictionary object)
  else Map.ownDescriptors map

/-- How many internal fields there are. Only ordinary objects have any. -/
def internalFieldsLength (object : Address) : HeapM Nat := do
  let map ← Map.of object
  let type ← Map.instanceType map
  if (← layout).isPlainObject type then
    let size ← Map.instanceSize map
    if size = 0 then pure 0
    else
      let slot : Int := ← pointerSize
      let stop := size - (← Map.inObjectProperties map) * slot
      let start ← constant .objectInternalFields
      pure ((stop - start).tdiv slot).toNat
  else pure 0

/-! ### Fields -/

/-- The words of the internal fields that a window covers. -/
def internalFields (object : Address) (w : Window) : HeapM (List Address) :=
  forRange w.start (fun index => do
    let offset := (← constant .objectInternalFields) + index * (← pointerSize)
    pure ⟨← word (← fieldAddress object offset)⟩) w.length

/-- Where field `index` of an object is, whose instances have `size` bytes. -/
def fieldPlace (object : Address) (index size : Int) (properties : Option Address) :
    HeapM Address := do
  let slot : Int := ← pointerSize
  if index < 0 then
    let offset := size + index * slot
    let header ← constant .objectInternalFields
    if offset < header ∨ size ≤ offset then
      fail (.shape (.outsideObject offset header size object))
    else fieldAddress object offset
  else
    match properties with
    | none => fail (.shape (.noProperties index object))
    | some properties =>
      let length ← FixedArray.length properties
      if index < length then
        fieldAddress properties ((← constant .fixedArrayData) + index * slot)
      else fail (.shape (.outsideProperties index length))

/-! ### Properties -/

/-- The property that descriptor `index` tells of. -/
def describedProperty (object descriptors : Address) (inObject size : Int)
    (properties : Option Address) (index : Nat) : HeapM (Value × PropertySlot) := do
  let entry ← DescriptorArray.entry descriptors index inObject
  match entry.storage with
  | .descriptor => do pure (entry.key, .value (← DescriptorArray.value descriptors index))
  | .unsupported => pure (entry.key, .unsupported entry.details)
  | .field index isDouble =>
    let place ← fieldPlace object index size properties
    if isDouble then do pure (entry.key, .double (← doubleAt place))
    else do pure (entry.key, .value (← valueAt place))

/-- The properties at the positions of a window, or all of them. -/
def properties (object : Address) (window : Option Window) :
    HeapM (List (Value × PropertySlot)) := do
  let map ← Map.of object
  Map.checkInObjectRegion map
  if ← Map.isDictionary map then
    let entries ← NameDictionary.entries (← dictionary object) window
    pure (entries.map fun entry => (entry.1, .value entry.2))
  else
    match ← Map.descriptors map with
    | none => pure []
    | some descriptors =>
      let own ← Map.ownDescriptors map
      let inObject ← Map.inObjectProperties map
      let size ← Map.instanceSize map
      let outside ← properties? object
      let property := describedProperty object descriptors inObject size outside
      match window with
      | none => forRange 0 property own
      | some w => forRange w.start property w.length

/-- The first of some properties whose key has the given text. -/
def firstNamed (name : String) :
    List (Value × PropertySlot) → HeapM (Option PropertySlot)
  | [] => pure none
  | (key, slot) :: rest => do
    if (← keyText key) = name then pure (some slot) else firstNamed name rest

/-- The property with a given key text, if there is one. -/
def property? (object : Address) (name : String) : HeapM (Option PropertySlot) := do
  firstNamed name (← properties object none)

/-! ### Keys -/

/-- The indices of the elements that are not holes. -/
def elementKeys (object : Address) : HeapM (List String) := do
  let elements ← elements object
  let keys ← forRange 0 (fun index => do
    pure (if ← isHole (← FixedArray.get elements index) then none else some (toString index)))
    (← FixedArray.length elements)
  pure (keys.filterMap id)

/-- The key of a property that the object holds, as opposed to its descriptor. -/
def ownKey? (descriptors : Address) (index : Nat) : HeapM (Option String) := do
  let entry ← DescriptorArray.entry descriptors index 0
  match entry.storage with
  | .field .. => do pure (some (← keyText entry.key))
  | .descriptor | .unsupported => pure none

/-- The names of the properties that are kept in fields or in a dictionary. -/
def propertyKeys (object map : Address) : HeapM (List String) := do
  if ← Map.isDictionary map then
    let entries ← NameDictionary.entries (← dictionary object) none
    entries.mapM fun entry => keyText entry.1
  else
    match ← Map.descriptors map with
    | none => pure []
    | some descriptors =>
      let keys ← forRange 0 (ownKey? descriptors) (← Map.ownDescriptors map)
      pure (keys.filterMap id)

/-- The keys of an object: elements that are not holes, then names. -/
def keys (object : Address) : HeapM (List String) := do
  let map ← Map.of object
  Map.checkInObjectRegion map
  let indices ← elementKeys object
  pure (indices ++ (← propertyKeys object map))

end JsObject

end Postmortem
