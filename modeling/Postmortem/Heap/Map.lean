/-
Postmortem/Heap/Map.lean

Maps and what they say.

The first slot of every heap object points to its map, and the map says what
kind of object it is: its instance type, the size of the instance, how many
of the properties lie inside it, and where the descriptions of the properties
are.  Newer builds keep small numbers packed in one word, `bitField3`.

Like every kind of object, a map is read through its tagged address; the
functions of this namespace are the reads.
-/
import Postmortem.Heap

namespace Postmortem

open HeapM

namespace Map

/-- The map of an object. -/
def of (object : Address) : HeapM Address := do
  pure ⟨← fieldWord object .heapObjectMap⟩

/-- The instance type; older builds keep it in the low byte of the attributes. -/
def instanceType (map : Address) : HeapM Int := do
  if (← layout).has .mapInstanceType then int map .mapInstanceType
  else do pure (Word.maskBits (← int map .mapInstanceAttributes) 0xff)

def bitField3 (map : Address) : HeapM Int := int map .mapBitField3

/-- How many descriptors belong to this map. -/
def ownDescriptors (map : Address) : HeapM Nat := do
  let mask ← constant .mapOwnDescriptorsMask
  let shift ← constant .mapOwnDescriptorsShift
  pure (Word.shiftRight (Word.maskBits (← bitField3 map) mask) shift).toNat

/-- Whether objects with this map keep their properties in a dictionary. -/
def isDictionary (map : Address) : HeapM Bool := do
  let shift ← constant .mapDictionaryMapShift
  pure (Word.shiftRight (← bitField3 map) shift % 2 == 1)

/-- The size of an instance in slots. -/
def instanceSlots (map : Address) : HeapM Int := int map .mapInstanceSize

/-- The size of an instance in bytes. -/
def instanceSize (map : Address) : HeapM Int := do
  let slots ← instanceSlots map
  pure (slots * (← pointerSize))

/-- How many properties lie in the instance itself. They are at its end, and builds tell their
number or the slot of the first one. -/
def inObjectProperties (map : Address) : HeapM Int := do
  let c := (← layout).inObjectConstant
  let number ← int map c
  if c = .mapInObjectStart then do pure ((← instanceSlots map) - number) else pure number

/-- Refuses a map whose in-object properties do not fit between the header and the end of the
instance. A build that does not tell enough is not checked. -/
def checkInObjectRegion (map : Address) : HeapM Unit := do
  let l ← layout
  if l.has l.inObjectConstant && l.has .mapInstanceSize && l.has .objectInternalFields then
    let header ← constant .objectInternalFields
    let size ← instanceSize map
    let count ← inObjectProperties map
    if count < 0 ∨ (0 < count ∧ size - header < count * l.pointerSize) then
      fail (.shape (.inObjectRegion map count size))

/-- The descriptors of the properties; a map without any may hold a number in their place. -/
def descriptors (map : Address) : HeapM (Option Address) := do
  pure (← value map .mapDescriptors).heap?

end Map

/-! ### Types of objects -/

/-- The instance type of an object. -/
def typeId (object : Address) : HeapM Int := do
  Map.instanceType (← Map.of object)

/-- Whether `v` is an object of the type that a constant names. -/
def isType (v : Value) (type : Constant) : HeapM Bool := do
  match v with
  | .heap object =>
    if (← layout).has type then
      let id ← typeId object
      pure ((← layout).agrees type id)
    else pure false
  | .smi .. => pure false

/-- Whether `v` is a string. -/
def isString (v : Value) : HeapM Bool := do
  match v with
  | .heap object =>
    let id ← typeId object
    pure ((← layout).isString id)
  | .smi .. => pure false

end Postmortem
