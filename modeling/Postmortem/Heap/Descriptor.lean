/-
Postmortem/Heap/Descriptor.lean

Descriptor arrays: the properties that all objects with one map have.

A descriptor is a key, a word of details and a value.  The details say where
the property's value is: in the descriptor itself, or in a field of each
object.  Older builds say it by the kind of property, newer ones by a location;
`PropertyStorage.ofDetails` reads both.
-/
import Postmortem.Heap.Array
import Postmortem.Heap.String

namespace Postmortem

open HeapM

/-- Where the value of a property is kept. -/
inductive PropertyStorage where
  /-- In a field. Negative indices count back from the end of the object, the others are slots of
  its properties array. -/
  | field (index : Int) (isDouble : Bool)
  /-- In the descriptor. -/
  | descriptor
  /-- Somewhere else; accessors are such. -/
  | unsupported
  deriving DecidableEq

/-- The bits of a word that a mask selects, shifted down. -/
def detailBits (details : Int) (mask shift : Constant) : HeapM Int := do
  let mask ← constant mask
  let shift ← constant shift
  pure (Word.shiftRight (Word.maskBits details mask) shift)

/-- What a descriptor is kept as: a field, the descriptor's value, or something else. -/
def PropertyStorage.kinds (details : Int) : HeapM (Bool × Bool) := do
  let l ← layout
  if l.has .descriptorLocationMask then
    let location ← detailBits details .descriptorLocationMask .descriptorLocationShift
    pure (l.agrees .descriptorLocationField location,
      l.agrees .descriptorLocationDescriptor location)
  else
    let kind := Word.maskBits details (← constant .descriptorTypeMask)
    pure (l.agrees .descriptorTypeField kind,
      l.agrees .descriptorTypeConstField kind || l.agrees .descriptorTypeConstant kind)

/-- Reads the details of a property of objects with `inObject` properties inside. -/
def PropertyStorage.ofDetails (details inObject : Int) : HeapM PropertyStorage := do
  let (isField, isDescriptor) ← kinds details
  if isDescriptor then pure .descriptor
  else if isField then
    let index ← detailBits details .descriptorIndexMask .descriptorIndexShift
    let representation ←
      detailBits details .descriptorRepresentationMask .descriptorRepresentationShift
    pure (.field (index - inObject)
      ((← layout).agrees .descriptorRepresentationDouble representation))
  else pure .unsupported

/-- A property as its descriptor tells it. -/
structure Descriptor where
  key : Value
  details : Int
  storage : PropertyStorage

/-- The text of a property's key. Keys that are neither strings nor numbers are symbols. -/
def keyText (key : Value) : HeapM String := do
  match key with
  | .smi _ number => pure (toString number)
  | .heap object =>
    if ← isString key then JsString.text object else pure "<non-string>"

namespace DescriptorArray

/-- What a slot of descriptor `index` holds; `part` is the slot's place in it. -/
def part (array : Address) (index : Nat) (part : Constant) : HeapM Value := do
  let part ← constant part
  let first ← constant .descriptorFirstIndex
  let size ← constant .descriptorEntrySize
  FixedArray.getInt array (first + index * size + part) .descriptorSlot

/-- How many descriptors there is room for. -/
def length (array : Address) : HeapM Nat := do
  let slots ← FixedArray.length array
  let first ← constant .descriptorFirstIndex
  let size ← constant .descriptorEntrySize
  pure (((slots : Int) - first).tdiv (max size 1)).toNat

def key (array : Address) (index : Nat) : HeapM Value := part array index .descriptorKeySlot

/-- The value in the descriptor itself. -/
def value (array : Address) (index : Nat) : HeapM Value := part array index .descriptorValueSlot

def details (array : Address) (index : Nat) : HeapM Int := do
  match ← part array index .descriptorDetailsSlot with
  | .smi _ details => pure details
  | .heap object => fail (.shape (.descriptorDetails index object))

/-- Descriptor `index`, of objects with `inObject` properties inside. -/
def entry (array : Address) (index : Nat) (inObject : Int) : HeapM Descriptor := do
  let details ← details array index
  let key ← key array index
  pure ⟨key, details, ← PropertyStorage.ofDetails details inObject⟩

end DescriptorArray

end Postmortem
