/-
Postmortem/Heap/Array.lean

Runs of slots.

A fixed array is a length followed by so many slots; every slot is read
through `FixedArray.get`, which refuses an index that is not below the length.
Most collections of the heap are fixed arrays with a meaning of their own.
The array of the language is an object that keeps its elements in one.
-/
import Postmortem.Heap.Map

namespace Postmortem

open HeapM

namespace FixedArray

/-- How many slots a fixed array has. -/
def length (array : Address) : HeapM Nat := count array .fixedArrayLength

/-- What slot `index` holds. -/
def get (array : Address) (index : Nat) : HeapM Value := do
  let length ← length array
  if index < length then slot array .fixedArrayData index
  else fail (.shape (.outsideArray index length array))

/-- What the slot with a computed number holds; `fault` says what a negative number means. -/
def getInt (array : Address) (index : Int) (fault : Int → ShapeFault) : HeapM Value :=
  if index < 0 then fail (.shape (fault index)) else get array index.toNat

end FixedArray

namespace JsArray

/-- How many elements an array has. -/
def length (array : Address) : HeapM Nat := count array .arrayLength

/-- The fixed array that holds the elements. -/
def backing (array : Address) : HeapM Address := pointer array .objectElements

/-- Element `index`. -/
def get (array : Address) (index : Nat) : HeapM Value := do
  FixedArray.get (← backing array) index

end JsArray

end Postmortem
