/-
Postmortem/Heap/Constructor.lean

The constructors of objects.

A map names the function that makes objects with it, or, if it was derived
from another map, that map.  Chains of maps are short; a longer one is damaged,
and where the search stops then is what counts as the constructor.
-/
import Postmortem.Heap.Function

namespace Postmortem

open HeapM

namespace Map

/-- How many maps are followed in search of a constructor. -/
def maxBackPointers : Nat := 64

/-- Follows at most `steps` maps from what was found in the constructor slot of one. -/
def constructorFrom : Nat → Value → HeapM Value
  | 0, found => pure found
  | steps + 1, found => do
    match ← isType found .typeMap, found with
    | true, .heap map => do constructorFrom steps (← value map .mapConstructor)
    | _, _ => pure found

/-- The constructor of objects with this map. -/
def constructor (map : Address) : HeapM Value := do
  constructorFrom maxBackPointers (← value map .mapConstructor)

/-- The name of the constructor, if it is a function. -/
def constructorName? (map : Address) : HeapM (Option String) := do
  let found ← constructor map
  match ← isType found .typeJsFunction, found with
  | true, .heap function => do pure (some (← JsFunction.name function))
  | _, _ => pure none

end Map

/-- The name of the constructor of an object, if it has one. -/
def constructorName? (object : Address) : HeapM (Option String) := do
  Map.constructorName? (← Map.of object)

end Postmortem
