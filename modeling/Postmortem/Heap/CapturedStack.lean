/-
Postmortem/Heap/CapturedStack.lean

The stack that an error remembers.

An error keeps the frames of its origin in an array under a private symbol.
The symbol has no name after the fact, so the array is known by its shape: it
is the first value under a key that is no string, and its length fits.  Newer
arrays begin with the number of frames and take five slots a frame; older ones
begin with zero and take four.  Whatever else is found there is no stack, and
no failure either.
-/
import Postmortem.Heap.Object

namespace Postmortem

open HeapM

/-- The array of a captured stack. -/
structure CapturedStack where
  array : Address
  /-- How many frames there are. -/
  frames : Nat
  /-- How many slots a frame takes. -/
  stride : Nat

namespace CapturedStack

/-- The key text of private symbols. -/
def symbolKey : String := "<non-string>"

/-- How many slots the array of `count` frames has by the newer convention, as signed words compute
it. -/
def countedLength (count : Int) : Int := Word.signed (Word.ofInt (count * 5 + 1))

/-- The frames and the stride of an array of `length` slots that begins with `count`. -/
def shape? (count length : Int) : Option (Nat × Nat) :=
  if countedLength count = length then some (count.toNat, 5)
  else if count ≠ 0 ∨ length < 1 ∨ (length - 1) % 4 ≠ 0 then none
  else some (((length - 1) / 4).toNat, 4)

/-- The captured stack in an array. -/
def ofArray (array : Address) : HeapM CapturedStack := do
  let length : Int := ← JsArray.length array
  match ← JsArray.get array 0 with
  | .heap _ => fail (.shape .stackWithoutCount)
  | .smi _ count =>
    match shape? count length with
    | some (frames, stride) => pure ⟨array, frames, stride⟩
    | none => fail (.shape (.stackShape count length))

/-- The captured stack under the first symbol of an object; fails if something else is there. -/
def ofObject (object : Address) : HeapM (Option CapturedStack) := do
  match ← JsObject.property? object symbolKey with
  | some (.value found) =>
    match ← isType found .typeJsArray, found with
    | true, .heap array => do pure (some (← ofArray array))
    | _, _ => fail (.shape .stackNotArray)
  | _ => pure none

/-- The captured stack of an object, if it has one. -/
def locate (object : Address) : HeapM (Option CapturedStack) := do
  match ← attempt (ofObject object) with
  | .ok stack => pure stack
  | .error _ => pure none

/-- What stands in the function slot of a frame. -/
def function (s : CapturedStack) (frame : Nat) : HeapM Value :=
  JsArray.get s.array (2 + frame * s.stride)

end CapturedStack

end Postmortem
