/-
Postmortem/Proofs/Listing.lean

Heaps written down as lists: the constants of the build, and the blocks of memory
that were captured.  Lists compute, so what such a heap yields is decided by
evaluation.
-/
import Postmortem.Heap
import Postmortem.Options

namespace Postmortem.Synthetic

/-- The layout of a build that has just the listed constants, and stores every field the way its
newest spelling says. -/
def listedLayout (constants : List (Constant × Int)) : Layout :=
  ⟨(Constant.all.map fun c => ⟨constants.lookup c, c.canonical.storage⟩).toArray⟩

theorem value?_listedLayout (constants : List (Constant × Int)) (c : Constant) :
    (listedLayout constants).value? c = constants.lookup c := by
  simp [listedLayout, Layout.value?, Layout.entry, Constant.all_ctorIdx]

/-- The part of a block that a request for `n` bytes at `a` falls into. -/
def blockPart (a : Address) (n : Nat) (block : Address × List UInt8) : Option (List UInt8) :=
  let skipped := a.word.toNat - block.1.word.toNat
  if block.1.word ≤ a.word ∧ skipped + n ≤ block.2.length then
    some ((block.2.drop skipped).take n)
  else none

theorem length_blockPart {a : Address} {n : Nat} {block : Address × List UInt8}
    {bytes : List UInt8} (hpart : blockPart a n block = some bytes) : bytes.length = n := by
  unfold blockPart at hpart
  dsimp only at hpart
  split at hpart
  case isTrue hle =>
    cases hpart
    rw [List.length_take, List.length_drop]
    omega
  case isFalse => cases hpart

/-- The image that captured the listed blocks. -/
def listedImage (blocks : List (Address × List UInt8)) : Image where
  generation := 0
  fetch := fun a n => blocks.findSome? (blockPart a n)
  length_fetch := by
    intro a n bytes hfetch
    obtain ⟨block, -, hpart⟩ := List.exists_of_findSome?_eq_some hfetch
    exact length_blockPart hpart

/-- The bytes of slots that hold the given words. -/
def wordsBytes (words : List Nat) : List UInt8 := words.flatMap (Word.toBytes 8)

/-- The word of a small integer. -/
def smiWord (n : Nat) : Nat := n <<< 32

/-- Details of a value, and a line for each value inside. -/
def shallowOptions : Options := { Options.default with detailed := true }

/-! ### Flat strings and arrays -/

/-- What a build tells of flat strings of one-byte units, and of arrays. -/
def flatConstants : List (Constant × Int) := [
  (.smiTag, 0), (.smiTagMask, 1), (.smiShiftSize, 31), (.heapObjectTag, 1), (.heapObjectMap, 0),
  (.mapInstanceType, 12), (.typeFirstNonstring, 128), (.typeFixedArray, 134),
  (.fixedArrayLength, 8), (.fixedArrayData, 16), (.stringRepresentationMask, 7),
  (.stringEncodingMask, 8), (.stringOneByteTag, 8), (.stringSeqTag, 0), (.stringLength, 12),
  (.stringOneByteChars, 16)]

/-- The first bytes of a string: the address of its map, and behind a gap how long it is. -/
def headerBytes (map length : Nat) : List UInt8 :=
  Word.toBytes 8 map ++ Word.toBytes 4 0 ++ Word.toBytes 4 length

end Postmortem.Synthetic
