/-
Postmortem/Tagged.lean

Tagged words.

Every slot of a heap object holds a small integer or a pointer to another
object, and the tag bits of the word tell which.  `Value.classify` never
fails: a word whose tag bits are those of small integers is one, and every
other word is a pointer.  A small integer keeps its number in the upper bits
of the word; `SmallInt.encode` puts it there.

Frame markers are sometimes stored in a compact form, shifted by one bit
only.  `widenMarker` brings them to the full width, so that both forms of a
marker are the same value.
-/
import Postmortem.Address
import Postmortem.Layout

namespace Postmortem

/-- What a slot holds. -/
inductive Value where
  /-- A small integer: the word, and its number. -/
  | smi (raw : UInt64) (number : Int)
  /-- A pointer to a heap object. -/
  | heap (object : Address)
  deriving DecidableEq, Inhabited

namespace SmallInt

/-- How far up in the word a small integer's number is. -/
def shift (l : Layout) : Nat :=
  let mask := l.raw .smiTagMask
  let size := l.raw .smiShiftSize
  let tagBits := if 0 ≤ mask then Word.popCount (Word.ofInt mask) else 1
  min ((if 0 ≤ size ∧ size < UInt32.size then size.toNat else 0) + tagBits) 63

/-- Whether the tag bits of a word are those of small integers. -/
def check (l : Layout) (raw : UInt64) : Bool :=
  raw &&& Word.ofInt (l.raw .smiTagMask) == Word.ofInt (l.raw .smiTag)

/-- The number in a word. -/
def number (l : Layout) (raw : UInt64) : Int := Word.signed raw >>> shift l

/-- The word of a number. -/
def encode (l : Layout) (number : Int) : UInt64 :=
  (Word.ofInt number <<< UInt64.ofNat (shift l)) ||| Word.ofInt (l.raw .smiTag)

end SmallInt

namespace Value

/-- Reads a word. -/
def classify (l : Layout) (raw : UInt64) : Value :=
  if SmallInt.check l raw then .smi raw (SmallInt.number l raw) else .heap ⟨raw⟩

/-- The word that was read. -/
def raw : Value → UInt64
  | smi raw _ => raw
  | heap object => object.word

/-- The object, for a pointer. -/
def heap? : Value → Option Address
  | smi .. => none
  | heap object => some object

/-- The number, for a small integer. -/
def number? : Value → Option Int
  | smi _ number => some number
  | heap _ => none

theorem raw_classify (l : Layout) (w : UInt64) : (classify l w).raw = w := by
  unfold classify
  split <;> rfl

/-- A compact marker in full width; any other word as it is. -/
def widenMarker (l : Layout) (raw : UInt64) : UInt64 :=
  if l.agrees .smiShiftSize 31 && SmallInt.check l raw && raw < 0x80000000 then raw <<< 31 else raw

/-- Reads a frame marker of either form. -/
def ofMarker (l : Layout) (raw : UInt64) : Value := classify l (widenMarker l raw)

end Value

/-- The address of the byte at `offset` from the start of an object. -/
def Address.field (object : Address) (offset : Int) (l : Layout) : Address :=
  object.offset (offset - l.raw .heapObjectTag)

end Postmortem
