/-
Postmortem/Heap/Buffer.lean

Buffers and the views onto them.

A buffer that was given away, a neutered one, has no bytes any more: nothing
behind the flag is read.  The bytes of a small view may lie in the heap; then
the buffer has no store, and they are where the view's elements say, at a base
plus an external pointer.
-/
import Postmortem.Heap

namespace Postmortem

open HeapM

namespace ArrayBuffer

/-- Whether the buffer was given away; builds that do not tell have no such buffers. -/
def isNeutered (buffer : Address) : HeapM Bool := do
  if (← layout).has .bufferWasNeuteredMask then
    let bits ← int buffer .bufferBitField
    pure (Word.maskBits bits (← constant .bufferWasNeuteredMask) != 0)
  else pure false

/-- Where the bytes are; null if the buffer has no store yet. -/
def backingStore (buffer : Address) : HeapM Address := do
  pure ⟨← fieldWord buffer .bufferBackingStore⟩

def byteLength (buffer : Address) : HeapM Nat := count buffer .bufferByteLength

end ArrayBuffer

namespace ArrayBufferView

def buffer (view : Address) : HeapM Address := pointer view .viewBuffer

def byteOffset (view : Address) : HeapM Nat := count view .viewByteOffset

def byteLength (view : Address) : HeapM Nat := count view .viewByteLength

/-- Where the bytes of the view's buffer are. -/
def store (view buffer : Address) : HeapM Address := do
  let store ← ArrayBuffer.backingStore buffer
  if store.isNull then
    let elements ← pointer view .objectElements
    let base ← fieldWord elements .fixedTypedArrayBasePointer
    pure ⟨base + (← fieldWord elements .fixedTypedArrayExternalPointer)⟩
  else pure store

end ArrayBufferView

end Postmortem
