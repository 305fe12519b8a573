/-
Postmortem/Frame.lean

Frames of a stack.

A frame record is two words at the frame pointer: the caller's frame pointer
and the address that the call returns to.  `Frame.walk` follows the records up
the stack.  The stack grows down, so a caller's frame pointer is larger than
its callee's; the walk stops where it is not, where a record cannot be read,
and after `Frame.maxFrames` frames in any case.
-/
import Postmortem.Image
import Postmortem.Symbol
import Postmortem.Thread

namespace Postmortem

/-- A frame as the walk finds it, with what is known of the code it runs. -/
structure Frame where
  /-- Its place on the stack; the innermost frame is the first. -/
  index : Nat
  pc : Address
  fp : Address
  symbol : Option SymbolName
  /-- The file that the code comes from. -/
  module : Option String
  location : Option SourceLocation
  deriving DecidableEq

namespace Frame

/-- A frame of which nothing else is known. -/
def bare (index : Nat) (pc fp : Address) : Frame := ⟨index, pc, fp, none, none, none⟩

/-- Native code comes from a file; other code was made by the process itself. -/
def isNative (f : Frame) : Bool := f.symbol.isSome || f.module.isSome

def document (f : Frame) : Document :=
  .record
    [("index", .nat f.index), ("pc", .text f.pc.text), ("fp", .text f.fp.text),
     ("symbol", .nullable SymbolName.document f.symbol), ("module", .nullable .text f.module),
     ("location", .nullable SourceLocation.document f.location)]

/-- No stack has more frames than this. -/
def maxFrames : Nat := 512

/-- The return address and the frame pointer of the caller of the frame at `fp`, if the record
there makes sense. -/
def caller? (m : Image) (fp : Address) : Option (Address × Address) := do
  guard !fp.isNull
  let slot ← fp.checkedAdd? 8
  let callerFp : Address := ⟨← m.word? fp⟩
  let pc : Address := ⟨← m.word? slot⟩
  guard (fp.word < callerFp.word && !pc.isNull)
  pure (pc, callerFp)

/-- At most `count` callers of the frame at `fp`, numbered from `index` on. -/
def callers (m : Image) : Nat → Nat → Address → List Frame
  | 0, _, _ => []
  | count + 1, index, fp =>
    match caller? m fp with
    | none => []
    | some (pc, fp) => bare index pc fp :: callers m count (index + 1) fp

/-- The frames of a thread with the given registers, innermost first. -/
def walk (m : Image) (r : Registers) : List Frame :=
  bare 0 r.pc r.fp :: callers m (maxFrames - 1) 1 r.fp

end Frame

end Postmortem
