/-
Postmortem/Frame/Managed.lean

Frames of managed code.

Three slots below the frame pointer tell what a frame is.  A marker in the
context slot tells an adaptor; a marker in the marker slot tells one of the
runtime's own frames; otherwise the function slot tells the function, and the
receiver and the arguments stand above the frame pointer, the last argument
first.  A marker that is neither known nor a function's is refused.
-/
import Postmortem.Inspection
import Postmortem.Node.Document

namespace Postmortem

open HeapM

/-- The runtime's own frames. -/
inductive StubKind where
  | adaptor
  | entry
  | entryConstruct
  | exit
  | internal
  | construct
  | stub
  /-- The function slot holds code. -/
  | internalCode
  /-- The function slot holds something that is no function. -/
  | nonFunction
  deriving DecidableEq

def StubKind.label : StubKind → String
  | adaptor => "<adaptor>"
  | entry => "<entry>"
  | entryConstruct => "<entry_construct>"
  | exit => "<exit>"
  | internal => "<internal>"
  | construct => "<constructor>"
  | stub => "<stub>"
  | internalCode => "<internal code>"
  | nonFunction => "<non-function>"

/-- A call of a function. -/
structure Call where
  function : Address
  name : String
  location : String
  receiver : Node
  arguments : List Node

/-- What a managed frame is. -/
inductive ManagedFrame where
  | stub (kind : StubKind)
  | call (call : Call)

namespace Call

/-- The call in a line. -/
def text (c : Call) : String :=
  let shown := s!"this={c.receiver.nestedText}" :: c.arguments.map Node.nestedText
  s!"{c.name}(" ++ ", ".intercalate shown ++ s!") at {c.location} fn={c.function}"

def document (c : Call) : Document :=
  .record
    [("function", .text c.function.text), ("name", .text c.name), ("location", .text c.location),
     ("receiver", c.receiver.document), ("arguments", .list (c.arguments.map Node.document))]

end Call

namespace ManagedFrame

/-- The name of the function, or of the runtime's frame. -/
def label : ManagedFrame → String
  | stub kind => kind.label
  | call c => c.name

def text : ManagedFrame → String
  | stub kind => kind.label
  | call c => c.text

/-- The address of the slot at the offset that a constant gives. -/
def slotAddress (fp : Address) (offset : Constant) : HeapM Address := do
  pure (fp.offset (← constant offset))

/-- The marker in a slot. -/
def markerAt (fp : Address) (offset : Constant) : HeapM Value := do
  let raw ← word (← slotAddress fp offset)
  pure (.ofMarker (← layout) raw)

/-- The frames that a marker tells. -/
def marked : List (Constant × StubKind) :=
  [(.frameEntry, .entry), (.frameEntryConstruct, .entryConstruct), (.frameExit, .exit),
   (.frameInternal, .internal), (.frameConstruct, .construct), (.frameStub, .stub)]

/-- The frame that a marker tells; none if the function slot does. -/
def ofMarker (marker : Int) : HeapM (Option StubKind) := do
  let l ← layout
  match marked.find? fun entry => l.agrees entry.1 marker with
  | some (_, kind) => pure (some kind)
  | none =>
    if l.agrees .frameJavascript marker || l.agrees .frameOptimized marker then pure none
    else fail (.shape (.marker marker))

/-- The runtime's frame that the slots tell; none if the function slot tells. -/
def ofMarkers (fp : Address) : HeapM (Option StubKind) := do
  let context ← markerAt fp .frameContext
  let l ← layout
  if context.number?.any (l.agrees .frameAdaptor) then pure (some .adaptor)
  else
    match (← markerAt fp .frameMarker).number? with
    | some marker => ofMarker marker
    | none => pure none

/-- The call of a function in the frame at `fp`. -/
def ofFunction (fp function : Address) : HeapM Call := do
  let shared ← JsFunction.shared function
  let count := (← SharedInfo.parameterCount shared).toNat
  let arguments ← slotAddress fp .frameArgs
  let size ← pointerSize
  let receiver ← valueAt (arguments.offset (count * size : Nat))
  let receiver ← inspect receiver .default
  let shown ← forRange 0 (fun index => do
    let argument ← valueAt (arguments.offset ((count - index - 1) * size : Nat))
    inspect argument .default) count
  let name ← SharedInfo.properName shared
  pure ⟨function, name, ← SharedInfo.location shared, receiver, shown⟩

/-- What the frame at `fp` is. -/
def of (fp : Address) : HeapM ManagedFrame := do
  match ← ofMarkers fp with
  | some kind => pure (.stub kind)
  | none =>
    match ← valueAt (← slotAddress fp .frameFunction) with
    | .smi .. => pure (.stub .nonFunction)
    | .heap function =>
      let type ← typeId function
      let l ← layout
      if l.agrees .typeCode type then pure (.stub .internalCode)
      else if l.agrees .typeJsFunction type then do pure (.call (← ofFunction fp function))
      else pure (.stub .nonFunction)

end ManagedFrame

end Postmortem
