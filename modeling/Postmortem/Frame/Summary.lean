/-
Postmortem/Frame/Summary.lean

Lines of a backtrace.

Every frame has a line.  Native frames show their symbol, module and place;
managed ones what the frame was found to be, and three question marks if it
could not be found out.
-/
import Postmortem.Frame
import Postmortem.Frame.Managed

namespace Postmortem

/-- What a line of a backtrace shows. -/
inductive FrameView where
  | native (function : String) (module place : Option String)
  | call (call : Call)
  | stub (kind : StubKind)
  /-- A managed frame that could not be read. -/
  | unreadable

/-- A line of a backtrace. -/
structure FrameSummary where
  index : Nat
  pc : Address
  fp : Address
  view : FrameView

namespace FrameView

/-- What sort of frame it is. -/
def sort : FrameView → String
  | native .. => "native"
  | call _ | stub _ | unreadable => "js"

/-- The kind of frame, as readers see it. -/
def name : FrameView → String
  | native .. => "Native"
  | call _ => "JavaScript"
  | stub _ => "Unknown"
  | unreadable => "???"

def function : FrameView → String
  | native function _ _ => function
  | call c => c.name
  | stub kind => kind.label
  | unreadable => "???"

/-- The fields that only some frames have. -/
def fields : FrameView → List (String × Document)
  | native _ module place =>
    Document.optional "module" .text module ++ Document.optional "compile_unit" .text place
  | call c =>
    [("context", c.receiver.document), ("arguments", .list (c.arguments.map Node.document)),
      ("line", .text c.location), ("func_addr", c.function.document)]
  | stub _ | unreadable => []

end FrameView

namespace FrameSummary

/-- The line of a frame in native code. -/
def ofNative (f : Frame) : FrameSummary :=
  ⟨f.index, f.pc, f.fp,
    .native ((f.symbol.map SymbolName.text).getD "") f.module (f.location.map SourceLocation.text)⟩

/-- The line of a managed frame, from what was found out about it. -/
def ofManaged (f : Frame) (found : Except Failure ManagedFrame) : FrameSummary :=
  ⟨f.index, f.pc, f.fp,
    match found with
    | .ok (.call c) => .call c
    | .ok (.stub kind) => .stub kind
    | .error _ => .unreadable⟩

/-- The line of a frame. -/
def of (f : Frame) : HeapM FrameSummary := do
  if f.isNative then pure (ofNative f)
  else do pure (ofManaged f (← HeapM.attempt (ManagedFrame.of f.fp)))

def document (s : FrameSummary) : Document :=
  .record
    ([("frame_index", .nat s.index), ("type", .text s.view.sort), ("name", .text s.view.name),
      ("function", .text s.view.function), ("pc", s.pc.document), ("fp", s.fp.document)]
      ++ s.view.fields)

end FrameSummary

end Postmortem
