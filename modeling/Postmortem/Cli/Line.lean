/-
Postmortem/Cli/Line.lean

Threads and frames in lines.
-/
import Postmortem.Frame.Summary
import Postmortem.Path

namespace Postmortem.Cli

/-- A thread in a line. -/
def threadLine (t : ThreadInfo) : String :=
  s!"* thread #{t.index}: tid = {t.id}, {t.registers.pc}"
    ++ (t.stopSignal.map fun signal => s!", stop reason = signal {signal}").getD ""

/-- What a frame is, in a line. -/
def viewText : FrameView → String
  | .native function module place =>
    (module.map fun m => Path.behindSlash m ++ "`").getD ""
      ++ function ++ (place.map (" at " ++ ·)).getD ""
  | .call c =>
    let shown := s!"this={c.receiver.text}" :: c.arguments.map Node.text
    s!"{c.name}(" ++ ", ".intercalate shown ++ s!") at {c.location} fn={c.function}"
  | .stub kind => kind.label
  | .unreadable => (FrameView.unreadable).function

/-- A frame in a line. -/
def frameLine (f : FrameSummary) : String := s!"frame #{f.index}: {f.pc} " ++ viewText f.view

/-- The lines of frames; the innermost frame of a thread is marked. -/
def frameLines : List FrameSummary → List String
  | [] => []
  | f :: fs =>
    ((if f.index = 0 then "  * " else "    ") ++ frameLine f)
      :: fs.map fun f => "    " ++ frameLine f

/-- A page of a thread's frames, in lines. -/
def backtraceLines (thread : Nat) (p : Page FrameSummary) : List String :=
  [s!" * thread #{thread}"] ++ frameLines p.items
    ++ [s!"frame_end: {p.next}, frames_left: {p.window.remaining}"]

end Postmortem.Cli
