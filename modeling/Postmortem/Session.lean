/-
Postmortem/Session.lean

Sessions.

A session remembers what it was asked, so that the same question is answered
once: nodes by the word and the options, lines of backtraces by the thread and
the frame.  What it remembers holds for one generation of the memory; when the
generation has moved, all of it is forgotten.  Failures are not remembered.

Each question takes the session and the capture as it is at that moment, and
gives the outcome and the session after it.
-/
import Postmortem.Capture
import Std.Data.HashMap

namespace Postmortem

/-- Identity of a line of a backtrace. -/
structure FrameKey where
  thread : Nat
  frame : Nat
  generation : Nat
  deriving DecidableEq, Hashable

structure Session where
  generation : Nat
  nodes : Std.HashMap (Address × Options) Node
  lines : Std.HashMap FrameKey FrameSummary

namespace Session

/-- A session that remembers nothing, of a given generation of memory. -/
def start (generation : Nat) : Session := ⟨generation, ∅, ∅⟩

/-- Forgets everything. -/
def invalidate (s : Session) : Session := start s.generation

/-- Forgets everything if the generation has moved. -/
def sync (s : Session) (c : Capture) : Session :=
  if s.generation = c.heap.image.generation then s else start c.heap.image.generation

/-- An answer and the session after it. -/
abbrev Answer (α : Type) := Outcome α × Session

/-- Asks a question whose answer is not remembered. -/
def ask {α : Type} (s : Session) (c : Capture) (question : HeapM α) : Answer α :=
  (question c.heap, s.sync c)

/-! ### Values -/

/-- Inspects the value of a word. -/
def inspect (s : Session) (c : Capture) (word : Address) (o : Options) : Answer Node :=
  let s := s.sync c
  match s.nodes[(word, o)]? with
  | some node => (.of (.ok node), s)
  | none =>
    let outcome := inspectWord word o c.heap
    match outcome.result with
    | .ok node => (outcome, { s with nodes := s.nodes.insert (word, o) node })
    | .error _ => (outcome, s)

/-- Inspects the value at a typed address. -/
def inspectText (s : Session) (c : Capture) (typed : String) (o : Options) : Answer Node :=
  match Address.parse typed with
  | .ok word => s.inspect c word o
  | .error e => (.of (.error e), s)

/-- The text of the value of a word. -/
def describe (s : Session) (c : Capture) (word : Address) (o : Options) : Answer String :=
  let (outcome, s) := s.inspect c word o
  (outcome.map Node.text, s)

/-- Inspects the value of a word; a failure is reported as well. -/
def report (s : Session) (c : Capture) (word : Address) (o : Options) : Answer Report :=
  let (outcome, s) := s.inspect c word o
  (outcome.caught.map (.of word), s)

def typeName (s : Session) (c : Capture) (word : Address) : Answer String :=
  s.ask c (Postmortem.typeName (.classify c.heap.layout word.word))

def keys (s : Session) (c : Capture) (word : Address) : Answer (List String) :=
  s.ask c (keysOf word)

def stringValue (s : Session) (c : Capture) (word : Address) : Answer String :=
  s.ask c (stringOf word)

/-! ### Frames -/

/-- The line of frame `frame` of a thread, which the walk found to be `f`. -/
def summarize (s : Session) (c : Capture) (thread frame : Nat) (f : Frame) :
    Answer FrameSummary :=
  let key : FrameKey := ⟨thread, frame, s.generation⟩
  match s.lines[key]? with
  | some line => (.of (.ok line), s)
  | none =>
    let outcome := FrameSummary.of f c.heap
    match outcome.result with
    | .ok line => (outcome, { s with lines := s.lines.insert key line })
    | .error _ => (outcome, s)

/-- The line of frame `frame` of a thread. -/
def decodeFrame (s : Session) (c : Capture) (thread frame : Nat) : Answer FrameSummary :=
  let s := s.sync c
  match s.lines[(⟨thread, frame, s.generation⟩ : FrameKey)]? with
  | some line => (.of (.ok line), s)
  | none =>
    match c.threads.frames thread with
    | .error e => (.of (.error e), s)
    | .ok frames =>
      match frames[frame]? with
      | none => (.of (.error (.argument (.noFrame thread frames.length frame))), s)
      | some f => s.summarize c thread frame f

/-- The lines of some frames of a thread, numbered from `index` on. -/
def summarizeAll (s : Session) (c : Capture) (thread : Nat) :
    Nat → List Frame → Answer (List FrameSummary)
  | _, [] => (.of (.ok []), s)
  | index, f :: frames =>
    let (first, s) := s.summarize c thread index f
    match first.result with
    | .error e => (first.failed e, s)
    | .ok line =>
      let (rest, s) := s.summarizeAll c thread (index + 1) frames
      (first.followedBy (rest.map (line :: ·)), s)

/-- A page of a thread's backtrace. -/
def backtrace (s : Session) (c : Capture) (thread current limit : Nat) :
    Answer (Page FrameSummary) :=
  let s := s.sync c
  match c.threads.frames thread with
  | .error e => (.of (.error e), s)
  | .ok frames =>
    let w := Window.of current limit frames.length
    let (lines, s) := s.summarizeAll c thread w.start (w.slice frames)
    (lines.map (⟨·, w⟩), s)

end Session

end Postmortem
