/-
Postmortem/Cli.lean

Running a command line.

A run ends with an exit code and what it says on its two outputs.  Answers go
to the first output, faults to the second; a value that cannot be inspected
is an answer, but the run counts as failed.
-/
import Postmortem.Cli.Invocation
import Postmortem.Cli.Line
import Postmortem.Directory
import Postmortem.Session
import Postmortem.Target

namespace Postmortem.Cli

/-- How a run ends. -/
structure Ending where
  exit : Nat
  out : String
  err : String

namespace Ending

/-- A run that answers. -/
def answer (text : String) : Ending := ⟨0, text ++ "\n", ""⟩

/-- A run that answers line by line. -/
def lines (texts : List String) : Ending := ⟨0, String.join (texts.map (· ++ "\n")), ""⟩

/-- A run that fails. -/
def fault (message : String) : Ending := ⟨1, "", s!"Error: {message}\n"⟩

/-- How a command line that is not run ends. -/
def refused : Refusal → Ending
  | .usage => ⟨2, "", "error: the arguments do not fit\n"⟩
  | .help => answer ("Usage: hindsight [--log-level <LEVEL>] <CORE> <EXECUTABLE> <"
      ++ "|".intercalate commandNames ++ ">")
  | .version => answer "hindsight 0.0.0"

end Ending

/-- What is left to do when a question has been answered. -/
inductive Response where
  | finish (e : Ending)
  /-- A text goes to a file. -/
  | save (path text : String)

/-! ### Commands -/

/-- What a question about the value at a typed address comes to. -/
def asking {α : Type} (typed : String) (ask : Address → Session.Answer α)
    (respond : α → Response) : Response :=
  match Address.parse typed with
  | .error e => .finish (.fault e.message)
  | .ok word =>
    match (ask word).1.result with
    | .error e => .finish (.fault e.message)
    | .ok a => respond a

/-- A report, as text where there is a node and text is wanted. -/
def reportEnding (json : Bool) : Report → Ending
  | .found node =>
    if json then .answer (Report.found node).document.pretty else .answer node.text
  | .failed word => { Ending.answer (Report.failed word).document.pretty with exit := 1 }

/-- What a command comes to, on a captured process. -/
def respond (c : Capture) : Command → Response :=
  let s := Session.start c.heap.image.generation
  fun
  | .inspect address options json =>
    asking address (s.report c · options) fun report => .finish (reportEnding json report)
  | .threads json =>
    .finish <|
      if json then .answer (Document.list (c.threads.infos.map ThreadInfo.document)).pretty
      else .lines (c.threads.infos.map threadLine)
  | .backtrace thread current limit json =>
    match (s.backtrace c thread current limit).1.result with
    | .error e => .finish (.fault e.message)
    | .ok page =>
      .finish <|
        if json then .answer (page.document FrameSummary.document).pretty
        else .lines (backtraceLines thread page)
  | .typeName address => asking address (s.typeName c) fun name => .finish (.answer name)
  | .keys address => asking address (s.keys c) fun keys => .finish (.lines keys)
  | .exportString address file => asking address (s.stringValue c) fun text => .save file text

/-! ### Runs -/

section

variable {m : Type → Type} [Monad m]

/-- Makes the log file that the environment names. -/
def openLog (files : Files m) (path : String) : m (Except LogFault Unit) := do
  match ← files.makeDirectory (Path.parent path) with
  | .error fault => pure (.error (.file fault))
  | .ok () =>
    match Path.fileName? path with
    | none => pure (.error (.unnamedFile path))
    | some name =>
      match ← files.touch (Path.parent path ++ "/" ++ String.ofList name) with
      | .error fault => pure (.error (.file fault))
      | .ok () => pure (.ok ())

/-- Starts logging as the environment says.  With a level given, the format is not looked at. -/
def startLog (files : Files m) (environment : String → Option String) (level : Option LogLevel) :
    m (Except LogFault Unit) := do
  let format :=
    match level, environment "HINDSIGHT_LOG_FORMAT" with
    | none, some typed => (LogFormat.parse typed).map fun _ => ()
    | _, _ => .ok ()
  match format, environment "HINDSIGHT_LOG_FILE" with
  | .error fault, _ => pure (.error fault)
  | .ok (), some path => openLog files path
  | .ok (), none => pure (.ok ())

/-- Reads a core file and its executable. -/
def openTarget (files : Files m) (core executable : String) : m (Except Failure Target) := do
  match ← files.read core with
  | .error fault => pure (.error (.file fault))
  | .ok data =>
    match Core.parse core data with
    | .error e => pure (.error e)
    | .ok core =>
      match ← files.read executable with
      | .error fault => pure (.error (.file fault))
      | .ok data => pure ((Executable.parse executable data).map fun x => ⟨core, x⟩)

/-- Does what is left to do. -/
def conclude (files : Files m) : Response → m Ending
  | .finish e => pure e
  | .save path text => do
    match ← files.write path text.toUTF8.toList with
    | .error fault => pure (.fault fault.message)
    | .ok () => pure (.answer s!"Wrote {text.utf8ByteSize} bytes to {path}")

/-- Runs what a command line asks for. -/
def runInvocation (files : Files m) (environment : String → Option String) (i : Invocation) :
    m Ending := do
  match ← startLog files environment i.logLevel with
  | .error fault => pure ⟨1, "", s!"Failed to initialize logging: {fault.message}\n"⟩
  | .ok () =>
    match ← openTarget files i.core i.executable with
    | .error e => pure (.fault e.message)
    | .ok target => conclude files (respond (target.capture 1) i.command)

/-- Runs a command line. -/
def run (files : Files m) (environment : String → Option String) (arguments : List String) :
    m Ending := do
  match Invocation.parse arguments with
  | .error refusal => pure (.refused refusal)
  | .ok i => runInvocation files environment i

end

end Postmortem.Cli
