/-
Postmortem/Logging.lean

How a run logs.

Formats and levels have names, of which some have a shorter or a longer
spelling; capitals count as small letters.
-/
import Postmortem.Failure

namespace Postmortem

/-- How log lines are written. -/
inductive LogFormat where
  | pretty
  | json
  deriving DecidableEq

/-- How much is logged. -/
inductive LogLevel where
  | error
  | warn
  | info
  | debug
  | trace
  deriving DecidableEq

/-- Why logging cannot start. -/
inductive LogFault where
  | format (typed : String)
  | level (typed : String)
  /-- A log file without a name. -/
  | unnamedFile (path : String)
  | file (fault : FileFault)
  deriving DecidableEq

/-- The sentence that tells a fault. -/
def LogFault.message : LogFault → String
  | format typed => s!"Invalid log format: {typed}. Use 'pretty' or 'json'"
  | level typed =>
    s!"Invalid log level: {typed}. Use 'error', 'warn', 'info', 'debug', or 'trace'"
  | unnamedFile path => s!"Invalid log file: {path}"
  | file fault => s!"File logging error: {fault.message}"

/-- A text in small letters. No letter outside of ASCII is a capital of a name's. -/
def smallLetters (typed : String) : List Char := typed.toList.map Char.toLower

/-- The format of a name. -/
def LogFormat.parse (typed : String) : Except LogFault LogFormat :=
  let name := smallLetters typed
  if name ∈ ["pretty".toList, "text".toList] then .ok .pretty
  else if name = "json".toList then .ok .json
  else .error (.format typed)

/-- The level of a name. -/
def LogLevel.parse (typed : String) : Except LogFault LogLevel :=
  let name := smallLetters typed
  if name ∈ ["error".toList, "err".toList] then .ok .error
  else if name ∈ ["warn".toList, "warning".toList] then .ok .warn
  else if name = "info".toList then .ok .info
  else if name ∈ ["debug".toList, "dbg".toList] then .ok .debug
  else if name = "trace".toList then .ok .trace
  else .error (.level typed)

end Postmortem
