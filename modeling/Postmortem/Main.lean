/-
Postmortem/Main.lean

The program: a command line run on the files of the system.
-/
import Postmortem.Cli

namespace Postmortem.Cli

/-- The fault behind a system's error number. -/
def faultOfCode (code : UInt32) : FileFault :=
  if code = 21 then .isDirectory
  else if code = 20 then .notDirectory
  else if code = 17 then .alreadyThere
  else if code = 13 then .denied
  else if code = 36 then .nameTooLong
  else .notFound

/-- The fault behind an error of the system. -/
def faultOf : IO.Error → FileFault
  | .inappropriateType _ code _ => faultOfCode code
  | .alreadyExists _ code _ => faultOfCode code
  | .permissionDenied _ code _ => faultOfCode code
  | .noFileOrDirectory _ code _ => faultOfCode code
  | .illegalOperation code _ => faultOfCode code
  | .otherError code _ => faultOfCode code
  | _ => .notFound

/-- The outcome of an action on files. -/
def outcomeOf {α : Type} (action : IO α) : IO (Except FileFault α) := do
  try pure (.ok (← action))
  catch e => pure (.error (faultOf e))

/-- The files of the system. -/
def systemFiles : Files IO where
  read := fun path => outcomeOf do pure (← IO.FS.readBinFile path).data
  write := fun path bytes => outcomeOf (IO.FS.writeBinFile path ⟨bytes.toArray⟩)
  touch := fun path => outcomeOf do
    let _ ← IO.FS.Handle.mk path .append
  makeDirectory := fun path => outcomeOf (IO.FS.createDirAll path)

end Postmortem.Cli

open Postmortem Cli in
def main (arguments : List String) : IO UInt32 := do
  let format ← IO.getEnv "HINDSIGHT_LOG_FORMAT"
  let file ← IO.getEnv "HINDSIGHT_LOG_FILE"
  let environment (name : String) : Option String :=
    if name = "HINDSIGHT_LOG_FORMAT" then format
    else if name = "HINDSIGHT_LOG_FILE" then file
    else none
  let ending ← run systemFiles environment arguments
  IO.print ending.out
  IO.eprint ending.err
  pure (UInt32.ofNat ending.exit)
