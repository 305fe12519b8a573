/-
Postmortem/Heap/Function.lean

Functions, what their closures share, and the scripts they come from.

A closure points to the information that all closures of the function share:
its name and where it stands in its script.  Positions are counted in units
of the source text, so lines and columns are computed on a text with one
character for each unit.
-/
import Postmortem.Heap.Oddball
import Postmortem.Heap.Scope
import Postmortem.Text.Lines

namespace Postmortem

open HeapM

/-- The name of a function that has none. -/
def anonymous : String := "(anonymous)"

/-- The place of a function that has no script, and the name of a script that has none. -/
def nativeCode : String := "[native code]"

/-- What stands for a position in a script without a source text. -/
def noSource : String := "[no source]"

namespace Script

/-- The name of a script, mostly a path; empty if it has none. -/
def name (script : Address) : HeapM String := do
  pure ((← JsString.textOf? (← value script .scriptName)).getD "")

def lineOffset (script : Address) : HeapM Int := int script .scriptLineOffset

/-- The string with the source text, if the script kept it. -/
def source? (script : Address) : HeapM (Option Address) := do
  let source ← value script .scriptSource
  pure (if ← isString source then source.heap? else none)

/-- The source text, one character for each unit. -/
def narrowSource? (script : Address) : HeapM (Option (List Char)) := do
  match ← source? script with
  | some source => do pure (some (← JsString.narrowText source))
  | none => pure none

/-- The line and column of a position, both counted from zero. -/
def lineColumn? (script : Address) (position : Int) : HeapM (Option (Nat × Nat)) := do
  pure ((← narrowSource? script).map (Text.lineColumn · position.toNat))

/-- At most `limit` lines of the source from line `start` on. -/
def lines (script : Address) (start limit : Nat) : HeapM (List String) := do
  let source := (← narrowSource? script).getD []
  pure (((Text.splitLines source).drop start).take limit |>.map String.ofList)

end Script

namespace SharedInfo

/-- The name in the source. Builds that have one slot for the name and the scope info put a scope
info there, which has the name. -/
def declaredName (shared : Address) : HeapM String := do
  if (← layout).has .sharedName then
    pure ((← JsString.textOf? (← value shared .sharedName)).getD "")
  else
    let found ← value shared .sharedNameOrScopeInfo
    match ← isType found .typeScopeInfo, found with
    | true, .heap scope => do pure ((← ScopeInfo.functionName? scope).getD "")
    | _, _ => do pure ((← JsString.textOf? found).getD "")

/-- The name that the compiler found for a function without one; empty if there is none. -/
def inferredName (shared : Address) : HeapM String := do
  if (← layout).has .sharedInferredName then
    let found ← value shared .sharedInferredName
    if ← isHoleOrUndefined found then pure ""
    else do pure ((← JsString.textOf? found).getD "")
  else pure ""

/-- The declared name, else the inferred one, else a placeholder. -/
def properName (shared : Address) : HeapM String := do
  let name ← declaredName shared
  if name.isEmpty then
    let name ← inferredName shared
    pure (if name.isEmpty then anonymous else name)
  else pure name

/-- The script, unless the function is a native one. -/
def script? (shared : Address) : HeapM (Option Address) := do
  let found ← value shared .sharedScript
  pure (if ← isType found .typeScript then found.heap? else none)

/-- Where the function starts in its script; the position shares its word with other bits. -/
def startPosition (shared : Address) : HeapM Int := do
  let packed ← int shared .sharedStartPosition
  pure (Word.shiftRight packed (← constant .sharedStartPositionShift))

def endPosition (shared : Address) : HeapM Int := int shared .sharedEndPosition

def parameterCount (shared : Address) : HeapM Int := int shared .sharedParameterCount

/-- The script, the line, counted from one, and the column, counted from zero. -/
def location (shared : Address) : HeapM String := do
  match ← script? shared with
  | none => pure nativeCode
  | some script =>
    let name ← Script.name script
    let name := if name.isEmpty then nativeCode else name
    match ← Script.lineColumn? script (← startPosition shared) with
    | some (line, column) => pure s!"{name}:{line + 1}:{column}"
    | none => pure s!"{name} {noSource}"

end SharedInfo

namespace JsFunction

/-- What all closures of the function share. -/
def shared (function : Address) : HeapM Address := pointer function .functionShared

/-- The context that the closure was made in; some builds hold a number in its place. -/
def context (function : Address) : HeapM Value := value function .functionContext

def name (function : Address) : HeapM String := do
  SharedInfo.properName (← shared function)

def location (function : Address) : HeapM String := do
  SharedInfo.location (← shared function)

/-- The text of the function from its parameters on, if its script has a source. -/
def source? (function : Address) : HeapM (Option String) := do
  let shared ← shared function
  match ← SharedInfo.script? shared with
  | none => pure none
  | some script =>
    match ← Script.source? script with
    | none => pure none
    | some source =>
      let units ← JsString.codeUnits source
      let stop := min (← SharedInfo.endPosition shared).toNat units.length
      let start := min (← SharedInfo.startPosition shared).toNat stop
      pure (some (Utf16.decode ((units.drop start).take (stop - start))))

end JsFunction

end Postmortem
