/-
Postmortem/Heap/Scope.lean

Contexts and their scope infos.

A context holds the variables that a function shares with the functions inside
it.  Its first slots are for the runtime: the closure, the enclosing context,
and the scope info, which names the variables in the slots behind.  A scope
info holds counts, then the names; builds that count stack locals put the names
of parameters and stack locals before those of the variables in the context.
-/
import Postmortem.Heap.Array
import Postmortem.Heap.String

namespace Postmortem

open HeapM

namespace ScopeInfo

/-- The number in the slot that a constant gives; zero if the build has no such slot. -/
def number (scope : Address) (index : Constant) : HeapM Int := do
  if (← layout).has index then
    let found ← FixedArray.getInt scope (← constant index) fun _ => .negativeScopeSlot
    match found with
    | .smi _ number => pure number
    | .heap _ => fail (.shape (.scopeCount scope))
  else pure 0

def parameterCount (scope : Address) : HeapM Int := number scope .scopeParameterCount

def stackLocalCount (scope : Address) : HeapM Int := number scope .scopeStackLocalCount

def contextLocalCount (scope : Address) : HeapM Int := number scope .scopeContextLocalCount

/-- The slot of the first name of a variable in the context. -/
def namesStart (scope : Address) : HeapM Int := do
  let start ← constant .scopeVariablePart
  if (← layout).embedsStackLocals then
    let parameters ← parameterCount scope
    pure (start + (parameters + (← stackLocalCount scope)))
  else pure start

/-- The text in a slot, if it holds a string. -/
def textAt? (scope : Address) (index : Int) : HeapM (Option String) := do
  JsString.textOf? (← FixedArray.getInt scope index .scopeSlot)

/-- The name of variable `index`; every one has a name. -/
def contextLocalName (scope : Address) (index : Nat) : HeapM String := do
  match ← textAt? scope ((← namesStart scope) + index) with
  | some name => pure name
  | none => fail (.shape (.unnamedLocal index))

/-- The names of the variables in the context. -/
def contextLocalNames (scope : Address) : HeapM (List String) := do
  forRange 0 (contextLocalName scope) (← contextLocalCount scope).toNat

/-- The name of the function, which stands behind two slots for each variable, if it has one. -/
def functionName? (scope : Address) : HeapM (Option String) := do
  let start ← namesStart scope
  let index := start + 2 * (← contextLocalCount scope)
  if index < (← FixedArray.length scope) then
    pure ((← textAt? scope index).filter (!·.isEmpty))
  else pure none

end ScopeInfo

namespace Context

/-- What the slot that a constant gives holds. -/
def get (context : Address) (index : Constant) : HeapM Value := do
  FixedArray.getInt context (← constant index) fun _ => .negativeContextSlot

/-- The enclosing context. -/
def previous (context : Address) : HeapM Value := get context .contextPreviousIndex

/-- The function that a context belongs to, where builds keep it. -/
def closure? (context : Address) : HeapM (Option Value) := do
  if (← layout).has .contextClosureIndex then
    let found ← get context .contextClosureIndex
    pure (if ← isType found .typeJsFunction then some found else none)
  else pure none

def scopeInfo (context : Address) : HeapM Address := do
  match ← get context .contextScopeInfoIndex with
  | .heap scope => pure scope
  | .smi .. => fail (.shape (.noScopeInfo context))

/-- The value of variable `index`. -/
def localAt (context : Address) (index : Nat) : HeapM Value := do
  FixedArray.get context ((← constant .contextMinSlots).toNat + index)

/-- The variables, each with its name. -/
def locals (context : Address) : HeapM (List (String × Value)) := do
  let scope ← scopeInfo context
  let count ← ScopeInfo.contextLocalCount scope
  forRange 0 (fun index => do
    let name ← ScopeInfo.contextLocalName scope index
    pure (name, ← localAt context index)) count.toNat

end Context

end Postmortem
