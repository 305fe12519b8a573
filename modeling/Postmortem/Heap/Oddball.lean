/-
Postmortem/Heap/Oddball.lean

The values of which there is one each: `undefined`, `null`, the booleans, and
the marks that the runtime keeps for itself, such as the hole.  An oddball
tells which one it is by a number.
-/
import Postmortem.Heap.Map

namespace Postmortem

open HeapM

/-- Which value an oddball is. -/
inductive OddballKind where
  | exception
  | false
  | true
  | undefined
  | null
  | theHole
  | uninitialized
  | other (kind : Int)
  deriving DecidableEq

namespace OddballKind

/-- The known oddballs, by the constants that hold their numbers. -/
def known : List (Constant × OddballKind) :=
  [(.oddballException, .exception), (.oddballFalse, .false), (.oddballTrue, .true),
   (.oddballUndefined, .undefined), (.oddballNull, .null), (.oddballTheHole, .theHole),
   (.oddballUninitialized, .uninitialized)]

/-- The oddball with a number. -/
def ofNumber (l : Layout) (number : Int) : OddballKind :=
  ((known.find? fun entry => l.agrees entry.1 number).map (·.2)).getD (.other number)

/-- What is shown between angle brackets. -/
def label : OddballKind → String
  | exception => "exception"
  | .false => "false"
  | .true => "true"
  | undefined => "undefined"
  | null => "null"
  | theHole => "hole"
  | uninitialized => "uninitialized"
  | other _ => "Oddball"

end OddballKind

namespace Oddball

/-- Which value an oddball is. -/
def kind (oddball : Address) : HeapM OddballKind := do
  let number ← int oddball .oddballKind
  pure (.ofNumber (← layout) number)

/-- Which oddball `v` is, if it is one. -/
def kindOf? (v : Value) : HeapM (Option OddballKind) := do
  if ← isType v .typeOddball then
    match v with
    | .heap oddball => do pure (some (← kind oddball))
    | .smi .. => pure none
  else pure none

end Oddball

/-- Whether `v` is the hole, which marks a slot without a value. -/
def isHole (v : Value) : HeapM Bool := do
  pure ((← Oddball.kindOf? v) == some .theHole)

/-- Whether `v` is the hole or `undefined`. -/
def isHoleOrUndefined (v : Value) : HeapM Bool := do
  let kind ← Oddball.kindOf? v
  pure (kind == some .theHole || kind == some .undefined)

end Postmortem
