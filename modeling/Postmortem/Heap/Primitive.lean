/-
Postmortem/Heap/Primitive.lean

Boxed numbers, dates, symbols and regular expressions.
-/
import Postmortem.Heap.String

namespace Postmortem

open HeapM

/-- The text of a number: six places, or two where it stands inside something else. -/
def numberText (d : Double) (nested : Bool) : String := d.fixed (if nested then 2 else 6)

/-- The number in a box. -/
def HeapNumber.value (number : Address) : HeapM Double := do
  doubleAt (← fieldAt number .heapNumberValue)

/-- The time value of a date, which is a small integer or a boxed number; empty for anything
else. -/
def JsDate.text (date : Address) : HeapM String := do
  let found ← value date .dateValue
  match found with
  | .smi _ number => pure (toString number)
  | .heap object =>
    if ← isType found .typeHeapNumber then do pure (numberText (← HeapNumber.value object) false)
    else pure ""

/-- The description of a symbol, if it has one. -/
def Symbol.description? (symbol : Address) : HeapM (Option String) := do
  JsString.textOf? (← value symbol .symbolName)

/-- The source of a regular expression. -/
def JsRegExp.source (regExp : Address) : HeapM String := do
  JsString.text (← pointer regExp .regExpSource)

end Postmortem
