/-
Postmortem/Capture.lean

Questions about a captured process.

A capture is a heap and the threads whose stacks lie in the same memory.  The
functions here answer one question each; they remember nothing.
-/
import Postmortem.Frame.Summary
import Postmortem.Heap.Object

namespace Postmortem

/-- Threads, and the frames of each. -/
structure Threads where
  infos : List ThreadInfo
  frames : Nat → Except Failure (List Frame)

/-- Threads whose frames are known. -/
def Threads.ofList (threads : List (ThreadInfo × List Frame)) : Threads where
  infos := threads.map (·.1)
  frames := fun index =>
    match threads[index]? with
    | some (_, frames) => .ok frames
    | none => .error (.argument (.noThread index))

/-- A captured process. -/
structure Capture where
  heap : Heap
  threads : Threads

open HeapM

/-- What kind of value a word is, in parentheses; objects are named by their constructor. -/
def typeName (v : Value) : HeapM String := do
  match v with
  | .smi .. => pure "(Smi)"
  | .heap object =>
    match ← Kind.of object with
    | .object | .error | .global | .globalProxy => do
      pure ((← constructorName? object).getD "(Object)")
    | .number => pure "(HeapNumber)"
    | .unknown typeId => pure s!"unknown: {typeId}"
    | kind => pure s!"({kind.name})"

/-- Whether objects of a kind have keys. -/
def Kind.hasKeys : Kind → Bool
  | object | error | array | regExp | date | global => true
  | _ => false

/-- The keys of the object that a word points to. -/
def keysOf (word : Address) : HeapM (List String) := do
  match Value.classify (← layout) word.word with
  | .smi .. => fail (.argument (.smallInteger word))
  | .heap object =>
    let kind ← Kind.of object
    if kind.hasKeys then JsObject.keys object else fail (.argument (.notObject word kind.name))

/-- The whole text of the string that a word points to. -/
def stringOf (word : Address) : HeapM String := do
  match ← JsString.textOf? (.classify (← layout) word.word) with
  | some text => pure text
  | none => fail (.argument (.notString word))

/-- The outcome of an inspection that cannot fail: a node, or the word that has none. -/
inductive Report where
  | found (node : Node)
  | failed (word : Address)

namespace Report

def of (word : Address) : Except Failure Node → Report
  | .ok node => found node
  | .error _ => failed word

def document : Report → Document
  | found node => .record [("status", .text "ok"), ("result", node.document)]
  | failed word =>
    .record [("status", .text "failed"), ("error", .text "Invalid value"),
      ("address", word.document)]

end Report

end Postmortem
