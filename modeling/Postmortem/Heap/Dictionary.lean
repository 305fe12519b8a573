/-
Postmortem/Heap/Dictionary.lean

Name dictionaries: the properties of objects with too many or too short-lived
ones for descriptors.

A dictionary is a table of entries, a key and a value each.  An entry whose key
is the hole or `undefined` is dead: it is not listed and not counted, so the
position of a property is its place among the live ones.
-/
import Postmortem.Heap.Array
import Postmortem.Heap.Oddball
import Postmortem.Window

namespace Postmortem

open HeapM

namespace NameDictionary

/-- The slot of the first entry. -/
def firstEntry : HeapM Int := do
  match (← layout).dictionaryStart? with
  | some first => pure first
  | none => fail (.missing .dictionaryPrefixSize)

/-- How many entries there is room for. -/
def capacity (dictionary : Address) : HeapM Nat := do
  let slots ← FixedArray.length dictionary
  let size ← constant .dictionaryEntrySize
  pure (((slots : Int) - (← firstEntry)).tdiv (max size 1)).toNat

/-- What slot `part` of an entry holds. -/
def part (dictionary : Address) (entry part : Nat) : HeapM Value := do
  let size ← constant .dictionaryEntrySize
  let first ← firstEntry
  FixedArray.getInt dictionary (first + entry * size + part) .dictionarySlot

def key (dictionary : Address) (entry : Nat) : HeapM Value := part dictionary entry 0

def value (dictionary : Address) (entry : Nat) : HeapM Value := part dictionary entry 1

/-- The key of an entry, if it is live. -/
def liveKey? (dictionary : Address) (entry : Nat) : HeapM (Option Value) := do
  let key ← key dictionary entry
  pure (if ← isHoleOrUndefined key then none else some key)

/-- How many entries are live. -/
def liveCount (dictionary : Address) : HeapM Nat := do
  let keys ← forRange 0 (liveKey? dictionary) (← capacity dictionary)
  pure (keys.countP (·.isSome))

/-- Whether position `position` is wanted; without a window all are. -/
def isWanted (window : Option Window) (position : Nat) : Bool :=
  window.all fun w => w.start ≤ position && position < w.stop

/-- Whether no position behind `position` is wanted. -/
def isLast (window : Option Window) (position : Nat) : Bool :=
  window.any fun w => w.stop ≤ position + 1

/-- The wanted entries among `left` entries from `entry` on, where `live` live ones came before.
Values are read only where wanted, and nothing is read behind the last wanted entry. -/
def entriesFrom (dictionary : Address) (window : Option Window) :
    Nat → Nat → Nat → HeapM (List (Value × Value))
  | 0, _, _ => pure []
  | left + 1, entry, live => do
    match ← liveKey? dictionary entry with
    | none => entriesFrom dictionary window left (entry + 1) live
    | some key =>
      let found ←
        if isWanted window live then do pure [(key, ← value dictionary entry)] else pure []
      let rest ←
        if isLast window live then pure []
        else entriesFrom dictionary window left (entry + 1) (live + 1)
      pure (found ++ rest)

/-- The live entries at the positions of a window, or all of them. -/
def entries (dictionary : Address) (window : Option Window) : HeapM (List (Value × Value)) := do
  entriesFrom dictionary window (← capacity dictionary) 0 0

end NameDictionary

end Postmortem
