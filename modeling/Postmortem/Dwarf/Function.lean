/-
Postmortem/Dwarf/Function.lean

Functions, and the calls that were inlined into them.

The code of a function may contain that of other functions, which may contain
others again: level by level, an address lies in one call at most.  Each
inlined call tells where it is in the source of what is around it.  The name
of a function may stand at the entry that it was made from.
-/
import Postmortem.Dwarf.Range

namespace Postmortem.Dwarf

/-! ### Tags -/

def subprogramTag : Nat := 0x2e
def inlinedTag : Nat := 0x1d

/-! ### Names -/

/-- The name of a function as it is stored. -/
abbrev Name : Type := List UInt8

/-- Whether an attribute is a name that linkers see. -/
def isLinkage (name : Nat) : Bool := name == linkageName || name == olderLinkageName

/-- Whether an attribute tells the entry that an entry was made from. -/
def isOrigin (name : Nat) : Bool := name == originName || name == specificationName

/-- The name that an entry has itself: the first name that linkers see, or else its last one. -/
def plainName? (u : UnitReader) (a : Attributes) : Option Name :=
  let named (is : Nat → Bool) (l : Attributes) : Option Name :=
    l.findSome? fun field => if is field.1 then u.text? field.2 else none
  named isLinkage a <|> named (· == nameName) a.reverse

/-- The unit that has the entry at a position: the last one that starts there or before. -/
def unitOf? (units : List UnitReader) (position : Nat) : Option UnitReader :=
  (units.takeWhile (·.header.start ≤ position)).getLast?

/-- The name of the entry that a value refers to, or of an entry that that one was made from; at
most `limit` entries are looked at.  Fails where there is no entry. -/
def referredName? (units : List UnitReader) : Nat → UnitReader → Value → Option (Option Name)
  | 0, _, _ => some none
  | limit + 1, u, value => do
    let nameIn (u : UnitReader) (position : Nat) : Option (Option Name) := do
      let a := (← u.entryAt? position).attributes
      match plainName? u a, a.reverse.find? (isOrigin ·.1) with
      | some name, _ => pure (some name)
      | none, some field => referredName? units limit u field.2
      | none, none => pure none
    match value with
    | .nearby position => nameIn u (u.header.start + position)
    | .entry position => nameIn (← unitOf? units position) position
    | _ => pure none

/-- How many entries the search for a name goes through. -/
def maxOrigins : Nat := 16

/-- The name of an entry, attribute by attribute: a name that linkers see replaces what was found
before, and anything else counts if nothing was found.  Fails where an entry that it was made from
is missing. -/
def nameFrom? (units : List UnitReader) (u : UnitReader) :
    Attributes → Option Name → Option (Option Name)
  | [], found => some found
  | (name, value) :: rest, found => do
    let found ←
      if isLinkage name then pure (u.text? value <|> found)
      else if found.isSome then pure found
      else if name = nameName then pure (u.text? value)
      else if isOrigin name then referredName? units maxOrigins u value
      else pure found
    nameFrom? units u rest found

/-! ### Calls -/

/-- What is called, and the attributes that tell it. -/
structure Callee where
  name : Option Name
  attributes : Attributes

/-- What an entry calls. -/
def Callee.of? (units : List UnitReader) (u : UnitReader) (e : Entry) : Option Callee := do
  pure ⟨← nameFrom? units u e.attributes none, e.attributes⟩

/-- A call whose code is inside of another function. -/
structure InlinedCall where
  callee : Callee
  /-- How many inlined calls are around it. -/
  level : Nat
  ranges : List Range

/-- The inlined calls among entries; `around` are the depths of those that are open. Entries
deeper than a nested function belong to that function. -/
def inlinedCalls? (units : List UnitReader) (u : UnitReader) :
    List Entry → List Int → Option Int → Option (List InlinedCall)
  | [], _, _ => some []
  | entry :: rest, around, nested =>
    if nested.any fun depth => depth < entry.depth then inlinedCalls? units u rest around nested
    else
      let around := around.dropWhile (entry.depth ≤ ·)
      if entry.tag = subprogramTag then inlinedCalls? units u rest around (some entry.depth)
      else if entry.tag = inlinedTag then do
        let callee ← Callee.of? units u entry
        let ranges ← Range.ofEntry? u entry.attributes
        let others ← inlinedCalls? units u rest (entry.depth :: around) none
        pure (⟨callee, around.length, ranges⟩ :: others)
      else inlinedCalls? units u rest around none

/-- The call of a level that an address lies in. -/
def callOf? (calls : List InlinedCall) (address level : Nat) : Option InlinedCall :=
  let here := calls.filter (·.level == level)
  Range.covering? (Range.inOrder (here.flatMap fun c => c.ranges.map (c, ·))) address

/-- What is called where an address lies, from level `level` on, outermost first. -/
def calleesAt (calls : List InlinedCall) (address : Nat) : Nat → Nat → List Callee
  | 0, _ => []
  | limit + 1, level =>
    match callOf? calls address level with
    | none => []
    | some c => c.callee :: calleesAt calls address limit (level + 1)

/-! ### Functions -/

/-- A function, and the entries inside of it. -/
structure FunctionEntry where
  entry : Entry
  inside : List Entry
  ranges : List Range
  /-- Whether the row of entries inside of it ends. -/
  isClosed : Bool

/-- The functions among entries, behind which `depth` entries are open. -/
def functions? (u : UnitReader) (depth : Int) : List Entry → Option (List FunctionEntry)
  | [] => some []
  | entry :: rest =>
    if entry.tag = subprogramTag then do
      let ranges ← Range.ofEntry? u entry.attributes
      let inside := rest.takeWhile (entry.depth < ·.depth)
      let isClosed := inside.length < rest.length || depth ≤ entry.depth
      pure (⟨entry, inside, ranges, isClosed⟩ :: (← functions? u depth rest))
    else functions? u depth rest

/-- The function that an address lies in. -/
def functionAt? (functions : List FunctionEntry) (address : Nat) : Option FunctionEntry :=
  Range.covering? (Range.inOrder (functions.flatMap fun f => f.ranges.map (f, ·))) address

/-- What is called at an address of a function, innermost first. -/
def FunctionEntry.callees? (f : FunctionEntry) (units : List UnitReader) (u : UnitReader)
    (address : Nat) : Option (List Callee) := do
  guard f.isClosed
  let callee ← Callee.of? units u f.entry
  let calls ← inlinedCalls? units u f.inside [] none
  pure (callee :: calleesAt calls address calls.length 0).reverse

end Postmortem.Dwarf
