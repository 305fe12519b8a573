/-
Postmortem/Heap/String.lean

Strings.

A string is stored flat, or made of other strings: two of them behind each
other, a part of one, another name for one.  Its text is put together from
segments.  A segment asks for some of the units of a string; resolving it
gives the units themselves if the string is flat, and otherwise the segments
of the strings it is made of.  `JsString.codeUnits` resolves the first segment
that is left until none is, so the units come out in order, and parts that no
segment asks for are never read.

Texts that lie outside the heap are shown by a placeholder.
-/
import Postmortem.Heap.Map
import Postmortem.Text.Utf16

namespace Postmortem

open HeapM

/-- No string has more units than this. -/
def maxStringUnits : Nat := maxReadBytes / 2

namespace JsString

/-- What stands for a text outside the heap. -/
def external : List UInt16 := Utf16.encode "(external)".toList

/-- How a string is represented. -/
inductive Representation where
  | sequential
  | cons
  | sliced
  | external
  | thin
  deriving DecidableEq

namespace Representation

/-- The constant that holds the tag of a representation. -/
def tag : Representation → Constant
  | sequential => .stringSeqTag
  | cons => .stringConsTag
  | sliced => .stringSlicedTag
  | external => .stringExternalTag
  | thin => .stringThinTag

/-- The representation that a type id is tagged with. -/
def ofTypeId (typeId : Int) : HeapM Representation := do
  let found := Word.maskBits typeId (← constant .stringRepresentationMask)
  let l ← layout
  match [sequential, cons, sliced, external, thin].find? fun r => l.agrees r.tag found with
  | some r => pure r
  | none => fail (.shape (.representation found))

end Representation

/-- How many units a string has. -/
def length (string : Address) : HeapM Nat := do
  let length ← int string .stringLength
  if length < 0 then fail (.shape (.negativeLength length)) else pure length.toNat

/-- Whether the units of strings of this type take one byte each. -/
def isOneByte (typeId : Int) : HeapM Bool := do
  let mask ← constant .stringEncodingMask
  pure (Word.maskBits typeId mask == (← constant .stringOneByteTag))

/-- The units from `start` to `stop` of a flat string. -/
def flatUnits (string : Address) (typeId : Int) (start stop : Nat) : HeapM (List UInt16) := do
  if ← isOneByte typeId then
    let chars ← fieldAt string .stringOneByteChars
    pure ((← bytes (chars.offset start) (stop - start)).map fun b => UInt16.ofNat b.toNat)
  else
    let chars ← fieldAt string .stringTwoByteChars
    twoByteUnits (chars.offset (2 * start : Nat)) (stop - start)

/-! ### Segments -/

/-- The units of a string from `start` to `stop`, or to its end. -/
structure Segment where
  string : Address
  start : Nat
  stop : Option Nat

/-- Where a segment stops in a string of `length` units. -/
def Segment.stopIn (s : Segment) (length : Nat) : Nat := min (s.stop.getD length) length

/-- Where a segment starts in a string of `length` units. -/
def Segment.startIn (s : Segment) (length : Nat) : Nat := min s.start (s.stopIn length)

/-- The segments of two strings behind each other that `start` to `stop` falls into, where the
first has `split` units. -/
def Segment.across (first second : Address) (split start stop : Nat) : List Segment :=
  (if start < split then [⟨first, start, some (min stop split)⟩] else [])
    ++ if split < stop then [⟨second, start - split, some (stop - split)⟩] else []

/-- The units that a segment stands for, or else the segments it is made of. -/
def Segment.resolve (s : Segment) : HeapM (List UInt16 × List Segment) := do
  let length ← JsString.length s.string
  let stop := s.stopIn length
  let start := s.startIn length
  let typeId ← typeId s.string
  match ← Representation.ofTypeId typeId with
  | .sequential => do pure (← flatUnits s.string typeId start stop, [])
  | .cons =>
    let first ← pointer s.string .stringConsFirst
    let second ← pointer s.string .stringConsSecond
    let split ← JsString.length first
    pure ([], across first second split start stop)
  | .sliced =>
    let parent ← pointer s.string .stringSlicedParent
    let offset ← count s.string .stringSlicedOffset
    pure ([], [⟨parent, offset + start, some (offset + stop)⟩])
  | .thin =>
    let actual ← pointer s.string .stringThinActual
    pure ([], [⟨actual, start, some stop⟩])
  | .external => pure (external, [])

/-- The units found so far, and the segments that are left. -/
structure Progress where
  units : Array UInt16
  segments : List Segment

/-- Resolves the first segment that is left; done when none is. -/
def Progress.advance (whole : Address) : Progress → HeapM (Progress ⊕ List UInt16)
  | ⟨units, []⟩ => pure (.inr units.toList)
  | ⟨units, s :: rest⟩ => do
    let (found, made) ← s.resolve
    let units := units ++ found
    if maxStringUnits < units.size then fail (.shape (.oversizedString whole))
    else pure (.inl ⟨units, made ++ rest⟩)

/-- More rounds than the resolution of any string takes: the segments that are left ask for fewer
than `2 ^ 63` units between them, and each is made of no more than `2 ^ 64` strings in turn. -/
def maxRounds : Nat := UInt64.size * UInt64.size

/-- The units of a string. -/
def codeUnits (string : Address) : HeapM (List UInt16) :=
  loop (Progress.advance string) (.shape (.oversizedString string)) maxRounds
    ⟨#[], [⟨string, 0, none⟩]⟩

/-! ### Text -/

/-- The text of a string; pairs of surrogates are one character. -/
def text (string : Address) : HeapM String := do
  pure (Utf16.decode (← codeUnits string))

/-- One character for each unit of a string, so that positions are counted in units. -/
def narrowText (string : Address) : HeapM (List Char) := do
  pure (Utf16.narrow (← codeUnits string))

/-- The text of a value that is a string. -/
def textOf? (v : Value) : HeapM (Option String) := do
  if ← isString v then
    match v with
    | .heap string => do pure (some (← text string))
    | .smi .. => pure none
  else pure none

end JsString

end Postmortem
