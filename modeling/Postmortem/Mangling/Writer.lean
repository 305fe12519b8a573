/-
Postmortem/Mangling/Writer.lean

Reading a name and writing what it says, in one pass.

When a piece cannot be read, the fault is written in its place; from then on
nothing more is read, and each piece that is wanted is written as a question
mark.  Without showing, a name is only checked.  What is written has room for
a million bytes, and the writer stops when they are used up.
-/
import Postmortem.Mangling.Piece
import Postmortem.Text.Visible

namespace Postmortem.Mangling

/-- Why a name cannot be read on. -/
inductive NameFault where
  | invalid
  /-- Parts stand inside parts too often. -/
  | tooDeep
  deriving DecidableEq

def NameFault.message : NameFault → String
  | .invalid => "\x7binvalid syntax\x7d"
  | .tooDeep => "\x7brecursion limit reached\x7d"

structure Writer where
  /-- What is left to read, or why nothing more is read. -/
  rest : Except NameFault (List Char)
  showing : Bool
  /-- What was written, last first. -/
  written : List String
  /-- How many bytes more can be written. -/
  room : Nat
  /-- How many lifetimes have names here. -/
  lifetimes : Nat

/-- No name is written with more bytes than this. -/
def maxBytes : Nat := 1000000

namespace Writer

/-- A writer at the start of a name. -/
def start (name : List Char) (showing : Bool) : Writer := ⟨.ok name, showing, [], maxBytes, 0⟩

/-- Everything that was written. -/
def text (w : Writer) : String := String.join w.written.reverse

end Writer

/-- A part of a name that is read and written; it fails when there is no more room. -/
abbrev Writing (α : Type) : Type := EStateM Unit Writer α

namespace Writing

/-- Writes a text. -/
def write (s : String) : Writing Unit := do
  let w ← get
  if w.showing then
    if s.utf8ByteSize ≤ w.room then
      set { w with written := s :: w.written, room := w.room - s.utf8ByteSize }
    else throw ()

/-- Writes texts one after the other. -/
def writeAll (texts : List String) : Writing Unit := texts.forM write

/-- Writes a fault, and ends the reading. -/
def fault {α : Type} (otherwise : α) (e : NameFault) : Writing α := do
  write e.message
  modify fun w => { w with rest := .error e }
  pure otherwise

/-- Whether something can be read still. -/
def isReading : Writing Bool := do
  match (← get).rest with
  | .ok _ => pure true
  | .error _ => pure false

/-- Reads a piece and goes on with it; without it, the result is `otherwise`. -/
def reading {α β : Type} (otherwise : β) (piece : Piece α) (next : α → Writing β) : Writing β := do
  match (← get).rest with
  | .error _ =>
    write "?"
    pure otherwise
  | .ok cs =>
    match piece cs with
    | none => fault otherwise .invalid
    | some (a, rest) =>
      modify fun w => { w with rest := .ok rest }
      next a

/-- Takes a character, if it comes next. -/
def eat (c : Char) : Writing Bool := do
  match (← get).rest with
  | .error _ => pure false
  | .ok cs =>
    if cs.head? == some c then
      modify fun w => { w with rest := .ok cs.tail }
      pure true
    else pure false

/-- Gives back a character that was read. -/
def giveBack (c : Char) : Writing Unit :=
  modify fun w => { w with rest := w.rest.map (c :: ·) }

/-- Reads a part without writing it. -/
def hidden (part : Writing Unit) : Writing Unit := do
  let showing := (← get).showing
  modify fun w => { w with showing := false }
  part
  modify fun w => { w with showing := showing }

/-- Reads what stands at an earlier place of the name instead of what is left. -/
def elsewhere {α : Type} (target : List Char) (part : Writing α) : Writing α := do
  let rest := (← get).rest
  modify fun w => { w with rest := .ok target }
  let a ← part
  modify fun w => { w with rest := rest }
  pure a

/-- Writes parts up to an `E`, with a separator between them, at most `limit` of them; what
comes out is how many there were. -/
def listFrom (separator : String) (part : Writing Unit) : Nat → Nat → Writing Nat
  | 0, count => pure count
  | limit + 1, count => do
    if !(← isReading) then pure count
    else if ← eat 'E' then pure count
    else
      if 0 < count then write separator
      part
      listFrom separator part limit (count + 1)

/-- Writes parts up to an `E`, with a separator between them.  Each part takes a character at
least, so there are no more of them than characters are left. -/
def list (separator : String) (part : Writing Unit) : Writing Nat := do
  match (← get).rest with
  | .error _ => pure 0
  | .ok cs => listFrom separator part (cs.length + 1) 0

/-- Writes a text between quotes. -/
def quoted (quote : Char) (cs : List Char) : Writing Unit := do
  write (String.singleton quote)
  writeAll ((cs.flatMap (Text.quotedChar quote)).map String.singleton)
  write (String.singleton quote)

end Writing

end Postmortem.Mangling
