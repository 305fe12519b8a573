/-
Postmortem/Text/Lines.lean

Lines of a source text.

A line ends at a line feed, at a carriage return, or at the pair of the two,
which counts once.  `lineColumn` says where a position is, counting both from
zero; `splitLines` lists the lines without their ends.
-/

namespace Postmortem.Text

/-- Whether `c` ends a line on its own. -/
def isLineEnd (c : Char) : Bool := c == '\n' || c == '\r'

/-- Moves (line, column) over a text. -/
def advance : List Char → Nat × Nat → Nat × Nat
  | [], at_ => at_
  | '\r' :: '\n' :: cs, (line, _) => advance cs (line + 1, 0)
  | c :: cs, (line, column) =>
    if isLineEnd c then advance cs (line + 1, 0) else advance cs (line, column + 1)

/-- The line and column of `position`; positions past the end are at the end. -/
def lineColumn (source : List Char) (position : Nat) : Nat × Nat :=
  advance (source.take position) (0, 0)

/-- The lines of `source`, where `current` holds the characters of the open line, last first. -/
def splitFrom : List Char → List Char → List (List Char)
  | [], current => if current.isEmpty then [] else [current.reverse]
  | '\r' :: '\n' :: cs, current => current.reverse :: splitFrom cs []
  | c :: cs, current =>
    if isLineEnd c then current.reverse :: splitFrom cs [] else splitFrom cs (c :: current)

/-- The lines of `source`; a last line without an end counts if it is not empty. -/
def splitLines (source : List Char) : List (List Char) :=
  splitFrom source []

end Postmortem.Text
