/-
Postmortem/Options.lean

What a caller asks for when inspecting a value.

Children of a value are shown with options derived from its own: a fresh
window of the same size, no address of the map, and details only while depth
remains (`Options.child`), or none at all (`Options.summary`).
-/

namespace Postmortem

/-- How a value is to be shown. -/
structure Options where
  /-- Show what is inside, not only a line. -/
  detailed : Bool
  /-- The most characters shown of a text, and bytes of a buffer where no limit is given. -/
  maxTextLength : Nat
  /-- The first item of the window. -/
  current : Nat
  /-- The number of items in the window; zero runs to the end. -/
  limit : Nat
  includeMapAddress : Bool
  /-- Show the source of functions. -/
  includeSourceText : Bool
  /-- How many levels of children are shown in detail. -/
  depth : Nat
  /-- Whether the value stands inside another. -/
  nested : Bool
  deriving DecidableEq, Hashable, Repr, Inhabited

namespace Options

/-- A line, cut at a hundred characters. -/
def default : Options where
  detailed := false
  maxTextLength := 100
  current := 0
  limit := 0
  includeMapAddress := false
  includeSourceText := false
  depth := 0
  nested := false

/-- The options of a child. -/
def child (o : Options) : Options where
  detailed := 0 < o.depth
  maxTextLength := o.maxTextLength
  current := 0
  limit := o.limit
  includeMapAddress := false
  includeSourceText := false
  depth := o.depth - 1
  nested := true

/-- The options of a child that is shown as a line. -/
def summary (o : Options) : Options := { o.child with detailed := false, depth := 0 }

/-- The options for text: a window without a limit is capped like a text. -/
def forText (o : Options) : Options :=
  { o with limit := if o.limit = 0 then o.maxTextLength else o.limit }

end Options

end Postmortem
