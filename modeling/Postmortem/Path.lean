/-
Postmortem/Path.lean

Paths of files.

A path is parts between slashes, of which empty ones do not count.  A part of
one point leads nowhere, and a part of two points leads back.
-/

namespace Postmortem.Path

/-- A part of a path. -/
abbrev Part : Type := List Char

/-- The parts between slashes, empty ones included. -/
def split : List Char → List Part
  | [] => [[]]
  | c :: cs =>
    if c = '/' then [] :: split cs
    else
      match split cs with
      | [] => [[c]]
      | part :: rest => (c :: part) :: rest

/-- The part that leads nowhere. -/
def here : Part := ['.']

/-- The part that leads back. -/
def back : Part := ['.', '.']

/-- The parts of a path, one after the other. -/
def steps (path : String) : List Part := (split path.toList).filter (· != [])

/-- The parts of a path that lead anywhere. -/
def parts (path : String) : List Part := (steps path).filter (· != here)

/-- Whether a path starts at the root. -/
def isAbsolute (path : String) : Bool := path.toList.head? == some '/'

/-- Whether a path ends in a slash, so that it can only lead to a directory. -/
def endsInSlash (path : String) : Bool := path.toList.getLast? == some '/'

/-- The name of the file that a path leads to. -/
def fileName? (path : String) : Option Part := ((parts path).getLast?).filter (· ≠ back)

/-- What stands in a path behind the last slash. -/
def behindSlash (path : String) : String := String.ofList ((split path.toList).getLastD [])

/-- A path of parts. -/
def join (isAbsolute : Bool) (parts : List Part) : String :=
  (if isAbsolute then "/" else "") ++ "/".intercalate (parts.map String.ofList)

/-- The directory that the file of a path is in. -/
def parent (path : String) : String :=
  let directory := join (isAbsolute path) (parts path).dropLast
  if directory.isEmpty then "." else directory

end Postmortem.Path
