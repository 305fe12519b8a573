/-
Postmortem/Directory.lean

Files of a working directory.

A program needs four things of a file system; `Files` names them, for any way
of running.  A `Directory` is a file system in itself: a tree of files with a
working directory, from which paths lead on unless they start at the root.
-/
import Postmortem.Elf.Data
import Postmortem.Failure
import Postmortem.Path

namespace Postmortem

/-- What a program does with files. -/
structure Files (m : Type → Type) where
  read : String → m (Except FileFault FileData)
  /-- Makes the file hold just these bytes. -/
  write : String → List UInt8 → m (Except FileFault Unit)
  /-- Makes the file if it is not there. -/
  touch : String → m (Except FileFault Unit)
  /-- Makes the directory, and those it is in, if they are not there. -/
  makeDirectory : String → m (Except FileFault Unit)

/-- A tree of files, by the parts of the paths from its root. -/
structure Directory where
  files : List (List Path.Part × FileData)
  directories : List (List Path.Part)

namespace Directory

/-! ### What stands where -/

/-- The directory for files that are not kept. -/
def temporary : List Path.Part := ["tmp".toList]

/-- The working directory.  No path spells its name. -/
def home : List Path.Part := temporary ++ [[]]

/-- The directory of the devices. -/
def devices : List Path.Part := ["dev".toList]

/-- The device that is always empty, whatever is written to it. -/
def sink : List Path.Part := devices ++ ["null".toList]

/-- A tree with some files in the working directory. -/
def ofFiles (files : List (String × FileData)) : Directory :=
  ⟨files.map fun f => (home ++ Path.parts f.1, f.2), [[], temporary, home, devices]⟩

/-- The tree with nothing in the working directory. -/
def empty : Directory := ofFiles []

/-- The file at a place. -/
def file? (d : Directory) (place : List Path.Part) : Option FileData :=
  if place = sink then some #[] else (d.files.find? (·.1 == place)).map (·.2)

def isDirectory (d : Directory) (place : List Path.Part) : Bool := d.directories.contains place

/-! ### Paths -/

/-- The name of a file takes no more bytes than this. -/
def maxName : Nat := 255

/-- A path takes no more bytes than this. -/
def maxPath : Nat := 4095

/-- Whether a part is too long to be the name of a file. -/
def isTooLong (part : Path.Part) : Bool := maxName < (String.ofList part).utf8ByteSize

/-- The place that parts lead to from `place`.  Every place on the way has to be a directory. -/
def walk (d : Directory) (place : List Path.Part) :
    List Path.Part → Except FileFault (List Path.Part)
  | [] => .ok place
  | part :: rest =>
    if !d.isDirectory place then
      .error (if (d.file? place).isSome then .notDirectory else .notFound)
    else if part = Path.here then d.walk place rest
    else if part = Path.back then d.walk place.dropLast rest
    else if isTooLong part then .error .nameTooLong
    else d.walk (place ++ [part]) rest

/-- Where a path starts. -/
def origin (path : String) : List Path.Part := if Path.isAbsolute path then [] else home

/-- The place that a path leads to. -/
def locate (d : Directory) (path : String) : Except FileFault (List Path.Part) :=
  if path.isEmpty then .error .notFound
  else if maxPath < path.utf8ByteSize then .error .nameTooLong
  else d.walk (origin path) (Path.steps path)

/-! ### Files -/

/-- The contents of the file at a path. -/
def read (d : Directory) (path : String) : Except FileFault FileData := do
  let place ← d.locate path
  if d.isDirectory place then throw .isDirectory
  else
    match d.file? place with
    | none => throw .notFound
    | some data => if Path.endsInSlash path then throw .notDirectory else pure data

/-- Replaces what the file at a path holds by what `f` makes of it. -/
def change (d : Directory) (path : String) (f : FileData → FileData) :
    Except FileFault Directory := do
  let place ← d.locate path
  if d.isDirectory place || Path.endsInSlash path then throw .isDirectory
  else
    match d.file? place with
    | none => pure { d with files := d.files ++ [(place, f #[])] }
    | some _ =>
      pure { d with files := d.files.map fun e => if e.1 = place then (e.1, f e.2) else e }

/-- Makes the directories at `place` and below it. -/
def makeBelow (d : Directory) (place : List Path.Part) :
    List Path.Part → Except FileFault Directory
  | [] => .ok d
  | part :: rest =>
    let next := if part = Path.back then place.dropLast else place ++ [part]
    if d.isDirectory next then d.makeBelow next rest
    else if isTooLong part then .error .nameTooLong
    else if (d.file? next).isSome then
      .error (if rest.isEmpty then .alreadyThere else .notDirectory)
    else makeBelow { d with directories := d.directories ++ [next] } next rest

/-- Makes the directory at a path, and those it is in. -/
def make (d : Directory) (path : String) : Except FileFault Directory :=
  if maxPath < path.utf8ByteSize then .error .nameTooLong
  else d.makeBelow (origin path) (Path.parts path)

/-- Goes on with a directory that was changed, or with the old one. -/
def settle (changed : Directory → Except FileFault Directory) :
    StateM Directory (Except FileFault Unit) := fun d =>
  match changed d with
  | .ok changed => (.ok (), changed)
  | .error fault => (.error fault, d)

/-- A directory as a file system. -/
def filing : Files (StateM Directory) where
  read := fun path => do pure ((← get).read path)
  write := fun path bytes => settle fun d => d.change path fun _ => bytes.toArray
  touch := fun path => settle fun d => d.change path id
  makeDirectory := fun path => settle fun d => d.make path

end Directory

end Postmortem
