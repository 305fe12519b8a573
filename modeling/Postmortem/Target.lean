/-
Postmortem/Target.lean

A core file and its executable.

The two belong together where the core file says that a file of the
executable's name was mapped.  The image was loaded as far from the addresses
of the executable as the first part of that file is; frames whose code comes
from it are given symbols and locations.  A return address is the address
behind a call, so all frames but the innermost are looked up one byte before.
-/
import Postmortem.Capture
import Postmortem.Elf.Core
import Postmortem.Path
import Postmortem.Symbolication

namespace Postmortem

/-- A core file and the executable that it is read with. -/
structure Target where
  core : Core
  executable : Executable

namespace Target

/-- Whether a mapping is of the executable. -/
def isOwn (t : Target) (m : Mapping) : Bool :=
  match Path.fileName? t.executable.path with
  | some name => Path.fileName? m.path == some name
  | none => false

/-- The mapping with the least offset; of several, the first. -/
def leastOffset : List Mapping → Option Mapping
  | [] => none
  | m :: ms =>
    match leastOffset ms with
    | some least => if least.offset < m.offset then some least else some m
    | none => some m

/-- How far the executable's image is from its own addresses, if it was mapped. -/
def bias? (t : Target) : Option UInt64 :=
  (leastOffset (t.core.mappings.filter t.isOwn)).map fun m =>
    m.start.word - t.executable.base.word

/-- The address of a frame's code: for a caller, that of the call. -/
def codeAddress (f : Frame) : UInt64 :=
  if f.index = 0 then f.pc.word else if f.pc.isNull then 0 else f.pc.word - 1

/-- A frame with the file that its code comes from, and what it stands for if that is the
executable. -/
def annotate (t : Target) (f : Frame) : Frame :=
  match t.core.mappingFor? f.pc with
  | none => f
  | some m =>
    let f := { f with module := some m.path }
    match t.bias? with
    | none => f
    | some bias =>
      if Path.fileName? m.path = Path.fileName? t.executable.path then
        let found := t.executable.symbolize ⟨codeAddress f - bias⟩
        { f with symbol := found.symbol, location := found.location }
      else f

/-- The frames of a thread. -/
def frames (t : Target) (image : Image) (thread : Nat) : Except Failure (List Frame) :=
  match t.core.threads[thread]? with
  | none => .error (.argument (.noThread thread))
  | some info => .ok ((Frame.walk image info.registers).map t.annotate)

/-- The threads of a target, with memory of a generation. -/
def threads (t : Target) (generation : Nat) : Threads where
  infos := t.core.threads
  frames := t.frames (t.core.image generation)

/-- The process that a target captured, as the image of a generation. -/
def capture (t : Target) (generation : Nat) : Capture where
  heap := ⟨t.core.image generation, Layout.load t.executable.exports⟩
  threads := t.threads generation

end Target

end Postmortem
