/-
Postmortem/Failure.lean

Why an inspection fails.

A failure is a cause, never a text: memory that cannot be read, a constant
the build does not export, an object whose shape makes no sense, an argument
out of place, a file that is no target.  `Failure.message` is the one place
where causes become sentences.
-/
import Postmortem.Address
import Postmortem.Layout.Constant
import Postmortem.Elf.Fault

namespace Postmortem

/-! ### Causes -/

/-- A heap object, or a frame, whose shape makes no sense. -/
inductive ShapeFault where
  | notHeapObject (field : Constant) (object : Address)
  | notSmallInteger (field : Constant) (object : Address)
  | oversizedRead (length : Nat) (address : Address)
  | oversizedUnits (length : Nat)
  | negativeLength (length : Int)
  | representation (tag : Int)
  | oversizedString (string : Address)
  | inObjectRegion (map : Address) (count size : Int)
  | descriptorSlot (slot : Int)
  | descriptorDetails (index : Nat) (details : Address)
  | dictionarySlot (slot : Int)
  | noDictionary (object : Address)
  | outsideObject (offset header size : Int) (object : Address)
  | noProperties (index : Int) (object : Address)
  | outsideProperties (index : Int) (length : Nat)
  | outsideArray (index length : Nat) (array : Address)
  | negativeContextSlot
  | noScopeInfo (context : Address)
  | negativeScopeSlot
  | scopeCount (scope : Address)
  | scopeSlot (slot : Int)
  | unnamedLocal (index : Nat)
  | marker (value : Int)
  | stackWithoutCount
  | stackShape (count length : Int)
  | stackNotArray
  deriving DecidableEq

/-- An argument that does not fit what is there. -/
inductive ArgumentFault where
  | smallInteger (address : Address)
  | notObject (address : Address) (kind : String)
  | notString (address : Address)
  | noFrame (thread count frame : Nat)
  | noThread (index : Nat)
  deriving DecidableEq

/-- A file that cannot serve as part of a target. -/
inductive TargetFault where
  | core (path : String) (fault : ElfFault)
  | executable (path : String) (fault : ElfFault)
  | debugSection (name : String) (fault : ElfFault)
  deriving DecidableEq

/-- A file that cannot be read or written. -/
inductive FileFault where
  | notFound
  | isDirectory
  | notDirectory
  | denied
  | alreadyThere
  | nameTooLong
  deriving DecidableEq

/-- Why an inspection fails. -/
inductive Failure where
  /-- Memory at `address` that cannot be read. -/
  | unreadable (address : Address) (length : Nat)
  /-- A constant that the build does not export. -/
  | missing (constant : Constant)
  | shape (fault : ShapeFault)
  /-- A typed address that is none. -/
  | address (typed : String)
  | argument (fault : ArgumentFault)
  | target (fault : TargetFault)
  | file (fault : FileFault)
  deriving DecidableEq

/-! ### Sentences -/

def ShapeFault.message : ShapeFault → String
  | notHeapObject field object => s!"{field.name} of {object} is not a heap object"
  | notSmallInteger field object => s!"{field.name} of {object} is not a small integer"
  | oversizedRead length address => s!"refusing {length}-byte read at {address}"
  | oversizedUnits length => s!"two-byte string length {length} overflows"
  | negativeLength length => s!"negative string length {length}"
  | representation tag => s!"unknown string representation {Word.shortHex (Word.ofInt tag)}"
  | oversizedString string => s!"string at {string} is too large"
  | inObjectRegion map count size =>
    s!"map {map} declares {count} in-object properties in a {size}-byte instance"
  | descriptorSlot slot => s!"descriptor slot {slot}"
  | descriptorDetails index details =>
    s!"descriptor {index} details is a heap pointer {details}"
  | dictionarySlot slot => s!"dictionary slot {slot}"
  | noDictionary object => s!"dictionary object {object} has no properties"
  | outsideObject offset header size object =>
    s!"in-object field at {offset} outside {header}..{size} of {object}"
  | noProperties index object => s!"field {index} of {object} has no properties array"
  | outsideProperties index length =>
    s!"field {index} outside properties array of length {length}"
  | outsideArray index length array =>
    s!"slot {index} outside array of length {length} at {array}"
  | negativeContextSlot => "negative context slot"
  | noScopeInfo context => s!"context {context} has no scope info"
  | negativeScopeSlot => "negative scope info slot"
  | scopeCount scope => s!"scope info {scope} count is not a Smi"
  | scopeSlot slot => s!"scope info slot {slot}"
  | unnamedLocal index => s!"context local {index} has no name"
  | marker value => s!"unknown frame marker {value}"
  | stackWithoutCount => "first stack element is not a Smi"
  | stackShape count length =>
    s!"array does not look like a stack: count {count}, length {length}"
  | stackNotArray => "symbol property is not an array"

def ArgumentFault.message : ArgumentFault → String
  | smallInteger address => s!"{address} is a small integer"
  | notObject address kind => s!"{address} is a {kind}, not a JS object"
  | notString address => s!"{address} is not a string"
  | noFrame thread count frame => s!"thread {thread} has {count} frames, no frame {frame}"
  | noThread index => s!"no thread at index {index}"

def TargetFault.message : TargetFault → String
  | core path fault => s!"{path}: {fault.message}"
  | executable path fault => s!"failed to parse {path}: {fault.message}"
  | debugSection name fault => s!"failed to read {name}: {fault.message}"

def FileFault.message : FileFault → String
  | notFound => "No such file or directory (os error 2)"
  | isDirectory => "Is a directory (os error 21)"
  | notDirectory => "Not a directory (os error 20)"
  | denied => "Permission denied (os error 13)"
  | alreadyThere => "File exists (os error 17)"
  | nameTooLong => "File name too long (os error 36)"

/-- The sentence that tells a failure. -/
def Failure.message : Failure → String
  | unreadable start length => s!"Failed to read {length} bytes at {start}"
  | missing constant => s!"Layout constant unavailable: {constant.name}"
  | shape fault => s!"Unrecognized layout: {fault.message}"
  | address typed => s!"Invalid address format: {typed}"
  | argument fault => s!"Invalid argument: {fault.message}"
  | target fault => s!"Unsupported target file: {fault.message}"
  | file fault => s!"IO error: {fault.message}"

/-- Reads a typed address, or says which text is none. -/
def Address.parse (typed : String) : Except Failure Address :=
  match Address.parse? typed with
  | some a => .ok a
  | none => .error (.address typed)

end Postmortem
