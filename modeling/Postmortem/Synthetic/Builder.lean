/-
Postmortem/Synthetic/Builder.lean

Heaps made by hand.

A builder lays objects out in a sparse memory, one behind the other, as the
standard build would have them.  Every construction reserves blocks of its
own and writes to those alone; maps and oddballs of one kind are shared.  What
is built is known by its tagged address, one more than where it starts.
-/
import Postmortem.Synthetic.Constants
import Postmortem.Synthetic.Memory
import Postmortem.Number.Double
import Postmortem.Text.Utf16

namespace Postmortem.Synthetic

/-- A heap under construction. -/
structure Builder where
  memory : SparseMemory
  /-- Where the next block starts. -/
  next : Nat
  /-- Shared maps by instance type, and shared oddballs by a negative number. -/
  shared : Std.HashMap Int Address

/-- A step of construction. -/
abbrev BuildM := StateM Builder

/-- The word of a small integer. -/
def smallInt (n : Int) : UInt64 := Word.ofInt n <<< 32

/-- The bytes of a number, as many as `width`, in two's complement. -/
def numberBytes (width : Nat) (n : Int) : List UInt8 := Word.toBytes width (Word.ofInt n).toNat

/-- How many bytes a block of `size` bytes takes, with the gap behind it. -/
def blockBytes (size : Nat) : Nat := (max size 8 + 15) / 16 * 16 + 16

namespace Builder

/-- A heap without objects. -/
def empty : Builder := ⟨.empty, 0x100000, ∅⟩

/-! ### Blocks -/

/-- Reserves a block. -/
def alloc (size : Nat) : BuildM Address := do
  let b ← get
  set { b with next := b.next + blockBytes size }
  pure ⟨UInt64.ofNat (b.next + 1)⟩

/-- Changes the memory. -/
def modifyMemory (f : SparseMemory → SparseMemory) : BuildM Unit :=
  modify fun b => { b with memory := f b.memory }

/-- Writes bytes at an offset from the start of an object. -/
def setBytes (object : Address) (offset : Int) (data : List UInt8) : BuildM Unit :=
  modifyMemory (·.write (object.offset (offset - 1)) data)

/-- Writes a word at an offset from the start of an object. -/
def setWord (object : Address) (offset : Int) (w : UInt64) : BuildM Unit :=
  modifyMemory (·.writeWord (object.offset (offset - 1)) w)

/-- Makes `map` the map of an object. -/
def setMap (object map : Address) : BuildM Unit := setWord object 0 map.word

/-- Remembers a shared object. -/
def share (key : Int) (object : Address) : BuildM Unit :=
  modify fun b => { b with shared := b.shared.insert key object }

/-! ### Maps -/

/-- What a map says. -/
structure MapContents where
  type : Int
  slots : Nat
  inObject : Nat
  /-- The descriptors, and how many of them belong to the map. -/
  descriptors : Option (Address × Nat)
  constructorWord : UInt64

/-- Writes a map, whose own map is `meta_`. -/
def writeMap (map metaMap : Address) (m : MapContents) : BuildM Unit := do
  setMap map metaMap
  setBytes map 8 [UInt8.ofNat m.slots, UInt8.ofNat (m.slots - min m.inObject m.slots)]
  setBytes map 12 (numberBytes 2 m.type)
  setBytes map 16 (numberBytes 4 (((m.descriptors.map (·.2)).getD 0) * 1024))
  setWord map 24 m.constructorWord
  setWord map 32 ((m.descriptors.map (·.1.word)).getD (smallInt 0))

/-- The map of maps, which is its own map. -/
def metaMap : BuildM Address := do
  match (← get).shared[InstanceType.map]? with
  | some map => pure map
  | none =>
    let map ← alloc 48
    share InstanceType.map map
    writeMap map map ⟨InstanceType.map, 0, 0, none, 0⟩
    pure map

/-- The shared map of a type, for objects of four slots without properties. -/
def map (type : Int) : BuildM Address := do
  match (← get).shared[type]? with
  | some map => pure map
  | none =>
    let metaMap ← metaMap
    let map ← alloc 48
    writeMap map metaMap ⟨type, 4, 0, none, 0⟩
    share type map
    pure map

/-- A new map for objects with `inObject` properties inside. -/
def objectMap (type : Int) (inObject : Nat) (descriptors : Option (Address × Nat))
    (constructor? : Option Address) : BuildM Address := do
  let metaMap ← metaMap
  let map ← alloc 48
  let constructorWord := (constructor?.map Address.word).getD (smallInt 0)
  writeMap map metaMap ⟨type, 3 + inObject, inObject, descriptors, constructorWord⟩
  pure map

/-- Makes a map one of objects with dictionaries. -/
def setDictionaryMap (map : Address) : BuildM Unit := setBytes map 16 (numberBytes 4 0x200000)

/-- A new object of `size` bytes with the shared map of its type. -/
def allocTyped (type : Int) (size : Nat) : BuildM Address := do
  let map ← map type
  let object ← alloc size
  setMap object map
  pure object

/-! ### Strings -/

/-- A string of one-byte units, the low bytes of the characters. -/
def oneByteString (text : String) : BuildM Address := do
  let units := text.toList.map fun c => UInt8.ofNat c.toNat
  let string ← allocTyped InstanceType.oneByteString (16 + units.length)
  setBytes string 12 (numberBytes 4 units.length)
  setBytes string 16 units
  pure string

/-- A string of two-byte units. -/
def twoByteString (text : String) : BuildM Address := do
  let units := Utf16.encode text.toList
  let string ← allocTyped InstanceType.twoByteString (16 + 2 * units.length)
  setBytes string 12 (numberBytes 4 units.length)
  setBytes string 16 (units.flatMap fun u => Word.toBytes 2 u.toNat)
  pure string

/-- Two strings behind each other. -/
def consString (first second : Address) (length : Nat) : BuildM Address := do
  let string ← allocTyped InstanceType.oneByteCons 32
  setBytes string 12 (numberBytes 4 length)
  setWord string 16 first.word
  setWord string 24 second.word
  pure string

/-- A part of a string. -/
def slicedString (parent : Address) (offset : Int) (length : Nat) : BuildM Address := do
  let string ← allocTyped InstanceType.oneByteSliced 32
  setBytes string 12 (numberBytes 4 length)
  setWord string 16 parent.word
  setWord string 24 (smallInt offset)
  pure string

/-! ### Oddballs, numbers and symbols -/

/-- The oddball with a number. -/
def oddball (kind : Int) : BuildM Address := do
  match (← get).shared[-1 - kind]? with
  | some oddball => pure oddball
  | none =>
    let oddball ← allocTyped InstanceType.oddball 40
    setWord oddball 32 (smallInt kind)
    share (-1 - kind) oddball
    pure oddball

def undefined : BuildM Address := oddball undefinedKind

def theHole : BuildM Address := oddball theHoleKind

def heapNumber (d : Double) : BuildM Address := do
  let number ← allocTyped InstanceType.heapNumber 16
  setWord number 8 d.bits
  pure number

def symbol (description : Option String) : BuildM Address := do
  let symbol ← allocTyped InstanceType.symbol 24
  let name ← match description with
    | some text => oneByteString text
    | none => undefined
  setWord symbol 16 name.word
  pure symbol

/-! ### Arrays and objects -/

/-- Writes words one behind the other, from an offset on. -/
def setWords (object : Address) : Int → List UInt64 → BuildM Unit
  | _, [] => pure ()
  | offset, w :: ws => do
    setWord object offset w
    setWords object (offset + 8) ws

/-- An array of some type. -/
def arrayOfType (type : Int) (slots : List UInt64) : BuildM Address := do
  let array ← allocTyped type (16 + 8 * slots.length)
  setWord array 8 (smallInt slots.length)
  setWords array 16 slots
  pure array

def fixedArray (slots : List UInt64) : BuildM Address := arrayOfType InstanceType.fixedArray slots

/-- The details of a property in a field. -/
def fieldDetails (index : Int) : Int := index * 0x400

/-- The details of a double in a field. -/
def doubleFieldDetails (index : Int) : Int :=
  Word.signed (Word.ofInt (index * 0x400) ||| 0x80)

/-- The details of a value in the descriptor itself. -/
def descriptorDetails : Int := 2

/-- Descriptors: key, details, and the value. -/
def descriptors (entries : List (Address × Int × UInt64)) : BuildM Address :=
  arrayOfType InstanceType.descriptorArray
    (smallInt entries.length :: smallInt 0
      :: entries.flatMap fun (key, details, value) => [key.word, value, smallInt details])

/-- Writes the head of an object: no properties outside, no elements. -/
def initObject (object map : Address) : BuildM Unit := do
  let empty ← fixedArray []
  setMap object map
  setWord object 8 empty.word
  setWord object 16 empty.word

/-- A new object of `size` bytes, with its head, and the shared map of its type. -/
def allocObject (type : Int) (size : Nat) : BuildM Address := do
  let map ← map type
  let object ← alloc size
  initObject object map
  pure object

/-- An object with properties inside. -/
def objectOfType (type : Int) (properties : List (String × UInt64))
    (constructor? : Option Address) : BuildM Address := do
  let keys ← properties.mapM fun property => oneByteString property.1
  let entries := keys.zipIdx.map fun (key, index) => (key, fieldDetails index, smallInt 0)
  let descriptors ← descriptors entries
  let count := properties.length
  let map ← objectMap type count (some (descriptors, count)) constructor?
  let object ← alloc (24 + 8 * count)
  initObject object map
  setWords object 24 (properties.map (·.2))
  pure object

/-- An ordinary object. -/
def object (properties : List (String × UInt64)) : BuildM Address :=
  objectOfType InstanceType.jsObject properties none

/-- An array of the language. -/
def jsArray (elements : List UInt64) : BuildM Address := do
  let backing ← fixedArray elements
  let array ← allocObject InstanceType.jsArray 32
  setWord array 16 backing.word
  setWord array 24 (smallInt elements.length)
  pure array

/-- A date with a boxed time value. -/
def date (time : Double) : BuildM Address := do
  let date ← allocObject InstanceType.jsDate 32
  let value ← heapNumber time
  setWord date 24 value.word
  pure date

/-! ### Functions -/

def script (name source : String) (lineOffset : Int) : BuildM Address := do
  let name ← oneByteString name
  let source ← oneByteString source
  let script ← allocTyped InstanceType.script 40
  setWord script 8 name.word
  setWord script 16 (smallInt lineOffset)
  setWord script 24 source.word
  let undefined ← undefined
  setWord script 32 undefined.word
  pure script

/-- What the closures of a function share, which stands from `start` to `stop` in its script. -/
def sharedInfo (name : String) (script : Option Address) (start stop : Int) : BuildM Address := do
  let name ← oneByteString name
  let info ← allocTyped InstanceType.sharedInfo 56
  setWord info 8 name.word
  setWord info 16 (smallInt 0)
  let inferred ← oneByteString ""
  setWord info 24 inferred.word
  let script ← match script with
    | some script => pure script
    | none => undefined
  setWord info 32 script.word
  setBytes info 40 (numberBytes 4 (start * 4))
  setBytes info 44 (numberBytes 4 stop)
  setBytes info 48 (numberBytes 2 0)
  pure info

def function (shared : Address) (context : Option Address) : BuildM Address := do
  let function ← allocObject InstanceType.jsFunction 40
  setWord function 24 shared.word
  setWord function 32 ((context.map Address.word).getD (smallInt 0))
  pure function

/-- A scope with parameters, named by number, with variables in the context, and perhaps with the
name of a function. -/
def scopeInfo (parameters : Int) (locals : List String) (name : Option String) :
    BuildM Address := do
  let parameterNames ← (List.range parameters.toNat).mapM fun index => oneByteString s!"p{index}"
  let localNames ← locals.mapM oneByteString
  let nameWord ← match name with
    | some name => do pure (← oneByteString name).word
    | none => pure (smallInt 0)
  arrayOfType InstanceType.scopeInfo
    ([smallInt 0, smallInt parameters, smallInt 0, smallInt locals.length]
      ++ parameterNames.map Address.word ++ localNames.map Address.word
      ++ locals.map (fun _ => smallInt 0) ++ [nameWord])

def context (closure previous : Option Address) (scopeInfo : Address) (locals : List UInt64) :
    BuildM Address :=
  arrayOfType InstanceType.functionContext
    ((closure.map Address.word).getD (smallInt 0) :: (previous.map Address.word).getD (smallInt 0)
      :: scopeInfo.word :: smallInt 0 :: locals)

/-! ### Buffers -/

/-- Bytes outside any object; their address has no tag. -/
def rawBytes (data : List UInt8) : BuildM Address := do
  let a := (← alloc data.length).sub 1
  modifyMemory (·.write a data)
  pure a

def arrayBuffer (data : List UInt8) (isNeutered : Bool) : BuildM Address := do
  let buffer ← allocObject InstanceType.jsArrayBuffer 56
  let store ← rawBytes data
  setWord buffer 32 store.word
  setWord buffer 40 (UInt64.ofNat data.length)
  setBytes buffer 48 (numberBytes 4 (if isNeutered then 8 else 0))
  pure buffer

/-- A view onto a buffer; `onHeap` is where the bytes are, if they are in the heap. -/
def typedArray (buffer : Address) (offset length : UInt64) (onHeap : Option Address) :
    BuildM Address := do
  let view ← allocObject InstanceType.jsTypedArray 48
  setWord view 24 buffer.word
  setWord view 32 offset
  setWord view 40 length
  match onHeap with
  | none => pure ()
  | some data =>
    let elements ← allocTyped InstanceType.fixedArray 32
    setWord elements 8 (smallInt 0)
    setWord elements 16 0
    setWord elements 24 data.word
    setWord view 16 elements.word
  pure view

end Builder

end Postmortem.Synthetic
