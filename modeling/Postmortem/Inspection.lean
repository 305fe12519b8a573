/-
Postmortem/Inspection.lean

Inspecting values.

`Inspection.shapeOf` says what is found in an object of each kind, given a way
to inspect the values inside it, which may do more than read the heap;
`inspect` closes the recursion with one that reads only.  An object that is met
again below itself is shown as a line, so every path ends.  A failing read fails
the inspection as a whole.
-/
import Postmortem.Heap.Buffer
import Postmortem.Heap.CapturedStack
import Postmortem.Heap.Kind
import Postmortem.Node.Text
import Postmortem.Options

namespace Postmortem

open HeapM hiding forRange
open MonadHeap (forRange)

namespace Inspection

/-- A way to inspect a value. -/
abbrev Inspector := Value → Options → HeapM Node

variable {m : Type → Type} [MonadHeap m] (inner : Value → Options → m Node)

/-! ### Collections -/

/-- Element `index` of an array. -/
def element (array : Address) (o : Options) (index : Nat) : m (Element Node) := do
  let found ← FixedArray.get array index
  if ← isHole found then pure ⟨index, none⟩
  else do pure ⟨index, some (← inner found o.child)⟩

/-- The elements of an array that a window covers. -/
def elementPage (array : Address) (o : Options) (w : Window) : m (Page (Element Node)) := do
  pure ⟨← forRange w.start (element inner array o) w.length, w⟩

/-- A property as an object stores it. -/
def property (o : Options) (entry : Value × PropertySlot) : m (Property Node) := do
  let value ← match entry.2 with
    | .value v => do pure (.node (← inner v o.child))
    | .double d => pure (.double d)
    | .unsupported details => pure (.unsupported details)
  pure ⟨← keyText entry.1, value⟩

/-- Descriptor `index` of an array. -/
def descriptor (array : Address) (o : Options) (index : Nat) : m (Property Node) := do
  let entry ← DescriptorArray.entry array index 0
  let value ← match entry.storage with
    | .descriptor => do pure (.node (← inner (← DescriptorArray.value array index) o.child))
    | .field index _ => pure (.field index)
    | .unsupported => pure (.unsupported entry.details)
  pure ⟨← keyText entry.key, value⟩

/-- An entry of a dictionary. -/
def dictionaryEntry (o : Options) (entry : Value × Value) : m (Property Node) := do
  let key ← keyText entry.1
  pure ⟨key, .node (← inner entry.2 o.child)⟩

/-- Runs `x` if details are asked for. -/
def whenDetailed {α : Type} (o : Options) (x : m α) : m (Option α) :=
  if o.detailed then do pure (some (← x)) else pure none

/-! ### Objects -/

/-- The page of a domain, if the window falls into it. -/
def domainPage {α : Type} (w : Option Window) (x : Window → m (Page α)) :
    m (Option (Page α)) := do
  match w with
  | none => pure none
  | some w => do pure (some (← x w))

/-- What an object holds. -/
def objectBody (object : Address) (o : Options) : m (ObjectBody Node) := do
  let map ← Map.of object
  Map.checkInObjectRegion map
  let name ← Map.constructorName? map
  let elements ← JsObject.elementsLength object
  let properties ← JsObject.propertiesLength object
  let fields ← JsObject.internalFieldsLength object
  if o.detailed then
    let w := Window.of o.current o.limit (elements + properties + fields)
    let elementPage ← domainPage (w.split 0 elements) fun part => do
      elementPage inner (← JsObject.elements object) o part
    let propertyPage ← domainPage (w.split elements properties) fun part => do
      let entries ← JsObject.properties object (some part)
      pure ⟨← entries.mapM (property inner o), part⟩
    let fieldPage ← domainPage (w.split (elements + properties) fields) fun part => do
      pure ⟨← JsObject.internalFields object part, part⟩
    pure ⟨name, elements, properties, fields, elementPage, propertyPage, fieldPage, w.stop,
      w.hasMore⟩
  else pure ⟨name, elements, properties, fields, none, none, none, 0, false⟩

/-- The frames of an error's captured stack, a line each. -/
def stackLines (object : Address) : m (Option (List String)) := do
  match ← CapturedStack.locate object with
  | none => pure none
  | some stack =>
    let lines ← forRange 0 (fun frame => do
      pure (← inner (← stack.function frame) .default).text) stack.frames
    pure (some lines)

/-! ### Functions and contexts -/

def functionBody (function : Address) (o : Options) : m (FunctionBody Node) := do
  let name ← JsFunction.name function
  let location ← JsFunction.location function
  if o.detailed then
    let found ← JsFunction.context function
    let context ← match found with
      | .heap _ => do pure (some (← inner found { o.child with detailed := true }))
      | .smi .. => pure none
    let source ← if o.includeSourceText then JsFunction.source? function else pure none
    pure ⟨name, location, context, source.map fun text => s!"function {name}{text}"⟩
  else pure ⟨name, location, none, none⟩

def contextBody (context : Address) (o : Options) : m (ContextBody Node) := do
  if o.detailed then
    let previous ← Context.previous context
    let closure ← Context.closure? context
    let closureNode ← closure.mapM fun found => inner found o.summary
    let scopeNode ← if closure.isSome then pure none else do
      pure (some (← inner (.heap (← Context.scopeInfo context)) o.summary))
    let found ← Context.locals context
    let locals ← found.mapM fun (name, value) => do
      pure ⟨name, .node (← inner value o.child)⟩
    pure ⟨previous.heap?, closureNode, scopeNode, locals⟩
  else pure ⟨none, none, none, []⟩

def scopeBody (scope : Address) (o : Options) : HeapM ScopeBody := do
  let locals ← ScopeInfo.contextLocalCount scope
  let names ← if o.detailed then ScopeInfo.contextLocalNames scope else pure []
  let parameters ← ScopeInfo.parameterCount scope
  let stackLocals ← ScopeInfo.stackLocalCount scope
  pure ⟨parameters, stackLocals, locals, ← ScopeInfo.functionName? scope, names⟩

def mapBody (map : Address) (o : Options) : m (MapBody Node) := do
  let isDictionary ← Map.isDictionary map
  let l ← layout
  let inObject ←
    if l.has l.inObjectConstant then do pure (some (← Map.inObjectProperties map)) else pure none
  let descriptors ← Map.descriptors map
  let expanded ←
    if o.detailed && !isDictionary then descriptors.mapM fun array => inner (.heap array) o.child
    else pure none
  let own ← Map.ownDescriptors map
  pure ⟨own, isDictionary, inObject, ← Map.instanceSize map, descriptors, expanded⟩

/-! ### Buffers -/

/-- The bytes of the window over `length` bytes from `start` on. A request without a limit is
capped like a text. -/
def payload (start : Address) (length : Nat) (o : Options) : HeapM (Option (Page UInt8)) :=
  whenDetailed o do
    let w := Window.of o.forText.current o.forText.limit length
    pure ⟨← bytes (start.offset w.start) w.length, w⟩

def bufferBody (buffer : Address) (o : Options) : HeapM BufferBody := do
  if ← ArrayBuffer.isNeutered buffer then pure .neutered
  else
    let store ← ArrayBuffer.backingStore buffer
    let length ← ArrayBuffer.byteLength buffer
    pure (.attached store none length (← payload store length o))

def viewBody (view : Address) (o : Options) : HeapM BufferBody := do
  let buffer ← ArrayBufferView.buffer view
  if ← ArrayBuffer.isNeutered buffer then pure .neutered
  else
    let store ← ArrayBufferView.store view buffer
    let offset ← ArrayBufferView.byteOffset view
    let length ← ArrayBufferView.byteLength view
    pure (.attached store (some offset) length (← payload (store.offset offset) length o))

/-! ### Kinds -/

/-- The stored elements of an array of the language. -/
def arrayShape (array : Address) (o : Options) : m (Shape Node) := do
  let length ← JsArray.length array
  let elements ← whenDetailed o do
    let backing ← JsArray.backing array
    let stored := min length (← FixedArray.length backing)
    elementPage inner backing o (.of o.current o.limit stored)
  pure (.array length elements)

def fixedArrayShape (array : Address) (o : Options) : m (Shape Node) := do
  let length ← FixedArray.length array
  let elements ← whenDetailed o (elementPage inner array o (.of o.current o.limit length))
  pure (.fixedArray length elements)

def descriptorsShape (array : Address) (o : Options) : m (Shape Node) := do
  let length ← DescriptorArray.length array
  let entries ← whenDetailed o do
    let w := Window.of o.current o.limit length
    pure ⟨← forRange w.start (descriptor inner array o) w.length, w⟩
  pure (.descriptorArray length entries)

def dictionaryShape (dictionary : Address) (o : Options) : m (Shape Node) := do
  let capacity ← NameDictionary.capacity dictionary
  let entries ← whenDetailed o do
    let w := Window.of o.current o.limit (← NameDictionary.liveCount dictionary)
    let entries ← NameDictionary.entries dictionary (some w)
    pure ⟨← entries.mapM (dictionaryEntry inner o), w⟩
  pure (.nameDictionary capacity entries)

def scriptShape (script : Address) : HeapM (Shape Node) := do
  let sourceLength ← match ← Script.source? script with
    | some source => JsString.length source
    | none => pure 0
  let name ← Script.name script
  pure (.script name (← Script.lineOffset script) sourceLength)

def sharedShape (shared : Address) : HeapM (Shape Node) := do
  let name ← SharedInfo.properName shared
  pure (.sharedInfo name (← SharedInfo.location shared))

def stringShape (string : Address) (o : Options) : HeapM (Shape Node) := do
  pure (.string (.of (← JsString.text string) o.current o.limit o.maxTextLength))

def numberShape (number : Address) (o : Options) : HeapM (Shape Node) := do
  let value ← HeapNumber.value number
  pure (.number value (numberText value o.nested))

def errorShape (object : Address) (o : Options) : m (Shape Node) := do
  let body ← objectBody inner object o
  let stack ← if o.detailed then stackLines inner object else pure none
  pure (.error body stack)

/-- What is found in an object of a kind. -/
def shapeOf (kind : Kind) (object : Address) (o : Options) : m (Shape Node) := do
  match kind with
  | .global => pure .global
  | .globalProxy => pure .globalProxy
  | .code => pure .code
  | .map => do pure (.hiddenClass (← mapBody inner object o))
  | .context => do pure (.context (← contextBody inner object o))
  | .error => errorShape inner object o
  | .object => do pure (.object (← objectBody inner object o))
  | .number => numberShape object o
  | .array => arrayShape inner object o
  | .oddball => do pure (.oddball (← Oddball.kind object))
  | .function => do pure (.function (← functionBody inner object o))
  | .regExp =>
    let source ← JsRegExp.source object
    pure (.regExp source (← whenDetailed o (objectBody inner object o)))
  | .string => stringShape object o
  | .fixedArray => fixedArrayShape inner object o
  | .arrayBuffer => do pure (.arrayBuffer (← bufferBody object o))
  | .arrayBufferView => do pure (.arrayBufferView (← viewBody object o))
  | .date => do pure (.date (← JsDate.text object))
  | .sharedInfo => sharedShape object
  | .script => scriptShape object
  | .symbol => do pure (.symbol ((← Symbol.description? object).getD ""))
  | .scopeInfo => do pure (.scopeInfo (← scopeBody object o))
  | .descriptorArray => descriptorsShape inner object o
  | .nameDictionary => dictionaryShape inner object o
  | .unknown typeId => pure (.unknown typeId)

/-! ### Values -/

/-- The options for an object below `ancestors`: a line, if it is one of them. -/
def optionsBelow (ancestors : List Address) (object : Address) (o : Options) : Options :=
  if ancestors.contains object then o.summary else o

/-- The address of an object's map, if it is asked for. -/
def shownMap (object : Address) (o : Options) : HeapM (Option Address) :=
  if o.includeMapAddress then do pure (some (← Map.of object)) else pure none

/-- Inspects a value inside `ancestors`, at most `levels` deep. -/
def below : Nat → List Address → Inspector
  | _, _, .smi raw number, _ => pure (.mk ⟨raw⟩ none (.smallInt number))
  | 0, _, .heap object, _ => giveUp (.unreadable object 0)
  | levels + 1, ancestors, .heap object, o => do
    let o := optionsBelow ancestors object o
    let kind ← Kind.of object
    let shape ← shapeOf (below levels (object :: ancestors)) kind object o
    pure (.mk object (← shownMap object o) shape)

/-- No value is deeper: every level but the last adds another address to the ancestors. -/
def maxLevels : Nat := UInt64.size + 2

end Inspection

/-- Inspects a value. -/
def inspect (v : Value) (o : Options) : HeapM Node :=
  Inspection.below Inspection.maxLevels [] v o

/-- Inspects the value of a word. -/
def inspectWord (word : Address) (o : Options) : HeapM Node := do
  inspect (.classify (← layout) word.word) o

end Postmortem
