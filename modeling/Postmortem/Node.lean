/-
Postmortem/Node.lean

Inspected values.

A node is a value at an address: an optional map address, and a shape that
says what kind of value it is and holds what was found inside.  Shapes take
the type of what is inside as a parameter, so that a node is a tree
(`Shape Node`), and a rendering of a node is a fold: given what became of the
parts, say what becomes of the whole.  `Node.fold_mk` is the equation of folds.
-/
import Postmortem.Number.Double
import Postmortem.Address
import Postmortem.Window
import Postmortem.Text.Excerpt
import Postmortem.Heap.Oddball

namespace Postmortem

/-! ### Parts -/

/-- An element of a collection; a hole has no value. -/
structure Element (ν : Type) where
  index : Nat
  value : Option ν

/-- The value of a property. -/
inductive PropertyValue (ν : Type) where
  | node (n : ν)
  /-- A double without a box. -/
  | double (d : Double)
  /-- The field that holds the value, as a descriptor tells it. -/
  | field (index : Int)
  /-- A value kept in a way not understood; the word of details. -/
  | unsupported (details : Int)

/-- A property with its name. -/
structure Property (ν : Type) where
  key : String
  value : PropertyValue ν

/-- What objects, errors and regular expressions hold. -/
structure ObjectBody (ν : Type) where
  constructor? : Option String
  elementsLength : Nat
  propertiesLength : Nat
  fieldsLength : Nat
  elements : Option (Page (Element ν))
  properties : Option (Page (Property ν))
  internalFields : Option (Page Address)
  /-- The cursor behind the window, over elements, properties and fields. -/
  next : Nat
  hasMore : Bool

structure FunctionBody (ν : Type) where
  name : String
  location : String
  context : Option ν
  source : Option String

/-- A buffer, or a view onto one. -/
inductive BufferBody where
  /-- Given away. -/
  | neutered
  | attached (store : Address) (offset : Option Nat) (length : Nat) (bytes : Option (Page UInt8))

structure ContextBody (ν : Type) where
  previous : Option Address
  closure : Option ν
  scopeInfo : Option ν
  locals : List (Property ν)

structure MapBody (ν : Type) where
  ownDescriptors : Nat
  isDictionary : Bool
  inObjectProperties : Option Int
  instanceSize : Int
  descriptorsAddress : Option Address
  descriptors : Option ν

structure ScopeBody where
  parameterCount : Int
  stackLocalCount : Int
  contextLocalCount : Int
  functionName : Option String
  localNames : List String

/-! ### Shapes -/

/-- What kind of value a node is, and what was found inside. -/
inductive Shape (ν : Type) where
  | smallInt (number : Int)
  | number (value : Double) (text : String)
  | string (excerpt : Excerpt)
  | object (body : ObjectBody ν)
  | error (body : ObjectBody ν) (stack : Option (List String))
  | array (length : Nat) (elements : Option (Page (Element ν)))
  | fixedArray (length : Nat) (elements : Option (Page (Element ν)))
  | function (body : FunctionBody ν)
  | sharedInfo (name location : String)
  | script (name : String) (lineOffset : Int) (sourceLength : Nat)
  | oddball (kind : OddballKind)
  | regExp (source : String) (body : Option (ObjectBody ν))
  | date (text : String)
  | arrayBuffer (body : BufferBody)
  | arrayBufferView (body : BufferBody)
  | context (body : ContextBody ν)
  | hiddenClass (body : MapBody ν)
  | descriptorArray (length : Nat) (entries : Option (Page (Property ν)))
  | nameDictionary (capacity : Nat) (entries : Option (Page (Property ν)))
  | scopeInfo (body : ScopeBody)
  | symbol (description : String)
  | code
  | global
  | globalProxy
  | unknown (typeId : Int)

/-- An inspected value. -/
inductive Node where
  | mk (address : Address) (mapAddress : Option Address) (shape : Shape Node)

namespace Node

def address : Node → Address
  | mk address _ _ => address

def mapAddress : Node → Option Address
  | mk _ mapAddress _ => mapAddress

def shape : Node → Shape Node
  | mk _ _ shape => shape

end Node

/-! ### Replacing what is inside -/

variable {ν μ : Type}

def Page.map (f : ν → μ) (p : Page ν) : Page μ := ⟨p.items.map f, p.window⟩

def Element.map (f : ν → μ) (e : Element ν) : Element μ := ⟨e.index, e.value.map f⟩

def PropertyValue.map (f : ν → μ) : PropertyValue ν → PropertyValue μ
  | node n => node (f n)
  | double d => double d
  | field index => field index
  | unsupported details => unsupported details

def Property.map (f : ν → μ) (p : Property ν) : Property μ := ⟨p.key, p.value.map f⟩

def ObjectBody.map (f : ν → μ) (b : ObjectBody ν) : ObjectBody μ :=
  { b with
    elements := b.elements.map (Page.map (Element.map f))
    properties := b.properties.map (Page.map (Property.map f)) }

def FunctionBody.map (f : ν → μ) (b : FunctionBody ν) : FunctionBody μ :=
  { b with context := b.context.map f }

def ContextBody.map (f : ν → μ) (b : ContextBody ν) : ContextBody μ :=
  { b with
    closure := b.closure.map f
    scopeInfo := b.scopeInfo.map f
    locals := b.locals.map (Property.map f) }

def MapBody.map (f : ν → μ) (b : MapBody ν) : MapBody μ :=
  { b with descriptors := b.descriptors.map f }

/-- The shape with `f` applied to everything inside. -/
def Shape.map (f : ν → μ) : Shape ν → Shape μ
  | smallInt n => smallInt n
  | number value text => number value text
  | string excerpt => string excerpt
  | object body => object (body.map f)
  | error body stack => error (body.map f) stack
  | array length elements => array length (elements.map (Page.map (Element.map f)))
  | fixedArray length elements => fixedArray length (elements.map (Page.map (Element.map f)))
  | function body => function (body.map f)
  | sharedInfo name location => sharedInfo name location
  | script name lineOffset sourceLength => script name lineOffset sourceLength
  | oddball kind => oddball kind
  | regExp source body => regExp source (body.map (ObjectBody.map f))
  | date text => date text
  | arrayBuffer body => arrayBuffer body
  | arrayBufferView body => arrayBufferView body
  | context body => context (body.map f)
  | hiddenClass body => hiddenClass (body.map f)
  | descriptorArray length entries =>
    descriptorArray length (entries.map (Page.map (Property.map f)))
  | nameDictionary capacity entries =>
    nameDictionary capacity (entries.map (Page.map (Property.map f)))
  | scopeInfo body => scopeInfo body
  | symbol description => symbol description
  | code => code
  | global => global
  | globalProxy => globalProxy
  | unknown typeId => unknown typeId

/-! ### Folds -/

namespace Node

variable {α : Type} (f : Address → Option Address → Shape α → α)

mutual

/-- What becomes of a node, when `f` says what becomes of a value whose parts are done. -/
def fold : Node → α
  | mk address mapAddress shape => f address mapAddress (foldShape shape)

def foldShape : Shape Node → Shape α
  | .smallInt number => .smallInt number
  | .number value text => .number value text
  | .string excerpt => .string excerpt
  | .object body => .object (foldObject body)
  | .error body stack => .error (foldObject body) stack
  | .array length elements => .array length (foldElements elements)
  | .fixedArray length elements => .fixedArray length (foldElements elements)
  | .function ⟨name, location, context, source⟩ =>
    .function ⟨name, location, foldOption context, source⟩
  | .sharedInfo name location => .sharedInfo name location
  | .script name lineOffset sourceLength => .script name lineOffset sourceLength
  | .oddball kind => .oddball kind
  | .regExp source body => .regExp source (foldOptionObject body)
  | .date text => .date text
  | .arrayBuffer body => .arrayBuffer body
  | .arrayBufferView body => .arrayBufferView body
  | .context ⟨previous, closure, scopeInfo, locals⟩ =>
    .context ⟨previous, foldOption closure, foldOption scopeInfo, foldPropertyList locals⟩
  | .hiddenClass ⟨own, isDictionary, inObject, size, descriptorsAddress, descriptors⟩ =>
    .hiddenClass ⟨own, isDictionary, inObject, size, descriptorsAddress, foldOption descriptors⟩
  | .descriptorArray length entries => .descriptorArray length (foldProperties entries)
  | .nameDictionary capacity entries => .nameDictionary capacity (foldProperties entries)
  | .scopeInfo body => .scopeInfo body
  | .symbol description => .symbol description
  | .code => .code
  | .global => .global
  | .globalProxy => .globalProxy
  | .unknown typeId => .unknown typeId

def foldObject : ObjectBody Node → ObjectBody α
  | ⟨name, elementsLength, propertiesLength, fieldsLength, elements, properties, fields, next,
      hasMore⟩ =>
    ⟨name, elementsLength, propertiesLength, fieldsLength, foldElements elements,
      foldProperties properties, fields, next, hasMore⟩

def foldOptionObject : Option (ObjectBody Node) → Option (ObjectBody α)
  | none => none
  | some body => some (foldObject body)

def foldElements : Option (Page (Element Node)) → Option (Page (Element α))
  | none => none
  | some page => some (foldElementPage page)

def foldElementPage : Page (Element Node) → Page (Element α)
  | ⟨items, window⟩ => ⟨foldElementList items, window⟩

def foldElementList : List (Element Node) → List (Element α)
  | [] => []
  | item :: items => foldElement item :: foldElementList items

def foldElement : Element Node → Element α
  | ⟨index, value⟩ => ⟨index, foldOption value⟩

def foldProperties : Option (Page (Property Node)) → Option (Page (Property α))
  | none => none
  | some page => some (foldPropertyPage page)

def foldPropertyPage : Page (Property Node) → Page (Property α)
  | ⟨items, window⟩ => ⟨foldPropertyList items, window⟩

def foldPropertyList : List (Property Node) → List (Property α)
  | [] => []
  | item :: items => foldProperty item :: foldPropertyList items

def foldProperty : Property Node → Property α
  | ⟨key, value⟩ => ⟨key, foldPropertyValue value⟩

def foldPropertyValue : PropertyValue Node → PropertyValue α
  | .node n => .node (fold n)
  | .double d => .double d
  | .field index => .field index
  | .unsupported details => .unsupported details

def foldOption : Option Node → Option α
  | none => none
  | some n => some (fold n)

end

theorem foldOption_eq (n : Option Node) : foldOption f n = n.map (fold f) := by
  cases n <;> rfl

theorem foldElement_eq (e : Element Node) : foldElement f e = e.map (fold f) := by
  rcases e with ⟨index, value⟩
  simp [foldElement, Element.map, foldOption_eq]

theorem foldElementList_eq (items : List (Element Node)) :
    foldElementList f items = items.map (Element.map (fold f)) := by
  induction items with
  | nil => rfl
  | cons item items ih => simp [foldElementList, foldElement_eq, ih]

theorem foldElements_eq (elements : Option (Page (Element Node))) :
    foldElements f elements = elements.map (Page.map (Element.map (fold f))) := by
  rcases elements with _ | ⟨items, window⟩ <;>
    simp [foldElements, foldElementPage, Page.map, foldElementList_eq]

theorem foldProperty_eq (p : Property Node) : foldProperty f p = p.map (fold f) := by
  rcases p with ⟨key, _ | _ | _ | _⟩ <;> rfl

theorem foldPropertyList_eq (items : List (Property Node)) :
    foldPropertyList f items = items.map (Property.map (fold f)) := by
  induction items with
  | nil => rfl
  | cons item items ih => simp [foldPropertyList, foldProperty_eq, ih]

theorem foldProperties_eq (properties : Option (Page (Property Node))) :
    foldProperties f properties = properties.map (Page.map (Property.map (fold f))) := by
  rcases properties with _ | ⟨items, window⟩ <;>
    simp [foldProperties, foldPropertyPage, Page.map, foldPropertyList_eq]

theorem foldObject_eq (b : ObjectBody Node) : foldObject f b = b.map (fold f) := by
  rcases b with ⟨_, _, _, _, _, _, _, _, _⟩
  simp [foldObject, ObjectBody.map, foldElements_eq, foldProperties_eq]

theorem foldOptionObject_eq (b : Option (ObjectBody Node)) :
    foldOptionObject f b = b.map (ObjectBody.map (fold f)) := by
  cases b <;> simp [foldOptionObject, foldObject_eq]

theorem foldShape_eq (s : Shape Node) : foldShape f s = s.map (fold f) := by
  cases s with
  | function body =>
    rcases body with ⟨_, _, _, _⟩
    simp [foldShape, Shape.map, FunctionBody.map, foldOption_eq]
  | context body =>
    rcases body with ⟨_, _, _, _⟩
    simp [foldShape, Shape.map, ContextBody.map, foldOption_eq, foldPropertyList_eq]
  | hiddenClass body =>
    rcases body with ⟨_, _, _, _, _, _⟩
    simp [foldShape, Shape.map, MapBody.map, foldOption_eq]
  | _ =>
    simp [foldShape, Shape.map, foldObject_eq, foldOptionObject_eq, foldElements_eq,
      foldProperties_eq]

theorem fold_mk (address : Address) (mapAddress : Option Address) (shape : Shape Node) :
    fold f (mk address mapAddress shape) = f address mapAddress (shape.map (fold f)) := by
  rw [fold, foldShape_eq]

end Node

end Postmortem
