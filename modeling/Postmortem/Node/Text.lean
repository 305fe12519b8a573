/-
Postmortem/Node/Text.lean

Nodes as text.

A node is one line, or several where it was inspected in detail: what is
inside is listed between braces, one item a line, and a window that leaves
items behind says how many.  Values inside others stand behind their address;
small integers have none.
-/
import Postmortem.Node
import Postmortem.Heap.Primitive

namespace Postmortem

/-! ### Lists -/

/-- The line that tells how many items a page leaves behind. -/
def Page.moreText {α : Type} (p : Page α) : String :=
  if p.window.hasMore then s!"\n    ... ({p.window.remaining} more)" else ""

/-- A page between braces, each item by its own text. -/
def Page.listText {α : Type} (item : α → String) (p : Page α) : String :=
  " \x7b" ++ String.join (p.items.map fun a => "\n    " ++ item a ++ ",") ++ p.moreText
    ++ "\n  \x7d"

/-- What is shown for a part that may be absent. -/
def shownIf {α : Type} (text : α → String) : Option α → String
  | none => ""
  | some a => text a

/-! ### Parts -/

def Element.text (e : Element String) : String :=
  s!"[{e.index}]=" ++ e.value.getD "<hole>"

def PropertyValue.text : PropertyValue String → String
  | node text => text
  | double d => s!"<Double: {d.fixed 6}>"
  | field index => s!"<field {index}>"
  | unsupported _ => "<unknown field type>"

/-- A name and its value. -/
def Property.text (p : Property String) : String := s!"{p.key}={p.value.text}"

def elementsText (p : Page (Element String)) : String := p.listText Element.text

def propertiesText (p : Page (Property String)) : String := p.listText fun q => "." ++ q.text

namespace ObjectBody

/-- The constructor, or that there is none. -/
def constructorText (b : ObjectBody String) : String := b.constructor?.getD "no constructor"

/-- What an object holds, by where it holds it. -/
def contentsText (b : ObjectBody String) : String :=
  shownIf (fun p => " elements" ++ elementsText p) b.elements
    ++ shownIf (fun p => " properties" ++ propertiesText p) b.properties
    ++ shownIf (fun p => "\n  internal fields" ++ p.listText Address.text) b.internalFields

end ObjectBody

/-- The frames of a captured stack. -/
def stackText (frames : List String) : String :=
  "\n  error stack \x7b" ++ String.join (frames.map ("\n    " ++ ·)) ++ "\n  \x7d"

def FunctionBody.text (b : FunctionBody String) : String :=
  s!"<function: {b.name} at {b.location}" ++ shownIf ("\n  context=" ++ ·) b.context
    ++ shownIf ("\n  source:\n" ++ ·) b.source ++ ">"

/-- Two hexadecimal digits. -/
def byteText (b : UInt8) : String := String.ofList (Word.hexDigits 2 b.toNat)

/-- A page of bytes. -/
def bytesText (p : Page UInt8) : String :=
  ": [\n  " ++ ", ".intercalate (p.items.map byteText)
    ++ (if p.window.hasMore then " ..." else "") ++ "\n]"

def BufferBody.text (label : String) : BufferBody → String
  | neutered => s!"<{label} [neutered]>"
  | attached store offset length bytes =>
    s!"<{label}: backingStore={store}" ++ shownIf (fun n => s!", byteOffset={n}") offset
      ++ s!", byteLength={length}" ++ shownIf bytesText bytes ++ ">"

def ContextBody.text (b : ContextBody String) : String :=
  if b.previous.isNone && b.closure.isNone && b.scopeInfo.isNone && b.locals.isEmpty then
    "<Context>"
  else
    "<Context: \x7b"
      ++ shownIf (fun a => s!"\n    (previous)={a}:<Context>,") b.previous
      ++ shownIf (fun t => s!"\n    (closure)={t},") b.closure
      ++ shownIf (fun t => s!"\n    (scope_info)={t},") b.scopeInfo
      ++ String.join (b.locals.map fun p => "\n    " ++ p.text ++ ",") ++ "\n  \x7d>"

def MapBody.text (b : MapBody String) : String :=
  s!"<Map own_descriptors={b.ownDescriptors}"
    ++ (match b.inObjectProperties with
      | some count => s!" in_object_size={count}"
      | none => " constructor_index")
    ++ s!" instance_size={b.instanceSize}"
    ++ shownIf (fun a => s!" descriptors={a}") b.descriptorsAddress
    ++ (if b.isDictionary then " [dictionary]" else "")
    ++ shownIf (":\n  " ++ ·) b.descriptors ++ ">"

def ScopeBody.text (b : ScopeBody) : String :=
  "<ScopeInfo" ++ shownIf (": for function " ++ ·) b.functionName
    ++ s!", params={b.parameterCount}, stack_locals={b.stackLocalCount}"
    ++ s!", context_locals={b.contextLocalCount}"
    ++ (if b.localNames.isEmpty then "" else " [" ++ ", ".intercalate b.localNames ++ "]") ++ ">"

/-! ### Nodes -/

/-- The text of a value, when the texts of what is inside are known. -/
def Shape.text : Shape String → String
  | smallInt n => s!"<Smi: {n}>"
  | number _ text => s!"<Number: {text}>"
  | string excerpt => s!"<String: \"{excerpt.shown}\">"
  | object body => s!"<Object: {body.constructorText}{body.contentsText}>"
  | error body stack =>
    s!"<Error: {body.constructorText}{body.contentsText}{shownIf stackText stack}>"
  | array length elements => s!"<Array: length={length}{shownIf elementsText elements}>"
  | fixedArray length elements =>
    s!"<FixedArray, len={length}" ++ shownIf (fun p => " contents=" ++ elementsText p) elements
      ++ ">"
  | function body => body.text
  | sharedInfo name location => s!"<SharedFunctionInfo: {name} at {location}>"
  | script name lineOffset sourceLength =>
    s!"<Script: {name}, line_offset={lineOffset}, source_length={sourceLength}>"
  | oddball kind => s!"<{kind.label}>"
  | regExp source body => s!"<JSRegExp source=/{source}/{shownIf ObjectBody.contentsText body}>"
  | date text => s!"<JSDate: {text}>"
  | arrayBuffer body => body.text "ArrayBuffer"
  | arrayBufferView body => body.text "ArrayBufferView"
  | context body => body.text
  | hiddenClass body => body.text
  | descriptorArray length entries =>
    s!"<DescriptorArray, len={length}" ++ shownIf (fun p => " entries" ++ propertiesText p) entries
      ++ ">"
  | nameDictionary capacity entries =>
    s!"<NameDictionary, capacity={capacity}"
      ++ shownIf (fun p => " entries" ++ propertiesText p) entries ++ ">"
  | scopeInfo body => body.text
  | symbol description => s!"<Symbol: {description}>"
  | code => "<Code>"
  | global => "<Global>"
  | globalProxy => "<Global proxy>"
  | unknown typeId => s!"<Unknown: instance type {typeId}>"

/-- What stands before the text of a value. -/
def Shape.addressText (address : Address) (mapAddress : Option Address) (isTop : Bool) :
    Shape String → String
  | smallInt _ => ""
  | _ =>
    match mapAddress with
    | some map => s!"{address}(map={map}):"
    | none => if isTop then "" else s!"{address}:"

namespace Node

/-- The text of a node inside another: its address goes before it. -/
def nestedText : Node → String :=
  fold fun address mapAddress shape => shape.addressText address mapAddress false ++ shape.text

/-- The text of a node. -/
def text (n : Node) : String :=
  let shape := n.shape.map nestedText
  shape.addressText n.address n.mapAddress true ++ shape.text

end Node

instance : ToString Node := ⟨Node.text⟩

end Postmortem
