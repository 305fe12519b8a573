/-
Postmortem/Node/Document.lean

Nodes as documents.

A node's record starts with its label, its address and the kind of value it
is; what is inside follows, in records of its own.  What is absent has no
field, and a page of items comes with its counts and the next cursor.
-/
import Postmortem.Node.Text
import Postmortem.Document

namespace Postmortem

open Document

def Address.document (a : Address) : Document := .text a.text

def Page.document {α : Type} (item : α → Document) (p : Page α) : Document :=
  .record
    [("items", .list (p.items.map item)),
     ("returnedCount", nat p.count),
     ("totalCount", nat p.window.total),
     ("hasMore", .bool p.window.hasMore),
     ("remainingCount", nat p.window.remaining),
     ("next", nat p.next)]

/-! ### Parts -/

def Element.document (e : Element Document) : Document :=
  .record (("index", nat e.index) :: optional "value" id e.value)

def PropertyValue.document : PropertyValue Document → Document
  | node d => d
  | double d => .record [("double", .double d)]
  | field index => .record [("field_index", .int index)]
  | unsupported details => .record [("details", .int details)]

def Property.document (p : Property Document) : Document :=
  .record [("key", .text p.key), ("value", p.value.document)]

def ObjectBody.fields (b : ObjectBody Document) : List (String × Document) :=
  optional "constructor" .text b.constructor?
    ++ [("elements_length", nat b.elementsLength), ("properties_length", nat b.propertiesLength),
      ("fields_length", nat b.fieldsLength)]
    ++ optional "elements" (Page.document Element.document) b.elements
    ++ optional "properties" (Page.document Property.document) b.properties
    ++ optional "internal_fields" (Page.document Address.document) b.internalFields
    ++ [("next", nat b.next), ("has_more", .bool b.hasMore)]

def Excerpt.fields (e : Excerpt) : List (String × Document) :=
  [("value", .text e.shown), ("length", nat e.length)] ++ optional "next" nat e.next
    ++ [("has_more", .bool e.hasMore)]

def FunctionBody.fields (b : FunctionBody Document) : List (String × Document) :=
  [("function_name", .text b.name), ("location", .text b.location)]
    ++ optional "context" id b.context ++ optional "source" .text b.source

def BufferBody.fields : BufferBody → List (String × Document)
  | neutered => [("neutered", .bool true)]
  | attached store offset length bytes =>
    [("neutered", .bool false), ("backing_store", store.document)]
      ++ optional "byte_offset" nat offset ++ [("byte_length", nat length)]
      ++ optional "bytes" (Page.document fun b => .text (byteText b)) bytes

def ContextBody.fields (b : ContextBody Document) : List (String × Document) :=
  optional "previous" Address.document b.previous ++ optional "closure" id b.closure
    ++ optional "scope_info" id b.scopeInfo
    ++ [("locals", .list (b.locals.map Property.document))]

def MapBody.fields (b : MapBody Document) : List (String × Document) :=
  [("own_descriptors", nat b.ownDescriptors), ("dictionary", .bool b.isDictionary)]
    ++ optional "in_object_properties" .int b.inObjectProperties
    ++ [("instance_size", .int b.instanceSize)]
    ++ optional "descriptors_address" Address.document b.descriptorsAddress
    ++ optional "descriptors" id b.descriptors

def ScopeBody.fields (b : ScopeBody) : List (String × Document) :=
  [("parameter_count", .int b.parameterCount), ("stack_local_count", .int b.stackLocalCount),
    ("context_local_count", .int b.contextLocalCount)]
    ++ optional "function_name" .text b.functionName
    ++ [("local_names", .list (b.localNames.map .text))]

/-! ### Nodes -/

namespace Shape

/-- The kind of value, as readers see it. -/
def label {ν : Type} : Shape ν → String
  | smallInt .. => "Smi"
  | number .. => "Number"
  | string .. => "String"
  | object .. => "Object"
  | error .. => "Error"
  | array .. => "Array"
  | fixedArray .. => "FixedArray"
  | function .. => "Function"
  | sharedInfo .. => "SharedFunctionInfo"
  | script .. => "Script"
  | oddball .. => "Oddball"
  | regExp .. => "RegExp"
  | date .. => "Date"
  | arrayBuffer .. => "ArrayBuffer"
  | arrayBufferView .. => "ArrayBufferView"
  | context .. => "Context"
  | hiddenClass .. => "Map"
  | descriptorArray .. => "DescriptorArray"
  | nameDictionary .. => "NameDictionary"
  | scopeInfo .. => "ScopeInfo"
  | symbol .. => "Symbol"
  | code => "Code"
  | global => "Global"
  | globalProxy => "GlobalProxy"
  | unknown .. => "Unknown"

/-- The kind of value, as programs see it. -/
def typeName {ν : Type} : Shape ν → String
  | smallInt .. => "SmallInt"
  | object .. => "PlainObject"
  | shape => shape.label

/-- The fields of a value, when the documents of what is inside are known. -/
def fields : Shape Document → List (String × Document)
  | smallInt n => [("value", .text (toString n))]
  | number value text => [("value", .double value), ("text", .text text)]
  | string excerpt => excerpt.fields
  | object body => body.fields
  | error body stack => body.fields ++ optional "stack" (.list <| ·.map .text) stack
  | array length elements | fixedArray length elements =>
    ("length", nat length) :: optional "elements" (Page.document Element.document) elements
  | function body => body.fields
  | sharedInfo name location => [("function_name", .text name), ("location", .text location)]
  | script name lineOffset sourceLength =>
    [("script_name", .text name), ("line_offset", .int lineOffset),
      ("source_length", nat sourceLength)]
  | oddball kind => [("value", .text kind.label)]
  | regExp source body => ("source", .text source) :: (body.map ObjectBody.fields).getD []
  | date text => [("value", .text text)]
  | arrayBuffer body | arrayBufferView body => body.fields
  | context body => body.fields
  | hiddenClass body => body.fields
  | descriptorArray length entries =>
    ("length", nat length) :: optional "entries" (Page.document Property.document) entries
  | nameDictionary capacity entries =>
    ("capacity", nat capacity) :: optional "entries" (Page.document Property.document) entries
  | scopeInfo body => body.fields
  | symbol description => [("description", .text description)]
  | code | global | globalProxy => []
  | unknown typeId => [("type_id", .int typeId)]

end Shape

/-- The document of a node. -/
def Node.document : Node → Document :=
  fold fun address mapAddress shape =>
    .record ([("name", .text shape.label), ("address", address.document)]
      ++ optional "map_address" Address.document mapAddress
      ++ ("type", .text shape.typeName) :: shape.fields)

end Postmortem
