/-
Postmortem/Heap/Kind.lean

Kinds of objects.

An object's kind follows from its instance type.  Ranges of types overlap, so
the order of the tests decides: contexts are looked for before ordinary
objects, and errors as well.  Builds without a type for errors have ordinary
objects for them, which are known by the name of their constructor.  A type
that no test accepts is a kind of its own, so every object whose type can be
read has a kind.
-/
import Postmortem.Heap.Constructor

namespace Postmortem

open HeapM

/-- What an object is. -/
inductive Kind where
  | global
  | globalProxy
  | code
  | map
  | context
  | error
  | object
  | number
  | array
  | oddball
  | function
  | regExp
  | string
  | fixedArray
  | arrayBuffer
  | arrayBufferView
  | date
  | sharedInfo
  | script
  | symbol
  | scopeInfo
  | descriptorArray
  | nameDictionary
  | unknown (typeId : Int)
  deriving DecidableEq

namespace Kind

/-- The name of a kind. -/
def name : Kind → String
  | global => "Global"
  | globalProxy => "GlobalProxy"
  | code => "Code"
  | map => "Map"
  | context => "Context"
  | error => "Error"
  | object => "Object"
  | number => "Number"
  | array => "Array"
  | oddball => "Oddball"
  | function => "Function"
  | regExp => "RegExp"
  | string => "String"
  | fixedArray => "FixedArray"
  | arrayBuffer => "ArrayBuffer"
  | arrayBufferView => "ArrayBufferView"
  | date => "Date"
  | sharedInfo => "SharedFunctionInfo"
  | script => "Script"
  | symbol => "Symbol"
  | scopeInfo => "ScopeInfo"
  | descriptorArray => "DescriptorArray"
  | nameDictionary => "NameDictionary"
  | unknown _ => "Unknown"

/-- The kinds told from the type alone before errors are looked for, in order. -/
def beforeErrors (l : Layout) (type : Int) : List (Bool × Kind) :=
  [(l.agrees .typeGlobalObject type, global),
   (l.agrees .typeGlobalProxy type, globalProxy),
   (l.agrees .typeCode type, code),
   (l.agrees .typeMap type, map),
   (l.isContext type, context)]

/-- The kinds told from the type alone after errors were looked for, in order. Where a build does
not tell the source of regular expressions, they are ordinary objects. -/
def afterErrors (l : Layout) (type : Int) : List (Bool × Kind) :=
  [(l.isPlainObject type, object),
   (l.agrees .typeHeapNumber type, number),
   (l.agrees .typeJsArray type, array),
   (l.agrees .typeOddball type, oddball),
   (l.agrees .typeJsFunction type, function),
   (l.agrees .typeJsRegexp type, if l.has .regExpSource then regExp else object),
   (l.isString type, string),
   (l.agrees .typeFixedArray type, fixedArray),
   (l.agrees .typeJsArrayBuffer type, arrayBuffer),
   (l.agrees .typeJsTypedArray type, arrayBufferView),
   (l.agrees .typeJsDate type, date),
   (l.agrees .typeSharedFunctionInfo type, sharedInfo),
   (l.agrees .typeScript type, script),
   (l.agrees .typeSymbol type, symbol),
   (l.agrees .typeScopeInfo type, scopeInfo),
   (l.agrees .typeDescriptorArray type, descriptorArray),
   (l.agrees .typeNameDictionary type, nameDictionary)]

/-- The kind of the first test that holds. -/
def first? (tests : List (Bool × Kind)) : Option Kind :=
  (tests.find? (·.1)).map (·.2)

/-- Whether the constructor of an object is named like an error's. -/
def looksLikeError (object : Address) : HeapM Bool := do
  match ← attempt (constructorName? object) with
  | .ok (some name) => pure (name.endsWith "Error")
  | _ => pure false

/-- Whether an object of the given type is an error. -/
def isError (object : Address) (type : Int) : HeapM Bool := do
  let l ← layout
  if l.has .typeJsError then pure (l.agrees .typeJsError type)
  else if l.agrees .typeJsObject type then looksLikeError object
  else pure false

/-- The kind of an object. -/
def of (object : Address) : HeapM Kind := do
  let type ← typeId object
  let l ← layout
  match first? (beforeErrors l type) with
  | some kind => pure kind
  | none =>
    if ← isError object type then pure error
    else pure ((first? (afterErrors l type)).getD (unknown type))

end Kind

end Postmortem
