/-
Postmortem/Proofs/TypeNames.lean

The name of a value's type, and its node.

A value's type can be asked for by itself (`typeName`), and it can be told from the
node that an inspection gives (`Shape.kindText`).  The two are found on different
ways.  Naming the type takes the kind of an object, and the constructor's name where
the kind is not the name; inspecting goes on into the object, and its node no longer
holds the kind.  They meet because both begin with the same kind, whatever the build
says or leaves unsaid about it, and because a body has the constructor that it was
read by (`projects_constructorName`).

Naming the type reads less, so it succeeds wherever an inspection does.

Global objects and their proxies are left out: they are named by their constructor,
which their nodes do not hold.

Main result: `typeName_eq_kindText`.
-/
import Postmortem.Node.Document
import Postmortem.Proofs.FailClosed
import Postmortem.Proofs.Paging
import Postmortem.Proofs.Projection

namespace Postmortem

open HeapM

/-- The name of a value's type as its node tells it: in parentheses what kind of value it is, or
without them the constructor of an object. -/
def Shape.kindText {ν : Type} : Shape ν → String
  | smallInt _ => "(Smi)"
  | number .. => "(HeapNumber)"
  | object body | error body _ => body.constructor?.getD "(Object)"
  | unknown typeId => s!"unknown: {typeId}"
  | shape => s!"({shape.label})"

namespace Inspection

variable {h : Heap} {o : Options} {object : Address} {kind : Kind} {inner : Inspector}

/-- A body has the name of the constructor that is found by itself. -/
theorem projects_constructorName :
    Projects h ObjectBody.constructor? (objectBody inner object o) (constructorName? object) := by
  refine .read fun map => .skip fun _ => .last fun name => ?_
  -- Whatever else is read, the name stays.
  refine .skip fun _ => .skip fun _ => .skip fun _ => .ite ?_ ?_
  · exact .skip fun _ => .skip fun _ => .skip fun _ => .pure rfl
  · exact .pure rfl

/-- An object's kind and constructor are told by its shape. -/
theorem projects_typeName (hkind : (Kind.of object).Yields h kind) (hglobal : kind ≠ .global)
    (hproxy : kind ≠ .globalProxy) :
    Projects h Shape.kindText (shapeOf inner kind object o) (typeName (.heap object)) := by
  refine .settled hkind ?_
  cases kind with
  | global => exact absurd rfl hglobal
  | globalProxy => exact absurd rfl hproxy
  | code => exact .pure rfl
  | map => exact .skip fun _ => .pure rfl
  | context => exact .skip fun _ => .pure rfl
  | error =>
    refine .bind projects_constructorName fun body => .ite ?_ ?_
    · exact .skip fun _ => .pure rfl
    · exact .skip fun _ => .pure rfl
  | object => exact .bind projects_constructorName fun _ => .pure rfl
  | number => exact .skip fun _ => .pure rfl
  | array => exact .skip fun _ => .skip fun _ => .pure rfl
  | oddball => exact .skip fun _ => .pure rfl
  | function => exact .skip fun _ => .pure rfl
  | regExp => exact .skip fun _ => .skip fun _ => .pure rfl
  | string => exact .skip fun _ => .pure rfl
  | fixedArray => exact .skip fun _ => .skip fun _ => .pure rfl
  | arrayBuffer => exact .skip fun _ => .pure rfl
  | arrayBufferView => exact .skip fun _ => .pure rfl
  | date => exact .skip fun _ => .pure rfl
  | sharedInfo => exact .skip fun _ => .skip fun _ => .pure rfl
  | script =>
    refine .skip fun source => ?_
    cases source with
    | none => exact .skip fun _ => .skip fun _ => .skip fun _ => .pure rfl
    | some => exact .skip fun _ => .skip fun _ => .skip fun _ => .pure rfl
  | symbol => exact .skip fun _ => .pure rfl
  | scopeInfo => exact .skip fun _ => .pure rfl
  | descriptorArray => exact .skip fun _ => .skip fun _ => .pure rfl
  | nameDictionary => exact .skip fun _ => .skip fun _ => .pure rfl
  | unknown => exact .pure rfl

theorem yields_typeName {v : Value} {n : Node} (hn : (inspect v o).Yields h n)
    (hglobal : n.shape ≠ .global) (hproxy : n.shape ≠ .globalProxy) :
    (typeName v).Yields h n.shape.kindText := by
  cases v with
  | smi raw number =>
    obtain rfl := yields_pure.mp hn
    exact yields_pure.mpr rfl
  | heap object =>
    obtain ⟨kind, shape, map, hkind, hshape, -, rfl⟩ := yields_below.mp hn
    refine projects_typeName hkind ?_ ?_ shape hshape
    · rintro rfl
      exact hglobal (yields_pure.mp hshape).symm
    · rintro rfl
      exact hproxy (yields_pure.mp hshape).symm

end Inspection

/-- Where a value can be inspected, its type can be named, and the name is the one that its node
tells, unless it is a global object or the proxy of one. -/
theorem typeName_eq_kindText {c : Capture} {g : ℕ} {word : Address} {o : Options} {n : Node}
    (hn : ((Session.start g).inspect c word o).1.result = .ok n) (hglobal : n.shape ≠ .global)
    (hproxy : n.shape ≠ .globalProxy) (g' : ℕ) :
    ((Session.start g').typeName c word).1.result = .ok n.shape.kindText := by
  rw [Session.inspect_start] at hn
  obtain ⟨l, hl, hn⟩ := yields_bind.mp hn
  obtain rfl := yields_layout.mp hl
  exact Inspection.yields_typeName hn hglobal hproxy

open Synthetic

/-- An object whose constructor is named `RangeError`, on a build that tells no type for errors and
no source of regular expressions. -/
def rangeError : Capture where
  heap := {
    layout := listedLayout (flatConstants ++ [
      (.typeJsObject, 160), (.typeJsFunction, 170), (.objectProperties, 8), (.objectElements, 16),
      (.objectInternalFields, 24), (.mapInstanceSize, 8), (.mapInObjectCount, 9),
      (.mapBitField3, 16), (.mapConstructor, 24), (.mapDictionaryMapShift, 0),
      (.dictionaryPrefixStart, 0), (.dictionaryPrefixSize, 0), (.dictionaryEntrySize, 2),
      (.functionShared, 8), (.sharedName, 8)])
    image := listedImage [
      (⟨0x100c⟩, Word.toBytes 2 134), (⟨0x110c⟩, Word.toBytes 2 8), (⟨0x130c⟩, Word.toBytes 2 170),
      (⟨0x1208⟩, [3, 0, 0, 0] ++ Word.toBytes 4 160 ++ wordsBytes [1, 0x5001]),
      (⟨0x2000⟩, wordsBytes [0x1001, smiWord 0]),
      (⟨0x3000⟩, headerBytes 0x1101 10 ++ [0x52, 0x61, 0x6e, 0x67, 0x65, 0x45, 0x72, 0x72, 0x6f,
        0x72]),
      (⟨0x5000⟩, wordsBytes [0x1301, 0x6001]),
      (⟨0x6008⟩, wordsBytes [0x3001]),
      (⟨0x7000⟩, wordsBytes [0x1201, 0x2001, 0x2001])] }
  threads := .ofList []

/-- It is an error by its name alone, and is named as its node tells. -/
theorem typeName_eq_kindText_rangeError :
    rangeError.heap.layout.has .typeJsError = false ∧
      ∃ n, ((Session.start 0).inspect rangeError ⟨0x7001⟩ .default).1.result = .ok n ∧
        n.shape.isError = true ∧ n.shape ≠ .global ∧ n.shape ≠ .globalProxy ∧
        ((Session.start 0).typeName rangeError ⟨0x7001⟩).1.result = .ok n.shape.kindText ∧
        n.shape.kindText = "RangeError" := by
  have hfound : (do
      let n ← inspectWord ⟨0x7001⟩ .default
      pure (n.shape.isError, n.shape.kindText)).Yields rangeError.heap (true, "RangeError") := by
    decide +kernel
  obtain ⟨n, hn, hfound⟩ := yields_bind.mp hfound
  obtain ⟨herror, htext⟩ := Prod.mk.inj (yields_pure.mp hfound)
  have hn : ((Session.start 0).inspect rangeError ⟨0x7001⟩ .default).1.result = .ok n :=
    (congrArg Outcome.result (Session.inspect_start ..)).trans hn
  have hglobal : n.shape ≠ .global := by
    intro hshape
    rw [hshape] at herror
    cases herror
  have hproxy : n.shape ≠ .globalProxy := by
    intro hshape
    rw [hshape] at herror
    cases herror
  exact ⟨by decide +kernel, n, hn, herror, hglobal, hproxy,
    typeName_eq_kindText hn hglobal hproxy 0, htext⟩

end Postmortem
