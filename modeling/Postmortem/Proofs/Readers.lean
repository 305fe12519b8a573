/-
Postmortem/Proofs/Readers.lean

The readers of each kind of object are strict.

They resolve two sorts of strings: what has the type of a string, and the source
of a regular expression (`ReadAsString`).  Every reader asks for the type before
it takes a value for a string, which is why the lemmas here follow what a step
yields (`Strict.andThen`) where texts are concerned.

Two computations are not strict, since they go on after a failed read: the look
for the name of an error and that for a captured stack.  What they attempt is
strict.
-/
import Postmortem.Heap.Buffer
import Postmortem.Heap.CapturedStack
import Postmortem.Heap.Kind
import Postmortem.Heap.Primitive
import Postmortem.Proofs.Resolution

namespace Postmortem

open HeapM

variable {h h' : Heap}

/-- The strings of a heap that a reader may resolve: those with the type of one, and the sources of
regular expressions. -/
inductive ReadAsString (h : Heap) (string : Address) : Prop
  | typed : (isString (.heap string)).Yields h true → ReadAsString h string
  | source {regExp : Address} : (Kind.of regExp).Yields h .regExp →
      (pointer regExp .regExpSource).Yields h string → ReadAsString h string

/-- A computation that is strict on a heap, whatever strings of it it resolves. -/
abbrev HeapM.Reads {α : Type} (h : Heap) (x : HeapM α) : Prop := Strict h (ReadAsString h) x

/-- No string that a reader may resolve is made of itself, nor of one that is. -/
def StringsAcyclic (h : Heap) : Prop := ∀ string, ReadAsString h string → JsString.Acyclic h string

namespace HeapM

variable {α : Type} {x : HeapM α}

theorem Reads.persists (hx : Reads h x) (hle : Extends h h') : Persists h h' x :=
  Strict.persists hx hle fun string _ => JsString.persists_codeUnits hle string

theorem Reads.quiet (hx : Reads h x) (hstrings : StringsAcyclic h) : (x h).gaveUp = false :=
  Strict.quiet hx fun string hstring => JsString.quiet_codeUnits (hstrings string hstring)

/-- Whatever becomes of `x`, it is found if it is found at all. -/
theorem yields_attempt {r : Except Failure α} :
    (attempt x).Yields h r ↔ (x h).gaveUp = false ∧ (x h).result = r := by
  constructor
  · intro hr
    have hreturns : (x h).gaveUp = false := hr.returns
    rw [Yields, attempt, Outcome.caught_of_returned hreturns] at hr
    exact ⟨hreturns, Except.ok.inj hr⟩
  · rintro ⟨hreturns, rfl⟩
    rw [Yields, attempt, Outcome.caught_of_returned hreturns]
    rfl

theorem gaveUp_attempt : (attempt x h).gaveUp = (x h).gaveUp := rfl

end HeapM

/-! ### Builds with flat strings only -/

theorem JsString.has_tag {string : Address} {r : Representation}
    (hr : (representation string).Yields h r) : h.layout.value? r.tag ≠ none := by
  obtain ⟨type, -, hr⟩ := yields_bind.mp hr
  obtain ⟨mask, -, hr⟩ := yields_bind.mp hr
  rw [Yields.bind_iff (yields_layout.mpr rfl)] at hr
  split at hr
  case h_1 found hfound =>
    cases yields_pure.mp hr
    have hagrees := List.find?_some hfound
    rw [Layout.agrees, beq_iff_eq] at hagrees
    rw [hagrees]
    exact Option.some_ne_none _
  case h_2 => exact absurd hr yields_fail

/-- Where a build has flat strings only, none is made of another. -/
theorem stringsAcyclic_of_flat (hcons : h.layout.value? .stringConsTag = none)
    (hsliced : h.layout.value? .stringSlicedTag = none)
    (hthin : h.layout.value? .stringThinTag = none) : StringsAcyclic h := by
  intro string _ part _ hcycle
  obtain ⟨next, hnext, -⟩ := Relation.TransGen.head'_iff.mp hcycle
  cases hnext with
  | first hr => exact JsString.has_tag hr hcons
  | second hr => exact JsString.has_tag hr hcons
  | parent hr => exact JsString.has_tag hr hsliced
  | actual hr => exact JsString.has_tag hr hthin

/-! ### Texts -/

theorem JsString.reads_text {string : Address} (hstring : ReadAsString h string) :
    Reads h (text string) :=
  .bind (.codeUnits hstring) fun _ => .pure

theorem JsString.reads_narrowText {string : Address} (hstring : ReadAsString h string) :
    Reads h (narrowText string) :=
  .bind (.codeUnits hstring) fun _ => .pure

theorem JsString.reads_textOf? {v : Value} : Reads h (textOf? v) := by
  refine .andThen strict_isString fun isText htext => ?_
  cases isText with
  | false => exact .pure
  | true =>
    cases v with
    | smi => exact .pure
    | heap string => exact .bind (reads_text (.typed htext)) fun _ => .pure

theorem reads_keyText {key : Value} : Reads h (keyText key) := by
  cases key with
  | smi => exact .pure
  | heap object =>
    refine .andThen strict_isString fun isText htext => ?_
    cases isText with
    | false => exact .pure
    | true => exact JsString.reads_text (.typed htext)

/-! ### Descriptors and dictionaries -/

theorem reads_detailBits {details : Int} {mask shift : Constant} :
    Reads h (detailBits details mask shift) :=
  .bind strict_constant fun _ => .bind strict_constant fun _ => .pure

namespace PropertyStorage

theorem reads_kinds {details : Int} : Reads h (kinds details) :=
  .bind .layout fun _ =>
    .ite (.bind reads_detailBits fun _ => .pure) (.bind strict_constant fun _ => .pure)

theorem reads_ofDetails {details inObject : Int} : Reads h (ofDetails details inObject) :=
  .bind reads_kinds fun _ =>
    .ite .pure
      (.ite
        (.bind reads_detailBits fun _ => .bind reads_detailBits fun _ =>
          .bind .layout fun _ => .pure)
        .pure)

end PropertyStorage

namespace DescriptorArray

variable {array : Address} {index : Nat}

theorem reads_part {c : Constant} : Reads h (part array index c) :=
  .bind strict_constant fun _ => .bind strict_constant fun _ => .bind strict_constant fun _ =>
    FixedArray.strict_getInt

theorem reads_length : Reads h (length array) :=
  .bind FixedArray.strict_length fun _ => .bind strict_constant fun _ =>
    .bind strict_constant fun _ => .pure

theorem reads_details : Reads h (details array index) :=
  .bind reads_part fun
    | .smi .. => .pure
    | .heap _ => .fail

theorem reads_entry {inObject : Int} : Reads h (entry array index inObject) :=
  .bind reads_details fun _ => .bind reads_part fun _ =>
    .bind PropertyStorage.reads_ofDetails fun _ => .pure

end DescriptorArray

namespace NameDictionary

variable {dictionary : Address} {window : Option Window}

theorem reads_firstEntry : Reads h firstEntry :=
  .bind .layout fun _ => by
    split
    · exact .pure
    · exact .fail

theorem reads_capacity : Reads h (capacity dictionary) :=
  .bind FixedArray.strict_length fun _ => .bind strict_constant fun _ =>
    .bind reads_firstEntry fun _ => .pure

theorem reads_part {entry index : Nat} : Reads h (part dictionary entry index) :=
  .bind strict_constant fun _ => .bind reads_firstEntry fun _ => FixedArray.strict_getInt

theorem reads_liveKey? {entry : Nat} : Reads h (liveKey? dictionary entry) :=
  .bind reads_part fun _ => .bind strict_isHoleOrUndefined fun _ => .pure

theorem reads_liveCount : Reads h (liveCount dictionary) :=
  .bind reads_capacity fun _ => .bind (.forRange fun _ => reads_liveKey?) fun _ => .pure

theorem reads_entriesFrom {left entry live : Nat} :
    Reads h (entriesFrom dictionary window left entry live) := by
  induction left generalizing entry live with
  | zero => exact .pure
  | succ left ih =>
    refine .bind reads_liveKey? fun key => ?_
    cases key with
    | none => exact ih
    | some key =>
      have hrest (found : List (Value × Value)) : Reads h (do
          let rest ←
            if isLast window live then pure []
            else entriesFrom dictionary window left (entry + 1) (live + 1)
          pure (found ++ rest)) :=
        .ite (.bind .pure fun _ => .pure) (.bind ih fun _ => .pure)
      exact .ite (.bind reads_part fun _ => .bind .pure fun _ => hrest _)
        (.bind .pure fun _ => hrest _)

theorem reads_entries : Reads h (entries dictionary window) :=
  .bind reads_capacity fun _ => reads_entriesFrom

end NameDictionary

/-! ### Contexts -/

namespace ScopeInfo

variable {scope : Address}

theorem reads_number {index : Constant} : Reads h (number scope index) :=
  .bind .layout fun _ =>
    .ite
      (.bind strict_constant fun _ => .bind FixedArray.strict_getInt fun
        | .smi .. => .pure
        | .heap _ => .fail)
      .pure

theorem reads_namesStart : Reads h (namesStart scope) :=
  .bind strict_constant fun _ => .bind .layout fun _ =>
    .ite (.bind reads_number fun _ => .bind reads_number fun _ => .pure) .pure

theorem reads_textAt? {index : Int} : Reads h (textAt? scope index) :=
  .bind FixedArray.strict_getInt fun _ => JsString.reads_textOf?

theorem reads_contextLocalName {index : Nat} : Reads h (contextLocalName scope index) :=
  .bind reads_namesStart fun _ => .bind reads_textAt? fun
    | some _ => .pure
    | none => .fail

theorem reads_contextLocalNames : Reads h (contextLocalNames scope) :=
  .bind reads_number fun _ => .forRange fun _ => reads_contextLocalName

theorem reads_functionName? : Reads h (functionName? scope) :=
  .bind reads_namesStart fun _ => .bind reads_number fun _ =>
    .bind FixedArray.strict_length fun _ => .ite (.bind reads_textAt? fun _ => .pure) .pure

end ScopeInfo

namespace Context

variable {context : Address}

theorem reads_get {index : Constant} : Reads h (get context index) :=
  .bind strict_constant fun _ => FixedArray.strict_getInt

theorem reads_closure? : Reads h (closure? context) :=
  .bind .layout fun _ =>
    .ite (.bind reads_get fun _ => .bind strict_isType fun _ => .pure) .pure

theorem reads_scopeInfo : Reads h (scopeInfo context) :=
  .bind reads_get fun
    | .heap _ => .pure
    | .smi .. => .fail

theorem reads_localAt {index : Nat} : Reads h (localAt context index) :=
  .bind strict_constant fun _ => FixedArray.strict_get

theorem reads_locals : Reads h (locals context) :=
  .bind reads_scopeInfo fun _ => .bind ScopeInfo.reads_number fun _ =>
    .forRange fun _ => .bind ScopeInfo.reads_contextLocalName fun _ =>
      .bind reads_localAt fun _ => .pure

end Context

/-! ### Functions and scripts -/

namespace Script

variable {script : Address}

theorem reads_name : Reads h (name script) :=
  .bind strict_value fun _ => .bind JsString.reads_textOf? fun _ => .pure

theorem reads_source? : Reads h (source? script) :=
  .bind strict_value fun _ => .bind strict_isString fun _ => .pure

/-- What is found for the source of a script has the type of a string. -/
theorem readAsString_of_source? {source : Address}
    (hsource : (source? script).Yields h (some source)) : ReadAsString h source := by
  obtain ⟨v, -, hsource⟩ := yields_bind.mp hsource
  obtain ⟨isText, htext, hsource⟩ := yields_bind.mp hsource
  have heq := yields_pure.mp hsource
  cases isText with
  | false => cases heq
  | true =>
    cases v with
    | smi => cases heq
    | heap object =>
      cases heq
      exact .typed htext

theorem reads_narrowSource? : Reads h (narrowSource? script) := by
  refine .andThen reads_source? fun source hsource => ?_
  cases source with
  | none => exact .pure
  | some source =>
    exact .bind (JsString.reads_narrowText (readAsString_of_source? hsource)) fun _ => .pure

theorem reads_lineColumn? {position : Int} : Reads h (lineColumn? script position) :=
  .bind reads_narrowSource? fun _ => .pure

end Script

namespace SharedInfo

variable {shared : Address}

theorem reads_declaredName : Reads h (declaredName shared) := by
  refine .bind .layout fun _ => .ite ?_ ?_
  · exact .bind strict_value fun _ => .bind JsString.reads_textOf? fun _ => .pure
  · refine .bind strict_value fun _ => .bind strict_isType fun _ => ?_
    split
    · exact .bind ScopeInfo.reads_functionName? fun _ => .pure
    · exact .bind JsString.reads_textOf? fun _ => .pure

theorem reads_inferredName : Reads h (inferredName shared) :=
  .bind .layout fun _ =>
    .ite
      (.bind strict_value fun _ => .bind strict_isHoleOrUndefined fun _ =>
        .ite .pure (.bind JsString.reads_textOf? fun _ => .pure))
      .pure

theorem reads_properName : Reads h (properName shared) :=
  .bind reads_declaredName fun _ => .ite (.bind reads_inferredName fun _ => .pure) .pure

theorem reads_script? : Reads h (script? shared) :=
  .bind strict_value fun _ => .bind strict_isType fun _ => .pure

theorem reads_startPosition : Reads h (startPosition shared) :=
  .bind strict_int fun _ => .bind strict_constant fun _ => .pure

theorem reads_location : Reads h (location shared) := by
  refine .bind reads_script? fun script => ?_
  cases script with
  | none => exact .pure
  | some script =>
    refine .bind Script.reads_name fun _ => .bind reads_startPosition fun _ =>
      .bind Script.reads_lineColumn? fun place => ?_
    cases place <;> exact .pure

end SharedInfo

namespace JsFunction

variable {function : Address}

theorem reads_name : Reads h (name function) :=
  .bind strict_pointer fun _ => SharedInfo.reads_properName

theorem reads_location : Reads h (location function) :=
  .bind strict_pointer fun _ => SharedInfo.reads_location

theorem reads_source? : Reads h (source? function) := by
  refine .bind strict_pointer fun shared => .bind SharedInfo.reads_script? fun script => ?_
  cases script with
  | none => exact .pure
  | some script =>
    refine .andThen Script.reads_source? fun source hsource => ?_
    cases source with
    | none => exact .pure
    | some source =>
      exact .bind (.codeUnits (Script.readAsString_of_source? hsource)) fun _ =>
        .bind strict_int fun _ => .bind SharedInfo.reads_startPosition fun _ => .pure

end JsFunction

/-! ### Constructors -/

namespace Map

variable {map : Address}

theorem reads_constructorFrom {steps : Nat} {found : Value} :
    Reads h (constructorFrom steps found) := by
  induction steps generalizing found with
  | zero => exact .pure
  | succ steps ih =>
    refine .bind strict_isType fun _ => ?_
    split
    · exact .bind strict_value fun _ => ih
    · exact .pure

theorem reads_constructorName? : Reads h (constructorName? map) := by
  refine .bind (.bind strict_value fun _ => reads_constructorFrom) fun _ =>
    .bind strict_isType fun _ => ?_
  split
  · exact .bind JsFunction.reads_name fun _ => .pure
  · exact .pure

end Map

theorem reads_constructorName? {object : Address} : Reads h (constructorName? object) :=
  .bind Map.strict_of fun _ => Map.reads_constructorName?

/-! ### Objects -/

namespace JsObject

variable {object : Address} {window : Option Window}

theorem reads_properties? : Reads h (properties? object) :=
  .bind strict_value fun _ => .pure

theorem reads_dictionary : Reads h (dictionary object) :=
  .bind reads_properties? fun
    | some _ => .pure
    | none => .fail

theorem reads_elementsLength : Reads h (elementsLength object) :=
  .bind strict_pointer fun _ => FixedArray.strict_length

theorem reads_propertiesLength : Reads h (propertiesLength object) :=
  .bind Map.strict_of fun _ => .bind Map.strict_isDictionary fun _ =>
    .ite (.bind reads_dictionary fun _ => NameDictionary.reads_liveCount) Map.strict_ownDescriptors

theorem reads_internalFieldsLength : Reads h (internalFieldsLength object) :=
  .bind Map.strict_of fun _ => .bind Map.strict_instanceType fun _ => .bind .layout fun _ =>
    .ite
      (.bind Map.strict_instanceSize fun _ =>
        .ite .pure
          (.bind strict_pointerSize fun _ => .bind Map.strict_inObjectProperties fun _ =>
            .bind strict_constant fun _ => .pure))
      .pure

theorem reads_internalFields {w : Window} : Reads h (internalFields object w) :=
  .forRange fun _ => .bind strict_constant fun _ => .bind strict_pointerSize fun _ =>
    .bind strict_fieldAddress fun _ => .bind strict_word fun _ => .pure

theorem reads_fieldPlace {index size : Int} {properties : Option Address} :
    Reads h (fieldPlace object index size properties) := by
  refine .bind strict_pointerSize fun _ => .ite ?_ ?_
  · exact .bind strict_constant fun _ => .ite .fail strict_fieldAddress
  · cases properties with
    | none => exact .fail
    | some properties =>
      exact .bind FixedArray.strict_length fun _ =>
        .ite (.bind strict_constant fun _ => strict_fieldAddress) .fail

theorem reads_describedProperty {descriptors : Address} {inObject size : Int}
    {properties : Option Address} {index : Nat} :
    Reads h (describedProperty object descriptors inObject size properties index) := by
  refine .bind DescriptorArray.reads_entry fun entry => ?_
  cases entry.storage with
  | field =>
    exact .bind reads_fieldPlace fun _ =>
      .ite (.bind strict_doubleAt fun _ => .pure) (.bind strict_valueAt fun _ => .pure)
  | descriptor => exact .bind DescriptorArray.reads_part fun _ => .pure
  | unsupported => exact .pure

theorem reads_properties : Reads h (properties object window) := by
  refine .bind Map.strict_of fun _ => .bind Map.strict_checkInObjectRegion fun _ =>
    .bind Map.strict_isDictionary fun _ => .ite ?_ ?_
  · exact .bind reads_dictionary fun _ => .bind NameDictionary.reads_entries fun _ => .pure
  · refine .bind Map.strict_descriptors fun descriptors => ?_
    cases descriptors with
    | none => exact .pure
    | some descriptors =>
      refine .bind Map.strict_ownDescriptors fun _ => .bind Map.strict_inObjectProperties fun _ =>
        .bind Map.strict_instanceSize fun _ => .bind reads_properties? fun _ => ?_
      cases window <;> exact .forRange fun _ => reads_describedProperty

theorem reads_firstNamed {name : String} {properties : List (Value × PropertySlot)} :
    Reads h (firstNamed name properties) := by
  induction properties with
  | nil => exact .pure
  | cons property rest ih => exact .bind reads_keyText fun _ => .ite .pure ih

theorem reads_property? {name : String} : Reads h (property? object name) :=
  .bind reads_properties fun _ => reads_firstNamed

end JsObject

/-! ### Primitives and buffers -/

theorem HeapNumber.reads_value {number : Address} : Reads h (HeapNumber.value number) :=
  .bind strict_fieldAt fun _ => strict_doubleAt

theorem JsDate.reads_text {date : Address} : Reads h (JsDate.text date) := by
  refine .bind strict_value fun found => ?_
  cases found with
  | smi => exact .pure
  | heap object =>
    exact .bind strict_isType fun _ => .ite (.bind HeapNumber.reads_value fun _ => .pure) .pure

theorem Symbol.reads_description? {symbol : Address} : Reads h (Symbol.description? symbol) :=
  .bind strict_value fun _ => JsString.reads_textOf?

theorem JsRegExp.reads_source {regExp : Address} (hkind : (Kind.of regExp).Yields h .regExp) :
    Reads h (JsRegExp.source regExp) :=
  .andThen strict_pointer fun _ hsource => JsString.reads_text (.source hkind hsource)

namespace ArrayBuffer

variable {buffer : Address}

theorem reads_isNeutered : Reads h (isNeutered buffer) :=
  .bind .layout fun _ =>
    .ite (.bind strict_int fun _ => .bind strict_constant fun _ => .pure) .pure

theorem reads_backingStore : Reads h (backingStore buffer) :=
  .bind strict_fieldWord fun _ => .pure

end ArrayBuffer

theorem ArrayBufferView.reads_store {view buffer : Address} :
    Reads h (ArrayBufferView.store view buffer) :=
  .bind ArrayBuffer.reads_backingStore fun _ =>
    .ite
      (.bind strict_pointer fun _ => .bind strict_fieldWord fun _ =>
        .bind strict_fieldWord fun _ => .pure)
      .pure

/-! ### Captured stacks -/

namespace CapturedStack

theorem reads_ofArray {array : Address} : Reads h (ofArray array) := by
  refine .bind strict_count fun _ => .bind JsArray.strict_get fun first => ?_
  cases first with
  | heap => exact .fail
  | smi =>
    dsimp only
    split
    · exact .pure
    · exact .fail

theorem reads_ofObject {object : Address} : Reads h (ofObject object) := by
  refine .bind JsObject.reads_property? fun found => ?_
  split
  · refine .bind strict_isType fun _ => ?_
    split
    · exact .bind reads_ofArray fun _ => .pure
    · exact .fail
  · exact .pure

theorem quiet_locate (hstrings : StringsAcyclic h) {object : Address} :
    (locate object h).gaveUp = false := by
  refine gaveUp_bind (gaveUp_attempt.trans (reads_ofObject.quiet hstrings)) fun r _ => ?_
  cases r <;> rfl

end CapturedStack

/-! ### Kinds -/

namespace Kind

variable {object : Address} {kind : Kind} {type : Int}

/-- An object whose kind is known has a map. -/
theorem exists_map_of_yields (hkind : (Kind.of object).Yields h kind) :
    ∃ map, (Map.of object).Yields h map := by
  obtain ⟨type, htype, -⟩ := yields_bind.mp hkind
  obtain ⟨map, hmap, -⟩ := yields_bind.mp htype
  exact ⟨map, hmap⟩

/-- An object's kind comes from its type, but errors are looked for between the tests. -/
theorem yields_of_iff :
    (Kind.of object).Yields h kind ↔ ∃ type, (typeId object).Yields h type ∧
      (first? (beforeErrors h.layout type) = some kind ∨
        first? (beforeErrors h.layout type) = none ∧ ∃ b, (isError object type).Yields h b ∧
          kind =
            if b then .error else (first? (afterErrors h.layout type)).getD (.unknown type)) := by
  unfold Kind.of
  rw [yields_bind]
  refine exists_congr fun type => and_congr_right fun _ => ?_
  rw [Yields.bind_iff (yields_layout.mpr rfl)]
  cases first? (beforeErrors h.layout type) with
  | some found => simp
  | none =>
    simp only [yields_bind, reduceCtorEq, true_and, false_or]
    refine exists_congr fun b => and_congr_right fun _ => ?_
    cases b <;> exact yields_pure.trans eq_comm

theorem mem_of_first? {tests : List (Bool × Kind)} (hfirst : first? tests = some kind) :
    (true, kind) ∈ tests := by
  obtain ⟨⟨holds, found⟩, hfind, rfl⟩ := Option.map_eq_some_iff.mp hfirst
  obtain rfl : holds = true := List.find?_some hfind
  exact List.mem_of_find?_eq_some hfind

/-- What is of the kind of strings has the type of one. -/
theorem readAsString_of_kind (hkind : (Kind.of object).Yields h .string) :
    ReadAsString h object := by
  obtain ⟨type, htype, hfirst | ⟨-, isError, -, hfirst⟩⟩ := yields_of_iff.mp hkind
  · have hmem := mem_of_first? hfirst
    simp [beforeErrors] at hmem
  · cases isError with
    | true => cases hfirst
    | false =>
      rcases hafter : first? (afterErrors h.layout type) with _ | found
      · rw [hafter] at hfirst
        cases hfirst
      · rw [hafter] at hfirst
        obtain rfl : Kind.string = found := hfirst
        have hstring : h.layout.isString type = true := by
          have hmem := mem_of_first? hafter
          simp only [afterErrors, List.mem_cons, Prod.mk.injEq, reduceCtorEq, and_false, or_false,
            false_or, and_true, List.not_mem_nil] at hmem
          -- Regular expressions are told by a condition, which has to be looked into.
          rcases hmem with ⟨-, hregExp⟩ | hstring
          · split at hregExp <;> cases hregExp
          · exact hstring.symm
        exact .typed (htype.bind ((yields_layout.mpr rfl).bind (yields_pure.mpr hstring)))

theorem quiet_isError (hstrings : StringsAcyclic h) : (isError object type h).gaveUp = false := by
  have hlook : (looksLikeError object h).gaveUp = false := by
    refine gaveUp_bind (gaveUp_attempt.trans (reads_constructorName?.quiet hstrings)) fun r _ => ?_
    split <;> rfl
  refine gaveUp_bind rfl fun l _ => ?_
  split
  · rfl
  · split
    · exact hlook
    · rfl

theorem quiet_of (hstrings : StringsAcyclic h) : (Kind.of object h).gaveUp = false := by
  refine gaveUp_bind (strict_typeId.quiet fun _ => False.elim) fun type _ =>
    gaveUp_bind rfl fun l _ => ?_
  cases first? (beforeErrors l type) with
  | some => rfl
  | none =>
    refine gaveUp_bind (quiet_isError hstrings) fun isError _ => ?_
    split <;> rfl

end Kind

end Postmortem
