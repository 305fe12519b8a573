/-
Postmortem/Proofs/Summaries.lean

Summaries of what is found in detail.

Details are added to a summary.  Asked for them, an object of any kind is read just
as it is without them, and then on: what is found inside goes into fields that a
summary leaves empty.  `Shape.withoutDetails` empties these fields, at the root of a
node alone.  A summary has nothing below its root.

Each kind reads its details at another place of its own.  So one level is gone
through kind by kind: the detailed reading projects onto the short one
(`projects_shapeOf`), and a level as a whole is taken apart and put together again
by `yields_below`.  The two sides need not inspect the values inside in the same
way, because the short one never gets to any.

Main result: `inspect_summary`.
-/
import Postmortem.Node.Document
import Postmortem.Proofs.FailClosed
import Postmortem.Proofs.Paging
import Postmortem.Proofs.Projection

namespace Postmortem

open HeapM

variable {ν : Type}

/-! ### Leaving out details -/

/-- The body without its pages, and without a cursor behind them. -/
def ObjectBody.withoutDetails (b : ObjectBody ν) : ObjectBody ν :=
  { b with elements := none, properties := none, internalFields := none, next := 0,
           hasMore := false }

def FunctionBody.withoutDetails (b : FunctionBody ν) : FunctionBody ν :=
  { b with context := none, source := none }

/-- The buffer without its bytes. -/
def BufferBody.withoutDetails : BufferBody → BufferBody
  | neutered => neutered
  | attached store offset length _ => attached store offset length none

/-- Nothing is left of a context. -/
def ContextBody.withoutDetails (_ : ContextBody ν) : ContextBody ν := ⟨none, none, none, []⟩

def MapBody.withoutDetails (b : MapBody ν) : MapBody ν := { b with descriptors := none }

def ScopeBody.withoutDetails (b : ScopeBody) : ScopeBody := { b with localNames := [] }

namespace Shape

/-- The shape without what only a detailed inspection finds. -/
def withoutDetails : Shape ν → Shape ν
  | object body => object body.withoutDetails
  | error body _ => error body.withoutDetails none
  | array length _ => array length none
  | fixedArray length _ => fixedArray length none
  | function body => function body.withoutDetails
  | regExp source _ => regExp source none
  | arrayBuffer body => arrayBuffer body.withoutDetails
  | arrayBufferView body => arrayBufferView body.withoutDetails
  | context body => context body.withoutDetails
  | hiddenClass body => hiddenClass body.withoutDetails
  | descriptorArray length _ => descriptorArray length none
  | nameDictionary capacity _ => nameDictionary capacity none
  | scopeInfo body => scopeInfo body.withoutDetails
  | shape => shape

/-! ### What is kept -/

/-- The name of the constructor, where a value is shown by it. -/
def constructor? : Shape ν → Option String
  | object body | error body _ => body.constructor?
  | _ => none

/-- The lengths and counts of a value. -/
def counts : Shape ν → List Int
  | string excerpt => [excerpt.length]
  | object body | error body _ =>
    [body.elementsLength, body.propertiesLength, body.fieldsLength]
  | array length _ | fixedArray length _ | descriptorArray length _ => [length]
  | script _ lineOffset sourceLength => [lineOffset, sourceLength]
  | arrayBuffer (.attached _ offset length _) | arrayBufferView (.attached _ offset length _) =>
    length :: (offset.map Int.ofNat).toList
  | hiddenClass body => body.ownDescriptors :: body.instanceSize :: body.inObjectProperties.toList
  | nameDictionary capacity _ => [capacity]
  | scopeInfo body => [body.parameterCount, body.stackLocalCount, body.contextLocalCount]
  | _ => []

/-- The text of a string or a number. -/
def shownText? : Shape ν → Option String
  | string excerpt => some excerpt.shown
  | number _ text => some text
  | _ => none

theorem typeName_withoutDetails (s : Shape ν) : s.withoutDetails.typeName = s.typeName := by
  cases s <;> rfl

theorem label_withoutDetails (s : Shape ν) : s.withoutDetails.label = s.label := by
  cases s <;> rfl

theorem constructor?_withoutDetails (s : Shape ν) :
    s.withoutDetails.constructor? = s.constructor? := by
  cases s <;> rfl

theorem counts_withoutDetails (s : Shape ν) : s.withoutDetails.counts = s.counts := by
  cases s with
  | arrayBuffer body => cases body <;> rfl
  | arrayBufferView body => cases body <;> rfl
  | _ => rfl

theorem shownText?_withoutDetails (s : Shape ν) : s.withoutDetails.shownText? = s.shownText? := by
  cases s <;> rfl

end Shape

/-- The node without what only a detailed inspection of it finds. -/
def Node.withoutDetails (n : Node) : Node := .mk n.address n.mapAddress n.shape.withoutDetails

/-- The same inspection as a summary. -/
def Options.brief (o : Options) : Options := { o with detailed := false }

namespace Inspection

variable {h : Heap} {o : Options} {object : Address} {inner inner' : Inspector}

/-! ### Bodies -/

theorem projects_objectBody :
    Projects h ObjectBody.withoutDetails (objectBody inner object o)
      (objectBody inner' object o.brief) := by
  refine .read fun map => .read fun _ => .read fun name => .read fun elements =>
    .read fun properties => .read fun fields => .ite ?_ ?_
  · -- The pages come last, and nothing is kept of them.
    exact .skip fun _ => .skip fun _ => .skip fun _ => .pure rfl
  · exact .pure rfl

theorem projects_functionBody :
    Projects h FunctionBody.withoutDetails (functionBody inner object o)
      (functionBody inner' object o.brief) := by
  refine .read fun name => .read fun location => .ite (.skip fun found => ?_) (.pure rfl)
  cases found with
  | smi =>
    refine .skip fun _ => .ite ?_ ?_
    · exact .skip fun _ => .pure rfl
    · exact .skip fun _ => .pure rfl
  | heap child =>
    refine .skip fun _ => .skip fun _ => .ite ?_ ?_
    · exact .skip fun _ => .pure rfl
    · exact .skip fun _ => .pure rfl

/-- A context in short is not read at all. -/
theorem projects_contextBody :
    Projects h ContextBody.withoutDetails (contextBody inner object o)
      (contextBody inner' object o.brief) :=
  fun _ _ => yields_pure.mpr rfl

theorem projects_mapBody :
    Projects h MapBody.withoutDetails (mapBody inner object o)
      (mapBody inner' object o.brief) := by
  have hrest (isDictionary : Bool) (inObject : Option Int) :
      Projects h MapBody.withoutDetails
        (do
          let descriptors ← Map.descriptors object
          let expanded ←
            if o.detailed && !isDictionary then
              descriptors.mapM fun array => inner (.heap array) o.child
            else pure none
          let own ← Map.ownDescriptors object
          pure ⟨own, isDictionary, inObject, ← Map.instanceSize object, descriptors, expanded⟩)
        (do
          let descriptors ← Map.descriptors object
          let expanded ← pure none
          let own ← Map.ownDescriptors object
          let size ← Map.instanceSize object
          pure ⟨own, isDictionary, inObject, size, descriptors, expanded⟩) := by
    refine .read fun descriptors => .ite ?_ ?_
    · exact .skip fun _ => .given (.read fun own => .read fun size => .pure rfl)
    · exact .skip fun _ => .given (.read fun own => .read fun size => .pure rfl)
  refine .read fun isDictionary => .read fun l => .branch ?_ ?_
  · exact .read fun count => .read fun inObject => hrest isDictionary inObject
  · exact .read fun inObject => hrest isDictionary inObject

theorem projects_scopeBody :
    Projects h ScopeBody.withoutDetails (scopeBody object o) (scopeBody object o.brief) := by
  refine .read fun locals => .ite ?_ ?_
  · exact .skip fun _ => .given
      (.read fun parameters => .read fun stackLocals => .read fun name => .pure rfl)
  · exact .skip fun _ => .given
      (.read fun parameters => .read fun stackLocals => .read fun name => .pure rfl)

theorem projects_whenDetailed {α : Type} {x y : HeapM α} :
    Projects h (fun _ => none) (whenDetailed o x) (whenDetailed o.brief y) :=
  .ite (.skip fun _ => .pure rfl) (.pure rfl)

theorem projects_bufferBody :
    Projects h BufferBody.withoutDetails (bufferBody object o) (bufferBody object o.brief) :=
  .read fun _ => .branch (.pure rfl)
    (.read fun _ => .read fun _ => .bind projects_whenDetailed fun _ => .pure rfl)

theorem projects_viewBody :
    Projects h BufferBody.withoutDetails (viewBody object o) (viewBody object o.brief) :=
  .read fun _ => .read fun _ => .branch (.pure rfl)
    (.read fun _ => .read fun _ => .read fun _ =>
      .bind projects_whenDetailed fun _ => .pure rfl)

/-! ### Shapes -/

/-- In an object of any kind a detailed inspection finds what a summary finds, and more. -/
theorem projects_shapeOf (kind : Kind) :
    Projects h Shape.withoutDetails (shapeOf inner kind object o)
      (shapeOf inner' kind object o.brief) := by
  cases kind with
  | global => exact .pure rfl
  | globalProxy => exact .pure rfl
  | code => exact .pure rfl
  | map => exact .bind projects_mapBody fun _ => .pure rfl
  | context => exact .bind projects_contextBody fun _ => .pure rfl
  | error =>
    refine .bind projects_objectBody fun body => .ite ?_ ?_
    · exact .skip fun _ => .given (.pure rfl)
    · exact .skip fun _ => .given (.pure rfl)
  | object => exact .bind projects_objectBody fun _ => .pure rfl
  | number => exact .read fun _ => .pure rfl
  | array => exact .read fun _ => .bind projects_whenDetailed fun _ => .pure rfl
  | oddball => exact .read fun _ => .pure rfl
  | function => exact .bind projects_functionBody fun _ => .pure rfl
  | regExp => exact .read fun _ => .bind projects_whenDetailed fun _ => .pure rfl
  | string => exact .read fun _ => .pure rfl
  | fixedArray => exact .read fun _ => .bind projects_whenDetailed fun _ => .pure rfl
  | arrayBuffer => exact .bind projects_bufferBody fun _ => .pure rfl
  | arrayBufferView => exact .bind projects_viewBody fun _ => .pure rfl
  | date => exact .read fun _ => .pure rfl
  | sharedInfo => exact .read fun _ => .read fun _ => .pure rfl
  | script =>
    -- A script has nothing inside, with details or without.
    have hscript : Projects h Shape.withoutDetails (scriptShape object) (scriptShape object) := by
      refine .read fun source => ?_
      cases source with
      | none => exact .read fun _ => .read fun _ => .read fun _ => .pure rfl
      | some => exact .read fun _ => .read fun _ => .read fun _ => .pure rfl
    exact hscript
  | symbol => exact .read fun _ => .pure rfl
  | scopeInfo => exact .bind projects_scopeBody fun _ => .pure rfl
  | descriptorArray => exact .read fun _ => .bind projects_whenDetailed fun _ => .pure rfl
  | nameDictionary => exact .read fun _ => .bind projects_whenDetailed fun _ => .pure rfl
  | unknown => exact .pure rfl

/-! ### Nodes -/

theorem projects_inspect (v : Value) :
    Projects h Node.withoutDetails (inspect v o) (inspect v o.brief) := by
  intro n hn
  cases v with
  | smi raw number =>
    obtain rfl := yields_pure.mp hn
    exact yields_pure.mpr rfl
  | heap object =>
    -- At the top nothing is an ancestor, so the options are those that were asked for.
    obtain ⟨kind, shape, map, hkind, hshape, hmap, rfl⟩ := yields_below.mp hn
    exact yields_below.mpr
      ⟨kind, shape.withoutDetails, map, hkind, projects_shapeOf kind shape hshape, hmap, rfl⟩

theorem projects_inspectWord (word : Address) :
    Projects h Node.withoutDetails (inspectWord word o) (inspectWord word o.brief) :=
  .read fun _ => projects_inspect _

end Inspection

/-- Whatever is found in a value in detail, its summary is found as well: the same node without the
details. So both have one kind and name, one constructor, the same lengths and counts, and the same
text of a string or a number. -/
theorem inspect_summary {c : Capture} {g : ℕ} {word : Address} {o : Options} {n : Node}
    (hn : ((Session.start g).inspect c word o).1.result = .ok n) (g' : ℕ) :
    ((Session.start g').inspect c word o.brief).1.result = .ok n.withoutDetails ∧
      n.withoutDetails.shape.typeName = n.shape.typeName ∧
      n.withoutDetails.shape.label = n.shape.label ∧
      n.withoutDetails.shape.constructor? = n.shape.constructor? ∧
      n.withoutDetails.shape.counts = n.shape.counts ∧
      n.withoutDetails.shape.shownText? = n.shape.shownText? := by
  rw [Session.inspect_start] at hn ⊢
  exact ⟨Inspection.projects_inspectWord word n hn, n.shape.typeName_withoutDetails,
    n.shape.label_withoutDetails, n.shape.constructor?_withoutDetails,
    n.shape.counts_withoutDetails, n.shape.shownText?_withoutDetails⟩

open Inspection Synthetic

/-- An object with two elements, two properties and an internal field; its summary has the numbers
and nothing inside. -/
theorem inspect_summary_pagedObject :
    ∃ n, ((Session.start 0).inspect ⟨pagedHeap, .ofList []⟩ ⟨0x6001⟩ shallowOptions).1.result =
        .ok n ∧
      n.children.length = 3 ∧ n.shape.counts = [2, 2, 1] ∧
      ((Session.start 0).inspect ⟨pagedHeap, .ofList []⟩ ⟨0x6001⟩ shallowOptions.brief).1.result =
        .ok n.withoutDetails ∧
      n.withoutDetails.children = [] ∧ n.withoutDetails.shape.counts = [2, 2, 1] := by
  have hfound : (do
      let n ← inspectWord ⟨0x6001⟩ shallowOptions
      pure (n.children.length, n.shape.counts, n.withoutDetails.children.length)).Yields pagedHeap
        (3, [2, 2, 1], 0) := by
    decide +kernel
  obtain ⟨n, hn, hfound⟩ := yields_bind.mp hfound
  obtain ⟨hlength, hcounts, hnone⟩ : n.children.length = 3 ∧ n.shape.counts = [2, 2, 1] ∧
      n.withoutDetails.children.length = 0 := by simpa using hfound
  have hn : ((Session.start 0).inspect ⟨pagedHeap, .ofList []⟩ ⟨0x6001⟩ shallowOptions).1.result =
      .ok n := (congrArg Outcome.result (Session.inspect_start ..)).trans hn
  obtain ⟨hbrief, -, -, -, hsame, -⟩ := inspect_summary hn 0
  exact ⟨n, hn, hlength, hcounts, hbrief, List.eq_nil_of_length_eq_zero hnone,
    hsame.trans hcounts⟩

end Postmortem
