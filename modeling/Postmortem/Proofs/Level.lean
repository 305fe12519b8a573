/-
Postmortem/Proofs/Level.lean

One level of inspection.

What is found in an object is told in terms of a way to inspect the values
inside it.  Such a computation delegates: it is strict but for the calls of the
inner inspector, and what it finds is settled by the nodes that the calls gave.
`Delegates` says of it, for any inner inspector,

* that it gives up only where a call or the resolution of a string does;
* that whatever it yields comes from certain calls, with a condition on their
  nodes, and is yielded again wherever the same calls give the same nodes and no
  less was captured.

It is closed under reading, calling and going on (`Delegates.read`, `.call`,
`.bind`), so the lemma about each part of an object follows its definition.  For
every kind of object but errors the nodes are just the parts of the shape
(`finds_shapeOf`), and calls are made only where details are asked for.
Errors look for a stack beside that, and go on where there is none.

A level as a whole is taken apart by `yields_below`.
-/
import Postmortem.Inspection
import Postmortem.Proofs.Readers
import Postmortem.Proofs.Tree

namespace Postmortem

open HeapM

namespace Inspection

variable {α β γ : Type} {h : Heap} {may : Prop} {X : Inspector → HeapM α}
  {F : α → Inspector → HeapM β} {mid : α → List Node → Prop} {post : β → List Node → Prop}

/-- A call of the inner inspector, and the node that it gave. -/
structure Call where
  value : Value
  options : Options
  node : Node

/-- The inspector gives the nodes of all the calls. -/
def Answers (h : Heap) (inner : Inspector) (calls : List Call) : Prop :=
  ∀ c ∈ calls, (inner c.value c.options).Yields h c.node

/-- Strict but for calls of the inner inspector, which are made only if they may be; `post` relates
what is found to the nodes of the calls. -/
structure Delegates (h : Heap) (may : Prop) (X : Inspector → HeapM α)
    (post : α → List Node → Prop) : Prop where
  quiet : StringsAcyclic h → ∀ inner, (may → ∀ v o, (inner v o h).gaveUp = false) →
    (X inner h).gaveUp = false
  calls : ∀ inner a, (X inner).Yields h a → ∃ calls, post a (calls.map Call.node) ∧
    (calls ≠ [] → may) ∧ Answers h inner calls ∧
      ∀ h' inner', Extends h h' → Answers h' inner' calls → (X inner').Yields h' a

namespace Delegates

theorem reads {x : HeapM β} (hx : Reads h x) (hpost : ∀ b, x.Yields h b → post b []) :
    Delegates h may (fun _ => x) post where
  quiet := fun hstrings _ _ => hx.quiet hstrings
  calls := fun _ b hb =>
    ⟨[], hpost b hb, fun hne => absurd rfl hne, nofun, fun _ _ hle _ => hx.persists hle b hb⟩

theorem pure {b : β} (hpost : post b []) : Delegates h may (fun _ => Pure.pure b) post :=
  reads .pure fun _ hb => yields_pure.mp hb ▸ hpost

theorem inspect (hmay : may) {v : Value} {o : Options} :
    Delegates h may (fun inner => inner v o) (fun n ns => ns = [n]) where
  quiet := fun _ _ hquiet => hquiet hmay v o
  calls := fun _ n hn =>
    ⟨[⟨v, o, n⟩], rfl, fun _ => hmay, fun _ hc => List.mem_singleton.mp hc ▸ hn,
      fun _ _ _ hanswers => hanswers ⟨v, o, n⟩ (List.mem_singleton.mpr rfl)⟩

theorem bind (hX : Delegates h may X mid)
    (hF : ∀ a ns, mid a ns → Delegates h may (F a) fun b ms => post b (ns ++ ms)) :
    Delegates h may (fun inner => X inner >>= fun a => F a inner) post where
  quiet := fun hstrings inner hquiet => by
    refine gaveUp_bind (hX.quiet hstrings inner hquiet) fun a ha => ?_
    obtain ⟨calls, hmid, -⟩ := hX.calls inner a ha
    exact (hF a _ hmid).quiet hstrings inner hquiet
  calls := fun inner b hb => by
    -- The calls of the first step, and behind them those of what comes after it.
    obtain ⟨a, ha, hb⟩ := yields_bind.mp hb
    obtain ⟨calls, hmid, hmay, hanswers, hagain⟩ := hX.calls inner a ha
    obtain ⟨more, hpost, hmay', hanswers', hagain'⟩ := (hF a _ hmid).calls inner b hb
    refine ⟨calls ++ more, List.map_append ▸ hpost, fun hne => ?_, fun c hc => ?_,
      fun h' inner' hle hall => ?_⟩
    · by_cases hcalls : calls = []
      · exact hmay' fun hmore => hne (by rw [hcalls, hmore, List.nil_append])
      · exact hmay hcalls
    · rcases List.mem_append.mp hc with hc | hc
      · exact hanswers c hc
      · exact hanswers' c hc
    · exact (hagain h' inner' hle fun c hc => hall c (List.mem_append_left _ hc)).bind
        (hagain' h' inner' hle fun c hc => hall c (List.mem_append_right _ hc))

theorem read {x : HeapM α} (hx : Reads h x)
    (hF : ∀ a, x.Yields h a → Delegates h may (F a) post) :
    Delegates h may (fun inner => x >>= fun a => F a inner) post := by
  have hread : Delegates h may (fun _ => x) fun a ns => x.Yields h a ∧ ns = [] :=
    reads hx fun _ ha => ⟨ha, rfl⟩
  exact bind hread fun a _ ⟨ha, hns⟩ => hns ▸ hF a ha

theorem call (hmay : may) {v : Value} {o : Options} {F : Node → Inspector → HeapM β}
    (hF : ∀ n, Delegates h may (F n) fun b ns => post b (n :: ns)) :
    Delegates h may (fun inner => inner v o >>= fun n => F n inner) post :=
  bind (inspect hmay) fun n _ hns => hns ▸ hF n

/-- A value that is already there is gone on with. -/
theorem given {a : α} (hF : Delegates h may (F a) post) :
    Delegates h may (fun inner => Pure.pure a >>= fun a => F a inner) post := by
  simpa only [pure_bind] using hF

theorem ite {c : Prop} [Decidable c] {X Y : Inspector → HeapM β}
    (hX : c → Delegates h may X post) (hY : ¬ c → Delegates h may Y post) :
    Delegates h may (fun inner => if c then X inner else Y inner) post := by
  by_cases hc : c
  · simpa only [if_pos hc] using hX hc
  · simpa only [if_neg hc] using hY hc

theorem mapM {parts : α → List Node} {F : Inspector → γ → HeapM α}
    (hF : ∀ c, Delegates h may (fun inner => F inner c) fun a ns => ns = parts a)
    (items : List γ) :
    Delegates h may (fun inner => items.mapM (F inner)) fun as ns => ns = as.flatMap parts := by
  induction items with
  | nil => exact pure rfl
  | cons item items ih =>
    simp only [List.mapM_cons]
    refine bind (hF item) fun a ns hns => bind ih fun as ms hms => pure ?_
    rw [hns, hms, List.append_nil, List.flatMap_cons]

theorem forRange {parts : α → List Node} {F : Inspector → Nat → HeapM α} {start count : Nat}
    (hF : ∀ i, Delegates h may (fun inner => F inner i) fun a ns => ns = parts a) :
    Delegates h may (fun inner => HeapM.forRange start (F inner) count)
      fun as ns => ns = as.flatMap parts := by
  simp only [forRange_eq_mapM]
  exact mapM hF _

end Delegates

/-! ### Collections -/

variable {o : Options} {array object : Address}

/-- What is found settles its parts: they are the nodes of the calls, in order. -/
abbrev Finds (h : Heap) (may : Prop) (X : Inspector → HeapM α) (parts : α → List Node) : Prop :=
  Delegates h may X fun a ns => ns = parts a

theorem finds_element (hmay : may) {index : Nat} :
    Finds h may (fun inner => element inner array o index) Element.parts :=
  .read FixedArray.strict_get fun _ _ => .read strict_isHole fun _ _ =>
    .ite (fun _ => .pure rfl) fun _ => .call hmay fun _ => .pure rfl

theorem finds_elementPage (hmay : may) {w : Window} :
    Finds h may (fun inner => elementPage inner array o w) (Page.parts Element.parts) :=
  .bind (.forRange fun _ => finds_element hmay) fun _ _ hns => .pure (by simp [hns, Page.parts])

theorem finds_property (hmay : may) {entry : Value × PropertySlot} :
    Finds h may (fun inner => property inner o entry) Property.parts := by
  rcases entry with ⟨key, v | d | details⟩
  · exact .call hmay fun _ => .given (.read reads_keyText fun _ _ => .pure rfl)
  · exact .given (.read reads_keyText fun _ _ => .pure rfl)
  · exact .given (.read reads_keyText fun _ _ => .pure rfl)

theorem finds_descriptor (hmay : may) {index : Nat} :
    Finds h may (fun inner => descriptor inner array o index) Property.parts := by
  refine .read DescriptorArray.reads_entry fun entry _ => ?_
  cases entry.storage with
  | descriptor =>
    exact .read DescriptorArray.reads_part fun _ _ => .call hmay fun _ =>
      .given (.read reads_keyText fun _ _ => .pure rfl)
  | field => exact .given (.read reads_keyText fun _ _ => .pure rfl)
  | unsupported => exact .given (.read reads_keyText fun _ _ => .pure rfl)

theorem finds_dictionaryEntry (hmay : may) {entry : Value × Value} :
    Finds h may (fun inner => dictionaryEntry inner o entry) Property.parts :=
  .read reads_keyText fun _ _ => .call hmay fun _ => .pure rfl

theorem finds_whenDetailed (parts : α → List Node)
    (hX : o.detailed = true → Finds h (o.detailed = true) X parts) :
    Finds h (o.detailed = true) (fun inner => whenDetailed o (X inner))
      fun found => found.elim [] parts :=
  .ite (fun hdetailed => .bind (hX hdetailed) fun _ _ hns => .pure (by simp [hns]))
    fun _ => .pure rfl

theorem finds_domainPage {w : Option Window} {itemParts : α → List Node}
    {X : Window → Inspector → HeapM (Page α)}
    (hX : ∀ part, Finds h may (X part) (Page.parts itemParts)) :
    Finds h may (fun inner => domainPage w fun part => X part inner)
      fun found => found.elim [] (Page.parts itemParts) := by
  cases w with
  | none => exact .pure rfl
  | some w => exact .bind (hX w) fun _ _ hns => .pure (by simp [hns])

theorem reads_domainPage {w : Option Window} {x : Window → HeapM (Page α)}
    (hx : ∀ part, Reads h (x part)) : Reads h (domainPage w x) := by
  cases w with
  | none => exact .pure
  | some w => exact .bind (hx w) fun _ => .pure

/-! ### Objects -/

theorem finds_objectBody :
    Finds h (o.detailed = true) (fun inner => objectBody inner object o) ObjectBody.parts := by
  have helements (hdetailed : o.detailed = true) (w : Option Window) :
      Finds h (o.detailed = true)
        (fun inner => domainPage w fun part => do
          elementPage inner (← JsObject.elements object) o part)
        fun found => found.elim [] (Page.parts Element.parts) :=
    finds_domainPage fun _ => .read strict_pointer fun _ _ => finds_elementPage hdetailed
  have hproperties (hdetailed : o.detailed = true) (w : Option Window) :
      Finds h (o.detailed = true)
        (fun inner => domainPage w fun part => do
          let entries ← JsObject.properties object (some part)
          pure ⟨← entries.mapM (property inner o), part⟩)
        fun found => found.elim [] (Page.parts Property.parts) :=
    finds_domainPage fun _ => .read JsObject.reads_properties fun _ _ =>
      .bind (.mapM (fun _ => finds_property hdetailed) _) fun _ _ hns => .pure
        (by simp [hns, Page.parts])
  have hfields (w : Option Window) :
      Reads h (domainPage w fun part => do pure ⟨← JsObject.internalFields object part, part⟩) :=
    reads_domainPage fun _ => .bind JsObject.reads_internalFields fun _ => .pure
  refine .read Map.strict_of fun _ _ => .read Map.strict_checkInObjectRegion fun _ _ =>
    .read Map.reads_constructorName? fun _ _ => .read JsObject.reads_elementsLength fun _ _ =>
    .read JsObject.reads_propertiesLength fun _ _ =>
    .read JsObject.reads_internalFieldsLength fun _ _ =>
    .ite (fun hdetailed => ?_) fun _ => .pure rfl
  exact .bind (helements hdetailed _) fun _ _ hns => .bind (hproperties hdetailed _) fun _ _ hms =>
    .read (hfields _) fun _ _ => .pure (by simp [hns, hms, ObjectBody.parts])

/-! ### Functions, contexts and maps -/

theorem finds_functionBody :
    Finds h (o.detailed = true) (fun inner => functionBody inner object o) FunctionBody.parts := by
  refine .read JsFunction.reads_name fun _ _ => .read JsFunction.reads_location fun _ _ =>
    .ite (fun hdetailed => .read strict_value fun found _ => ?_) fun _ => .pure rfl
  cases found with
  | smi =>
    exact .given (.ite (fun _ => .read JsFunction.reads_source? fun _ _ => .pure rfl)
      fun _ => .given (.pure rfl))
  | heap =>
    exact .call hdetailed fun _ => .given
      (.ite (fun _ => .read JsFunction.reads_source? fun _ _ => .pure rfl)
        fun _ => .given (.pure rfl))

/-- The value inside, if there is one. -/
theorem finds_optional (hmay : may) {found : Option α} (v : α → Value) :
    Finds h may (fun inner => found.mapM fun a => inner (v a) o) Option.toList := by
  cases found with
  | none => exact .pure rfl
  | some a =>
    simp only [Option.mapM_some, map_eq_pure_bind]
    exact .call hmay fun _ => .pure rfl

theorem finds_contextBody :
    Finds h (o.detailed = true) (fun inner => contextBody inner object o) ContextBody.parts := by
  refine .ite (fun hdetailed => ?_) fun _ => .pure rfl
  have hlocals (found : List (String × Value)) :
      Finds h (o.detailed = true)
        (fun inner => found.mapM fun (entry : String × Value) => do
          pure (⟨entry.1, .node (← inner entry.2 o.child)⟩ : Property Node))
        (List.flatMap Property.parts) :=
    .mapM (fun _ => .call hdetailed fun _ => .pure rfl) found
  refine .read Context.reads_get fun _ _ => .read Context.reads_closure? fun closure _ =>
    .bind (finds_optional hdetailed id) fun closureNode _ hclosure => ?_
  cases closure with
  | some =>
    exact .given (.read Context.reads_locals fun _ _ => .bind (hlocals _) fun _ _ hns => .pure
      (by simp [hclosure, hns, ContextBody.parts]))
  | none =>
    exact .read Context.reads_scopeInfo fun _ _ => .call hdetailed fun _ => .given
      (.read Context.reads_locals fun _ _ => .bind (hlocals _) fun _ _ hns => .pure
        (by simp [hclosure, hns, ContextBody.parts]))

theorem finds_mapBody :
    Finds h (o.detailed = true) (fun inner => mapBody inner object o) MapBody.parts := by
  refine .read Map.strict_isDictionary fun _ _ => .read .layout fun _ _ => ?_
  have hrest (isDictionary : Bool) (inObject : Option Int) :
      Finds h (o.detailed = true)
        (fun inner => do
          let descriptors ← Map.descriptors object
          let expanded ←
            if o.detailed && !isDictionary then
              descriptors.mapM fun array => inner (.heap array) o.child
            else pure none
          let own ← Map.ownDescriptors object
          pure ⟨own, isDictionary, inObject, ← Map.instanceSize object, descriptors, expanded⟩)
        MapBody.parts := by
    refine .read Map.strict_descriptors fun _ _ => .ite (fun hboth => ?_) fun _ => ?_
    · have hdetailed : o.detailed = true := (Bool.and_eq_true_iff.mp hboth).1
      exact .bind (finds_optional hdetailed .heap) fun _ _ hns =>
        .read Map.strict_ownDescriptors fun _ _ => .read Map.strict_instanceSize fun _ _ => .pure
          (by simp [hns, MapBody.parts])
    · exact .given (.read Map.strict_ownDescriptors fun _ _ =>
        .read Map.strict_instanceSize fun _ _ => .pure rfl)
  exact .ite (fun _ => .read Map.strict_inObjectProperties fun _ _ => .given (hrest _ _))
    fun _ => .given (hrest _ _)

/-! ### Bodies without parts -/

theorem reads_scopeBody : Reads h (scopeBody object o) := by
  have hrest (locals : Int) (names : List String) : Reads h (do
      let parameters ← ScopeInfo.parameterCount object
      let stackLocals ← ScopeInfo.stackLocalCount object
      pure (⟨parameters, stackLocals, locals, ← ScopeInfo.functionName? object, names⟩ :
        ScopeBody)) :=
    .bind ScopeInfo.reads_number fun _ => .bind ScopeInfo.reads_number fun _ =>
      .bind ScopeInfo.reads_functionName? fun _ => .pure
  exact .bind ScopeInfo.reads_number fun _ =>
    .ite (.bind ScopeInfo.reads_contextLocalNames fun _ => hrest _ _)
      (.bind .pure fun _ => hrest _ _)

theorem reads_payload {start : Address} {length : Nat} : Reads h (payload start length o) :=
  .ite (.bind (.bind strict_bytes fun _ => .pure) fun _ => .pure) .pure

theorem reads_bufferBody : Reads h (bufferBody object o) :=
  .bind ArrayBuffer.reads_isNeutered fun _ =>
    .ite .pure
      (.bind ArrayBuffer.reads_backingStore fun _ => .bind strict_count fun _ =>
        .bind reads_payload fun _ => .pure)

theorem reads_viewBody : Reads h (viewBody object o) :=
  .bind strict_pointer fun _ => .bind ArrayBuffer.reads_isNeutered fun _ =>
    .ite .pure
      (.bind ArrayBufferView.reads_store fun _ => .bind strict_count fun _ =>
        .bind strict_count fun _ => .bind reads_payload fun _ => .pure)

/-! ### Shapes -/

theorem finds_arrayShape :
    Finds h (o.detailed = true) (fun inner => arrayShape inner object o) Shape.parts :=
  .read strict_count fun _ _ =>
    .bind
      (finds_whenDetailed _ fun hdetailed => .read strict_pointer fun _ _ =>
        .read FixedArray.strict_length fun _ _ => finds_elementPage hdetailed)
      fun _ _ hns => .pure (by simp [hns, Shape.parts])

theorem finds_fixedArrayShape :
    Finds h (o.detailed = true) (fun inner => fixedArrayShape inner object o) Shape.parts :=
  .read FixedArray.strict_length fun _ _ =>
    .bind (finds_whenDetailed _ fun hdetailed => finds_elementPage hdetailed)
      fun _ _ hns => .pure (by simp [hns, Shape.parts])

theorem finds_descriptorsShape :
    Finds h (o.detailed = true) (fun inner => descriptorsShape inner object o) Shape.parts :=
  .read DescriptorArray.reads_length fun _ _ =>
    .bind
      (finds_whenDetailed (Page.parts Property.parts) fun hdetailed =>
        .bind (.forRange fun _ => finds_descriptor hdetailed) fun _ _ hns => .pure
          (by simp [hns, Page.parts]))
      fun _ _ hns => .pure (by simp [hns, Shape.parts])

theorem finds_dictionaryShape :
    Finds h (o.detailed = true) (fun inner => dictionaryShape inner object o) Shape.parts :=
  .read NameDictionary.reads_capacity fun _ _ =>
    .bind
      (finds_whenDetailed (Page.parts Property.parts) fun hdetailed =>
        .read NameDictionary.reads_liveCount fun _ _ =>
          .read NameDictionary.reads_entries fun _ _ =>
            .bind (.mapM (fun _ => finds_dictionaryEntry hdetailed) _) fun _ _ hns => .pure
              (by simp [hns, Page.parts]))
      fun _ _ hns => .pure (by simp [hns, Shape.parts])

theorem finds_scriptShape : Finds h may (fun _ => scriptShape object) Shape.parts := by
  refine .read Script.reads_source? fun source _ => ?_
  cases source with
  | some source =>
    exact .read JsString.strict_length fun _ _ => .read Script.reads_name fun _ _ =>
      .read strict_int fun _ _ => .pure rfl
  | none =>
    exact .given (.read Script.reads_name fun _ _ => .read strict_int fun _ _ => .pure rfl)

/-- What is found in an object that is no error is settled by its parts. -/
theorem finds_shapeOf {kind : Kind} (hkind : (Kind.of object).Yields h kind)
    (herror : kind ≠ .error) :
    Finds h (o.detailed = true) (fun inner => shapeOf inner kind object o) Shape.parts := by
  cases kind with
  | global => exact .pure rfl
  | globalProxy => exact .pure rfl
  | code => exact .pure rfl
  | map => exact .bind finds_mapBody fun _ _ hns => .pure (by simp [hns, Shape.parts])
  | context => exact .bind finds_contextBody fun _ _ hns => .pure (by simp [hns, Shape.parts])
  | error => exact absurd rfl herror
  | object => exact .bind finds_objectBody fun _ _ hns => .pure (by simp [hns, Shape.parts])
  | number => exact .read HeapNumber.reads_value fun _ _ => .pure rfl
  | array => exact finds_arrayShape
  | oddball => exact .read Oddball.strict_kind fun _ _ => .pure rfl
  | function => exact .bind finds_functionBody fun _ _ hns => .pure (by simp [hns, Shape.parts])
  | regExp =>
    exact .read (JsRegExp.reads_source hkind) fun _ _ =>
      .bind (finds_whenDetailed _ fun _ => finds_objectBody) fun _ _ hns => .pure
        (by simp [hns, Shape.parts])
  | string =>
    exact .read (JsString.reads_text (Kind.readAsString_of_kind hkind)) fun _ _ => .pure rfl
  | fixedArray => exact finds_fixedArrayShape
  | arrayBuffer => exact .read reads_bufferBody fun _ _ => .pure rfl
  | arrayBufferView => exact .read reads_viewBody fun _ _ => .pure rfl
  | date => exact .read JsDate.reads_text fun _ _ => .pure rfl
  | sharedInfo =>
    exact .read SharedInfo.reads_properName fun _ _ => .read SharedInfo.reads_location fun _ _ =>
      .pure rfl
  | script => exact finds_scriptShape
  | symbol => exact .read Symbol.reads_description? fun _ _ => .pure rfl
  | scopeInfo => exact .read reads_scopeBody fun _ _ => .pure rfl
  | descriptorArray => exact finds_descriptorsShape
  | nameDictionary => exact finds_dictionaryShape
  | unknown => exact .pure rfl

/-! ### Errors -/

variable {inner : Inspector}

theorem gaveUp_mapM {f : γ → HeapM α} (hf : ∀ c, (f c h).gaveUp = false) (items : List γ) :
    (items.mapM f h).gaveUp = false := by
  induction items with
  | nil => rfl
  | cons item items ih =>
    rw [List.mapM_cons]
    exact gaveUp_bind (hf item) fun _ _ => gaveUp_bind ih fun _ _ => rfl

theorem gaveUp_forRange {f : Nat → HeapM α} (hf : ∀ i, (f i h).gaveUp = false)
    (start count : Nat) : (HeapM.forRange start f count h).gaveUp = false := by
  rw [forRange_eq_mapM]
  exact gaveUp_mapM hf _

theorem quiet_stackLines (hstrings : StringsAcyclic h)
    (hinner : ∀ v o, (inner v o h).gaveUp = false) :
    (stackLines inner object h).gaveUp = false := by
  refine gaveUp_bind (CapturedStack.quiet_locate hstrings) fun stack _ => ?_
  cases stack with
  | none => rfl
  | some stack =>
    refine gaveUp_bind (gaveUp_forRange (fun frame => ?_) _ _) fun _ _ => rfl
    exact gaveUp_bind (JsArray.strict_get.quiet fun _ => False.elim) fun _ _ =>
      gaveUp_bind (hinner _ _) fun _ _ => rfl

theorem quiet_errorShape (hstrings : StringsAcyclic h)
    (hinner : o.detailed = true → ∀ v o, (inner v o h).gaveUp = false) :
    (errorShape inner object o h).gaveUp = false := by
  refine gaveUp_bind (finds_objectBody.quiet hstrings inner hinner) fun body _ => ?_
  split
  case isTrue hdetailed =>
    exact gaveUp_bind (quiet_stackLines hstrings (hinner hdetailed)) fun _ _ => rfl
  case isFalse => rfl

theorem body_of_errorShape {s : Shape Node} (hs : (errorShape inner object o).Yields h s) :
    ∃ body stack, (objectBody inner object o).Yields h body ∧ s = .error body stack := by
  obtain ⟨body, hbody, hs⟩ := yields_bind.mp hs
  refine ⟨body, ?_⟩
  split at hs
  · obtain ⟨stack, -, hs⟩ := yields_bind.mp hs
    exact ⟨stack, hbody, (yields_pure.mp hs).symm⟩
  · exact ⟨none, hbody, (yields_pure.mp hs).symm⟩

/-! ### Any object -/

variable {kind : Kind}

/-- Looking into an object ends if looking at the values inside does. -/
theorem quiet_shapeOf (hstrings : StringsAcyclic h) (hkind : (Kind.of object).Yields h kind)
    (hinner : o.detailed = true → ∀ v o, (inner v o h).gaveUp = false) :
    (shapeOf inner kind object o h).gaveUp = false := by
  by_cases herror : kind = .error
  · subst herror
    exact quiet_errorShape hstrings hinner
  · exact (finds_shapeOf hkind herror).quiet hstrings inner hinner

/-- What stands inside a shape was given by the inner inspector, and details were asked for. -/
theorem inner_of_mem_parts {parts : α → List Node}
    (hX : Finds h (o.detailed = true) X parts) {a : α} (ha : (X inner).Yields h a) {n : Node}
    (hn : n ∈ parts a) : o.detailed = true ∧ ∃ v o', (inner v o').Yields h n := by
  obtain ⟨calls, hparts, hmay, hanswers, -⟩ := hX.calls inner a ha
  rw [← hparts] at hn
  obtain ⟨c, hc, rfl⟩ := List.mem_map.mp hn
  exact ⟨hmay (List.ne_nil_of_mem hc), c.value, c.options, hanswers c hc⟩

theorem inner_of_mem_shape (hkind : (Kind.of object).Yields h kind) {s : Shape Node}
    (hs : (shapeOf inner kind object o).Yields h s) {n : Node} (hn : n ∈ s.parts) :
    o.detailed = true ∧ ∃ v o', (inner v o').Yields h n := by
  by_cases herror : kind = .error
  · subst herror
    obtain ⟨body, stack, hbody, rfl⟩ := body_of_errorShape hs
    exact inner_of_mem_parts finds_objectBody hbody hn
  · exact inner_of_mem_parts (finds_shapeOf hkind herror) hs hn

/-! ### Levels -/

variable {levels : Nat} {ancestors : List Address} {n : Node}

theorem reads_shownMap : Reads h (shownMap object o) :=
  .ite (.bind Map.strict_of fun _ => .pure) .pure

/-- What is found one level down: an object's kind, its shape with the values inside it one level
further down, and its map. -/
theorem yields_below :
    (below (levels + 1) ancestors (.heap object) o).Yields h n ↔
      ∃ kind shape map, (Kind.of object).Yields h kind ∧
        (shapeOf (below levels (object :: ancestors)) kind object
          (optionsBelow ancestors object o)).Yields h shape ∧
        (shownMap object (optionsBelow ancestors object o)).Yields h map ∧
        Node.mk object map shape = n := by
  constructor
  · intro hn
    obtain ⟨kind, hkind, hn⟩ := yields_bind.mp hn
    obtain ⟨shape, hshape, hn⟩ := yields_bind.mp hn
    obtain ⟨map, hmap, hn⟩ := yields_bind.mp hn
    exact ⟨kind, shape, map, hkind, hshape, hmap, yields_pure.mp hn⟩
  · rintro ⟨kind, shape, map, hkind, hshape, hmap, rfl⟩
    exact hkind.bind (hshape.bind (hmap.bind (yields_pure.mpr rfl)))

end Inspection

end Postmortem
