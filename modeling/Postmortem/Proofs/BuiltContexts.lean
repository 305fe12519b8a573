/-
Postmortem/Proofs/BuiltContexts.lean

Variables go with their own names.

A context that is built by hand keeps the values of its variables, and its scope
keeps their names.  So the name of a variable and its value stand in two arrays, and
nowhere at the same place: the one behind the names of the parameters, the other
behind four slots.  Decoding pairs each value with the name that it was given with,
whatever is built before, between and after.

Names are strings of one-byte units.  A character that is no such unit is not kept,
the decoder refuses strings of more than 2 ^ 25 units, and a scope has no more slots
than a small integer counts.  And as with the keys of objects, the oddball of kind
minus nine must not be there before the map of these strings.

Main result: `decodes_context`.
-/
import Postmortem.Proofs.BuiltScopes

namespace Postmortem.Synthetic.Builder

open HeapM JsString

variable {b : Builder} {start : ℕ} {maps : Set Address}

/-! ### Contexts -/

/-- The slots of a context. -/
def contextSlots (closure previous : Option Address) (scope : Address) (values : List UInt64) :
    List UInt64 :=
  (closure.map Address.word).getD (smallInt 0) :: (previous.map Address.word).getD (smallInt 0) ::
    scope.word :: smallInt 0 :: values

theorem length_contextSlots (closure previous : Option Address) (scope : Address)
    (values : List UInt64) :
    (contextSlots closure previous scope values).length = 4 + values.length := by
  simp only [contextSlots, List.length_cons]
  omega

section

variable {closure previous : Option Address} {scope : ℕ} {values : List UInt64}
  (harray : b.HasArray start (contextSlots closure previous (objectAt scope) values))
  (hpoisoned : b.memory.poisoned = []) (hfew : values.length < 2 ^ 31 - 4)
include harray hpoisoned hfew

theorem HasArray.yields_scopeInfo (heven : 2 ∣ scope) :
    (Context.scopeInfo (objectAt start)).Yields b.heap (objectAt scope) := by
  have hlength := length_contextSlots closure previous (objectAt scope) values
  have hread := harray.yields_contextSlot (i := 2) (c := .contextScopeInfoIndex) hpoisoned
    (by omega) (value?_standardLayout rfl rfl (by cbv)) rfl
  rw [classify_objectAt heven] at hread
  exact hread.bind (yields_pure.mpr rfl)

theorem HasArray.yields_previous (hprevious : ∀ c ∈ previous, c.word.toNat % 2 = 1) :
    (Context.previous (objectAt start)).Yields b.heap
      (previous.elim (.smi (smallInt 0) 0) .heap) := by
  have hlength := length_contextSlots closure previous (objectAt scope) values
  have hread := harray.yields_contextSlot (i := 1) (c := .contextPreviousIndex) hpoisoned
    (by omega) (value?_standardLayout rfl rfl (by cbv)) rfl
  cases previous with
  | none =>
    have hzero : Value.classify standardLayout (smallInt 0) = .smi (smallInt 0) 0 :=
      classify_smallInt (n := 0) (by decide)
    rw [Option.map_none, Option.getD_none, hzero] at hread
    exact hread
  | some c =>
    rw [Option.map_some, Option.getD_some, classify_odd (hprevious c rfl)] at hread
    exact hread

theorem HasArray.yields_localAt {i : ℕ} {w : UInt64} (hw : values[i]? = some w) :
    (Context.localAt (objectAt start) i).Yields b.heap (.classify standardLayout w) := by
  have hlength := length_contextSlots closure previous (objectAt scope) values
  have hfirst : (constant .contextMinSlots).Yields b.heap 4 :=
    yields_constant.mpr (value?_standardLayout rfl rfl (by cbv))
  refine hfirst.bind (harray.yields_get hpoisoned (by omega) ?_)
  rw [show (4 : ℤ).toNat + i = i + 1 + 1 + 1 + 1 by omega]
  exact hw

theorem HasArray.yields_locals {names : List String} {name : Option String} {parts : ScopeParts}
    (hscope : b.HasScope maps scope names name parts) (hslots : parts.slots.length < 2 ^ 31)
    (hlength : names.length = values.length)
    (hreadable : ∀ text ∈ names, b.AreStringMaps maps ∧ IsReadable text) :
    (Context.locals (objectAt start)).Yields b.heap
      (names.zip (values.map (Value.classify standardLayout))) := by
  have hcount := hscope.array.yields_contextLocalCount hpoisoned hslots
  rw [← hscope.locals.length_eq] at hcount
  refine (harray.yields_scopeInfo hpoisoned hfew hscope.array.even).bind (hcount.bind ?_)
  rw [Int.toNat_natCast, yields_forRange, List.forall₂_iff_get]
  refine ⟨by simp [hlength], fun i hi _ => ?_⟩
  rw [List.length_range'] at hi
  simp only [List.get_eq_getElem, List.getElem_range', Nat.zero_add, Nat.one_mul,
    List.getElem_zip, List.getElem_map]
  have hname := hscope.yields_contextLocalName hpoisoned hslots (List.getElem?_eq_getElem hi)
    (hreadable _ (List.getElem_mem hi)).1 (hreadable _ (List.getElem_mem hi)).2
  have hvalue := harray.yields_localAt hpoisoned hfew (List.getElem?_eq_getElem (hlength ▸ hi))
  exact hname.bind (hvalue.bind (yields_pure.mpr rfl))

end

/-! ### Built contexts -/

/-- Builds a scope and a context of it, with some constructions between them. -/
def scopedContext (parameters : ℕ) (names : List String) (name : Option String)
    (between : List Step) (closure previous : Option Address) (values : List UInt64) :
    BuildM (Address × Address) := do
  let scope ← scopeInfo parameters names name
  modify (·.run between)
  let context ← context closure previous scope values
  pure (scope, context)

theorem after_scopedContext (parameters : ℕ) (names : List String) (name : Option String)
    (between : List Step) (closure previous : Option Address) (values : List UInt64) (b : Builder) :
    after (scopedContext parameters names name between closure previous values) b =
      after (context closure previous (value (scopeInfo parameters names name) b) values)
        ((after (scopeInfo parameters names name) b).run between) := by
  unfold scopedContext
  rw [after_bind, after_bind, after_bind, after_pure]
  rfl

theorem value_scopedContext (parameters : ℕ) (names : List String) (name : Option String)
    (between : List Step) (closure previous : Option Address) (values : List UInt64) (b : Builder) :
    value (scopedContext parameters names name between closure previous values) b =
      (value (scopeInfo parameters names name) b,
        value (context closure previous (value (scopeInfo parameters names name) b) values)
          ((after (scopeInfo parameters names name) b).run between)) := by
  unfold scopedContext
  rw [value_bind, value_bind, value_bind, value_pure]
  rfl

/-- What is decoded of a context and its scope: the numbers and, if the map of strings can be made
out and the texts can be read back, the name of the function and each value with its name. -/
structure DecodesContext (h : Heap) (scope context : Address) (parameters : ℕ)
    (names : List String) (values : List UInt64) (name : Option String) (previous : Option Address)
    (isLegible : Prop) : Prop where
  parameterCount : (ScopeInfo.parameterCount scope).Yields h parameters
  contextLocalCount : (ScopeInfo.contextLocalCount scope).Yields h names.length
  functionName? : (∀ text ∈ name, isLegible ∧ IsReadable text) →
    (ScopeInfo.functionName? scope).Yields h (name.filter (!·.isEmpty))
  locals : (∀ text ∈ names, isLegible ∧ IsReadable text) →
    (Context.locals context).Yields h (names.zip (values.map (Value.classify standardLayout)))
  previous : (∀ c ∈ previous, c.word.toNat % 2 = 1) →
    (Context.previous context).Yields h (previous.elim (.smi (smallInt 0) 0) .heap)

theorem HasScope.decodesContext {scope context : ℕ} {parts : ScopeParts} {names : List String}
    {values : List UInt64} {name : Option String} {closure previous : Option Address}
    {isLegible : Prop} (hscope : b.HasScope maps scope names name parts)
    (hmaps : isLegible → b.AreStringMaps maps)
    (hcontext : b.HasArray context (contextSlots closure previous (objectAt scope) values))
    (hpoisoned : b.memory.poisoned = []) (hlength : names.length = values.length)
    (hfew : 5 + parts.parameters.length + 2 * names.length < 2 ^ 31) :
    DecodesContext b.heap (objectAt scope) (objectAt context) parts.parameters.length names values
      name previous isLegible := by
  have hcount := hscope.locals.length_eq
  have hslots : parts.slots.length < 2 ^ 31 := by
    rw [parts.length_slots]
    omega
  have hvalues : values.length < 2 ^ 31 - 4 := by omega
  constructor
  case parameterCount => exact hscope.array.yields_parameterCount hpoisoned hslots
  case contextLocalCount =>
    rw [hcount]
    exact hscope.array.yields_contextLocalCount hpoisoned hslots
  case functionName? =>
    intro hreadable
    have hread := hscope.yields_functionName hpoisoned hslots fun text htext =>
      ⟨hmaps (hreadable text htext).1, (hreadable text htext).2.short⟩
    have hkept : name.map keptText = name := by
      cases name with
      | none => rfl
      | some text => exact congrArg some (decode_latin1Units (hreadable text rfl).2.latin1)
    rw [hkept] at hread
    exact hread
  case locals =>
    intro hreadable
    exact hcontext.yields_locals hpoisoned hvalues hscope hslots hlength fun text htext =>
      ⟨hmaps (hreadable text htext).1, (hreadable text htext).2⟩
  case previous => exact hcontext.yields_previous hpoisoned hvalues

/-- **A context and its scope stand in the heap** when they have been built. -/
theorem scopedContext_spec (parameters : ℕ) (names : List String) (name : Option String)
    (between : List Step) (closure previous : Option Address) (values : List UInt64)
    (heven : 2 ∣ b.next)
    (hnext : (after (scopedContext parameters names name between closure previous values) b).next ≤
      UInt64.size) :
    Grows b (after (scopedContext parameters names name between closure previous values) b) ∧
      ∃ scope context parts maps,
        value (scopedContext parameters names name between closure previous values) b =
          (objectAt scope, objectAt context) ∧
        parts.parameters.length = parameters ∧
        HasScope (after (scopedContext parameters names name between closure previous values) b)
          maps scope names name parts ∧
        HasArray (after (scopedContext parameters names name between closure previous values) b)
          context (contextSlots closure previous (objectAt scope) values) ∧
        b.stringMaps ⊆ maps ∧ maps.Subsingleton ∧
        (b.Sound → AreStringMaps
          (after (scopedContext parameters names name between closure previous values) b)
          maps) := by
  have hscopeTidy (watched : Prop) : Tidy watched ∅ (scopeInfo parameters names name) :=
    Account.tidy (.scopeInfo ..)
  have hcontextTidy (scope : Address) : Tidy False ∅ (context closure previous scope values) :=
    Account.tidy (.arrayOfType ..)
  rw [after_scopedContext] at hnext ⊢
  rw [value_scopedContext]
  have hgrows₃ := (hcontextTidy _).grows _ hnext
  have hfits₂ := hgrows₃.next_le.trans hnext
  have hgrows₂ := grows_run _ between hfits₂
  have hfits₁ := hgrows₂.next_le.trans hfits₂
  have hgrows₁ := (hscopeTidy False).grows b hfits₁
  obtain ⟨scope, parts, hscopeAt, hparameters, hscope⟩ :=
    scopeInfo_spec parameters names name heven hfits₁
  rw [hscopeAt] at hgrows₃ ⊢
  obtain ⟨context, hcontextAt, -, hcontext⟩ := arrayOfType_spec InstanceType.functionContext
    (contextSlots closure previous (objectAt scope) values)
    (even_run ((hscopeTidy False).even heven) between) hgrows₃.fits
  refine ⟨hgrows₁.trans (hgrows₂.trans hgrows₃), scope, context, parts, _,
    congrArg (Prod.mk _) hcontextAt, hparameters, hscope.grows (hgrows₂.trans hgrows₃), hcontext,
    (hscopeTidy True).stringMaps_subset hfits₁, fun map hmap map' hmap' => ?_,
    fun hsound map hmap => ?_⟩
  · exact Option.some.inj (hmap.symm.trans hmap')
  · exact (((hscopeTidy True).sound hsound hfits₁).shares map hmap).grows (hgrows₂.trans hgrows₃)

/-- **Variables go with their own names**, whatever is built before, between and after. -/
theorem decodes_context (earlier between later : List Step) (parameters : ℕ)
    (names : List String) (values : List UInt64) (name : Option String)
    (closure previous : Option Address) (hlength : names.length = values.length)
    (hfew : 5 + parameters + 2 * names.length < 2 ^ 31)
    (hnext : ((after (scopedContext parameters names name between closure previous values)
      (empty.run earlier)).run later).next ≤ UInt64.size) :
    DecodesContext
      ((after (scopedContext parameters names name between closure previous values)
        (empty.run earlier)).run later).heap
      (value (scopedContext parameters names name between closure previous values)
        (empty.run earlier)).1
      (value (scopedContext parameters names name between closure previous values)
        (empty.run earlier)).2
      parameters names values name previous (KeepsStringMap empty earlier) := by
  have hlater := grows_run _ later hnext
  have heven := even_run sound_empty.even earlier
  obtain ⟨hgrows, scope, context, parts, maps, hvalue, rfl, hscope, hcontext, -, -, hmaps⟩ :=
    scopedContext_spec parameters names name between closure previous values heven
      (hlater.next_le.trans hnext)
  have hearlier := grows_run empty earlier (hgrows.next_le.trans hgrows.fits)
  have hpoisoned := (hearlier.trans (hgrows.trans hlater)).kept.poisoned
  rw [hvalue]
  refine (hscope.grows hlater).decodesContext (fun hkeeps map hmap => ?_) (hcontext.grows hlater)
    hpoisoned hlength hfew
  -- What is remembered as the map of strings is one, if it was not mistaken before.
  exact (hmaps (sound_empty.run hkeeps hearlier.fits) map hmap).grows hlater

/-! ### Room -/

/-- How much room a scope and its names take at most. -/
theorem next_scopeInfo_le (count : ℕ) (locals : List String) (name : Option String) (b : Builder) :
    (after (scopeInfo count locals name) b).next ≤
      b.next + ((List.range count).map fun index => 183 + s!"p{index}".length).sum +
        (locals.map fun text => 183 + text.length).sum +
        (name.toList.map fun text => 183 + text.length).sum +
        (223 + 8 * count + 16 * locals.length) := by
  rw [scopeInfo_eq, after_bind, after_bind, after_bind]
  have hparameters := next_strings_le (fun index : ℕ => s!"p{index}") (List.range count) b
  have hcount := length_strings (fun index : ℕ => s!"p{index}") (List.range count) b
  rw [List.length_range] at hcount
  generalize after ((List.range count).mapM fun index => oneByteString s!"p{index}") b = b₁ at *
  have hlocals := next_strings_le (fun text => text) locals b₁
  have hlength := length_strings (fun text => text) locals b₁
  generalize after (locals.mapM fun text => oneByteString text) b₁ = b₂ at *
  have hname := next_strings_le (fun text => text) name.toList b₂
  generalize after (name.toList.mapM fun text => oneByteString text) b₂ = b₃ at *
  refine (next_arrayOfType_le _ _ b₃).trans ?_
  simp only [List.length_append, List.length_map, List.length_cons, List.length_nil, hcount,
    hlength]
  omega

theorem next_context_le (closure previous : Option Address) (scope : Address)
    (values : List UInt64) (b : Builder) :
    (after (context closure previous scope values) b).next ≤
      b.next + (215 + 8 * values.length) := by
  refine (next_arrayOfType_le _ (contextSlots closure previous scope values) b).trans ?_
  rw [length_contextSlots]
  omega

/-- How much room a context and its scope take at most, if nothing is built between them. -/
theorem next_scopedContext_le (parameters : ℕ) (names : List String) (name : Option String)
    (closure previous : Option Address) (values : List UInt64) (b : Builder) :
    (after (scopedContext parameters names name [] closure previous values) b).next ≤
      b.next + ((List.range parameters).map fun index => 183 + s!"p{index}".length).sum +
        (names.map fun text => 183 + text.length).sum +
        (name.toList.map fun text => 183 + text.length).sum +
        (438 + 8 * parameters + 16 * names.length + 8 * values.length) := by
  rw [after_scopedContext]
  refine (next_context_le ..).trans ?_
  have hscope := next_scopeInfo_le parameters names name b
  show (after (scopeInfo parameters names name) b).next + _ ≤ _
  omega

/-- The scope of a function with two parameters and two variables, and a context of it, between two
strings. -/
theorem decodes_context_tick :
    KeepsStringMap empty [.oneByteString "before"] ∧
      DecodesContext
        ((after (scopedContext 2 ["count", "label"] (some "tick") [] none none
          [smallInt 7, smallInt 1]) (empty.run [.oneByteString "before"])).run
            [.oneByteString "after"]).heap
        (value (scopedContext 2 ["count", "label"] (some "tick") [] none none
          [smallInt 7, smallInt 1]) (empty.run [.oneByteString "before"])).1
        (value (scopedContext 2 ["count", "label"] (some "tick") [] none none
          [smallInt 7, smallInt 1]) (empty.run [.oneByteString "before"])).2
        2 ["count", "label"] [smallInt 7, smallInt 1] (some "tick") none
        (KeepsStringMap empty [.oneByteString "before"]) := by
  refine ⟨⟨nofun, trivial⟩, decodes_context _ _ _ 2 _ _ _ _ _ rfl (by decide) ?_⟩
  have hone (text : String) (b : Builder) :
      (b.run [.oneByteString text]).next ≤ b.next + (183 + text.length) :=
    next_oneByteString_le text b
  have hbefore := hone "before" empty
  have hcontext := next_scopedContext_le 2 ["count", "label"] (some "tick") none none
    [smallInt 7, smallInt 1] (empty.run [.oneByteString "before"])
  have hafter := hone "after" (after (scopedContext 2 ["count", "label"] (some "tick") [] none none
    [smallInt 7, smallInt 1]) (empty.run [.oneByteString "before"]))
  have hempty : empty.next = 0x100000 := rfl
  have hlengths : "before".length = 6 ∧ "after".length = 5 ∧
      ((List.range 2).map fun index => 183 + s!"p{index}".length).sum = 370 ∧
      (["count", "label"].map fun text => 183 + text.length).sum = 376 ∧
      ((some "tick").toList.map fun text => 183 + text.length).sum = 187 := by decide
  simp only [hlengths, List.length_cons, List.length_nil] at hbefore hcontext hafter
  rw [UInt64.size]
  omega

/-! ### Names that are not decoded -/

/-- The first variable that is found was found by its name. -/
theorem yields_contextLocalName_zero {h : Heap} {context : Address} {entry : String × Value}
    {rest : List (String × Value)} (hfound : (Context.locals context).Yields h (entry :: rest)) :
    ∃ scope, (Context.scopeInfo context).Yields h scope ∧
      (ScopeInfo.contextLocalName scope 0).Yields h entry.1 := by
  obtain ⟨scope, hscope, hfound⟩ := yields_bind.mp hfound
  obtain ⟨count, -, hfound⟩ := yields_bind.mp hfound
  rw [yields_forRange] at hfound
  generalize count.toNat = n at hfound
  cases n with
  | zero => cases hfound
  | succ n =>
    rw [List.range'_succ] at hfound
    obtain ⟨hentry, -⟩ := List.forall₂_cons.mp hfound
    obtain ⟨name, hname, hentry⟩ := yields_bind.mp hentry
    obtain ⟨v, -, hentry⟩ := yields_bind.mp hentry
    cases yields_pure.mp hentry
    exact ⟨scope, hscope, hname⟩

theorem yields_textAt_of_contextLocalName {h : Heap} {scope : Address} {i : ℕ} {text : String}
    (htext : (ScopeInfo.contextLocalName scope i).Yields h text) :
    ∃ slot, (ScopeInfo.namesStart scope).Yields h slot ∧
      (ScopeInfo.textAt? scope (slot + i)).Yields h (some text) := by
  obtain ⟨slot, hslot, htext⟩ := yields_bind.mp htext
  obtain ⟨found, hfound, htext⟩ := yields_bind.mp htext
  cases found with
  | none => exact absurd htext yields_fail
  | some found =>
    cases yields_pure.mp htext
    exact ⟨slot, hslot, hfound⟩

/-- No variable is found with a name that is too long for the decoder. -/
theorem length_le_of_yields_contextLocalName {h : Heap} {scope : Address} {i : ℕ} {text : String}
    (htext : (ScopeInfo.contextLocalName scope i).Yields h text) :
    text.length ≤ maxStringUnits := by
  obtain ⟨slot, -, htext⟩ := yields_textAt_of_contextLocalName htext
  obtain ⟨v, -, htext⟩ := yields_bind.mp htext
  obtain ⟨answer, -, htext⟩ := yields_bind.mp htext
  split at htext
  · cases v with
    | smi => cases yields_pure.mp htext
    | heap string =>
      obtain ⟨found, hfound, htext⟩ := yields_bind.mp htext
      cases yields_pure.mp htext
      exact length_le_of_yields_text hfound
  · cases yields_pure.mp htext

/-- The first name of a scope is not found if its map does not tell a type. -/
theorem HasScope.not_yields_contextLocalName {name : Option String} {parts : ScopeParts}
    {text found : String} {names : List String} {map : ℕ}
    (hscope : b.HasScope maps start (text :: names) name parts)
    (hpoisoned : b.memory.poisoned = []) (hfew : parts.slots.length < 2 ^ 31)
    (hmaps : ∀ other ∈ maps, other = objectAt map) (hnone : b.byte? (map + 12) = none) :
    ¬ (ScopeInfo.contextLocalName (objectAt start) 0).Yields b.heap found := by
  intro hname
  obtain ⟨slot, hslot, hname⟩ := yields_textAt_of_contextLocalName hname
  cases hslot.unique (hscope.array.yields_namesStart hpoisoned hfew)
  obtain ⟨string, rest, ⟨other, hother, hstring⟩, -, hlocals⟩ :=
    List.forall₂_cons_left_iff.mp hscope.locals
  have hfirst : parts.locals[0]? = some string := by
    rw [hlocals]
    rfl
  have hread := hscope.array.yields_getInt hpoisoned hfew .scopeSlot
    (ScopeParts.getElem?_slots_local hfirst)
  obtain ⟨v, hv, hname⟩ := yields_bind.mp hname
  cases hv.unique hread
  obtain ⟨answer, hanswer, -⟩ := yields_bind.mp hname
  rw [classify_objectAt hstring.even] at hanswer
  have hword := hstring.map
  rw [hmaps other hother] at hword
  exact not_yields_isString hword hpoisoned hnone hanswer

theorem exists_get_of_yields_contextLocalCount {count : ℤ}
    (hcount : (ScopeInfo.contextLocalCount (objectAt start)).Yields b.heap count) :
    ∃ v, (FixedArray.get (objectAt start) 3).Yields b.heap v := by
  have hindex : (constant .scopeContextLocalCount).Yields b.heap 3 :=
    yields_constant.mpr (value?_standardLayout rfl rfl (by cbv))
  unfold ScopeInfo.contextLocalCount ScopeInfo.number at hcount
  rw [(yields_layout.mpr (layout_heap b)).bind_iff, if_pos (has_standardLayout rfl rfl (by cbv)),
    hindex.bind_iff] at hcount
  obtain ⟨v, hv, -⟩ := yields_bind.mp hcount
  exact ⟨v, hv⟩

theorem classify_smallInt_wrapped {n : ℕ} (hmany : 2 ^ 31 ≤ n) (hfew : n < 2 ^ 32) :
    Value.classify standardLayout (smallInt n) = .smi (smallInt n) ((n : ℤ) - 2 ^ 32) := by
  refine classify_of_number hfew ?_
  rw [SmallInt.number, wide_standardLayout.shift_eq, Word.signed, toNat_smallInt hfew,
    if_neg (by rw [UInt64.size]; omega), Int.shiftRight_eq_div_pow, UInt64.size]
  omega

/-- A scope with too many slots for a small integer is not read at all. -/
theorem HasArray.not_yields_get {slots : List UInt64} {i : ℕ} {v : Value}
    (harray : b.HasArray start slots) (hpoisoned : b.memory.poisoned = [])
    (hmany : 2 ^ 31 ≤ slots.length) (hfew : slots.length < 2 ^ 32) :
    ¬ (FixedArray.get (objectAt start) i).Yields b.heap v := by
  intro hv
  -- The number of slots is read as a negative one, and nothing is counted as less than zero.
  have hstorage : standardLayout.storage .fixedArrayLength = .smi :=
    storage_standardLayout rfl rfl (by cbv)
  have hplace : (fieldAt (objectAt start) .fixedArrayLength).Yields b.heap
      ⟨UInt64.ofNat (start + 8)⟩ := yields_fieldAt (value?_standardLayout rfl rfl (by cbv))
  have hread := harray.length.valueAt hpoisoned
  rw [classify_smallInt_wrapped hmany hfew] at hread
  have hlength : (FixedArray.length (objectAt start)).Yields b.heap
      ((slots.length : ℤ) - 2 ^ 32).toNat := by
    refine Yields.bind (hplace.bind ((yields_layout.mpr rfl).bind ?_)) (yields_pure.mpr rfl)
    rw [layout_heap, hstorage]
    exact hread.bind (yields_pure.mpr rfl)
  rw [FixedArray.get, hlength.bind_iff, if_neg (by omega)] at hv
  exact yields_fail hv

theorem not_yields_locals_taken :
    ¬ (Context.locals (value (scopedContext 0 ["a"] none [] none none [0])
        (empty.run [.oddball takenKind])).2).Yields
      (after (scopedContext 0 ["a"] none [] none none [0])
        (empty.run [.oddball takenKind])).heap [("a", .smi 0 0)] := by
  obtain ⟨map, hmap, hnone, hlt, hle⟩ := taken_spec
  have hempty : empty.next = 0x100000 := rfl
  have hsize : UInt64.size = 2 ^ 64 := rfl
  have heven : 2 ∣ (empty.run [.oddball takenKind]).next := even_run sound_empty.even _
  have hpoisoned : (empty.run [.oddball takenKind]).memory.poisoned = [] :=
    (kept_run empty _ (by omega)).poisoned
  generalize empty.run [.oddball takenKind] = b at *
  have hroom := next_scopedContext_le 0 ["a"] none none none [0] b
  have hlengths : ((List.range 0).map fun index => 183 + s!"p{index}".length).sum = 0 ∧
      (["a"].map fun text => 183 + text.length).sum = 184 ∧
      ((none : Option String).toList.map fun text => 183 + text.length).sum = 0 := by decide
  simp only [hlengths, List.length_cons, List.length_nil] at hroom
  obtain ⟨hgrows, scope, context, parts, maps, hvalue, hparameters, hscope, hcontext, htaken, hone,
    -⟩ := scopedContext_spec 0 ["a"] none [] none none [0] heven (by omega)
  rw [hvalue]
  intro hlocals
  obtain ⟨found, hfound, hname⟩ := yields_contextLocalName_zero hlocals
  have hpoisoned' := hgrows.kept.poisoned.trans hpoisoned
  cases hfound.unique (hcontext.yields_scopeInfo hpoisoned' (by decide) hscope.array.even)
  -- The name gets the oddball for its map, and it has no byte where maps tell their type.
  refine hscope.not_yields_contextLocalName hpoisoned' ?_
    (fun other hother => hone hother (htaken hmap)) ?_ hname
  · have hlocals := hscope.locals.length_eq
    rw [parts.length_slots, hparameters, ← hlocals]
    decide
  · rw [hgrows.kept.byte? _ (by omega) (Set.notMem_empty _) (.inl hlt), hnone]

theorem not_yields_functionName_wide :
    ¬ (ScopeInfo.functionName? (value (scopedContext 0 [] (some "不") [] none none []) empty).1
      ).Yields (after (scopedContext 0 [] (some "不") [] none none []) empty).heap (some "不") := by
  have hempty : empty.next = 0x100000 := rfl
  have hsize : UInt64.size = 2 ^ 64 := rfl
  have hroom := next_scopedContext_le 0 [] (some "不") none none [] empty
  have hlengths : ((List.range 0).map fun index => 183 + s!"p{index}".length).sum = 0 ∧
      (([] : List String).map fun text => 183 + text.length).sum = 0 ∧
      ((some "不").toList.map fun text => 183 + text.length).sum = 184 := by decide
  simp only [hlengths, List.length_nil] at hroom
  obtain ⟨hgrows, scope, context, parts, maps, hvalue, hparameters, hscope, -, -, -, hmaps⟩ :=
    scopedContext_spec 0 [] (some "不") [] none none [] sound_empty.even (by omega)
  have hslots : parts.slots.length < 2 ^ 31 := by
    have hlocals := hscope.locals.length_eq
    rw [parts.length_slots, hparameters, ← hlocals]
    decide
  have hread := hscope.yields_functionName hgrows.kept.poisoned hslots fun text htext =>
    ⟨hmaps sound_empty, by cases htext; decide⟩
  rw [hvalue]
  intro hname
  have hkept : ((some "不").map keptText).filter (!·.isEmpty) ≠ some "不" := by decide +kernel
  exact hkept (hread.unique hname)

theorem not_yields_contextLocalCount_many :
    ¬ (ScopeInfo.contextLocalCount (value (scopedContext 0 (List.replicate (2 ^ 30) "") none []
        none none (List.replicate (2 ^ 30) 0)) empty).1).Yields
      (after (scopedContext 0 (List.replicate (2 ^ 30) "") none []
        none none (List.replicate (2 ^ 30) 0)) empty).heap (2 ^ 30) := by
  have hempty : empty.next = 0x100000 := rfl
  have hroom := next_scopedContext_le 0 (List.replicate (2 ^ 30) "") none none none
    (List.replicate (2 ^ 30) 0) empty
  simp only [List.map_replicate, List.sum_replicate_nat, List.length_replicate, List.range_zero,
    List.map_nil, List.sum_nil, Option.toList_none, String.length_empty, hempty] at hroom
  have hfits := hroom.trans (show _ ≤ UInt64.size by decide)
  obtain ⟨hgrows, scope, context, parts, maps, hvalue, hparameters, hscope, -⟩ :=
    scopedContext_spec 0 (List.replicate (2 ^ 30) "") none [] none none (List.replicate (2 ^ 30) 0)
      sound_empty.even hfits
  have hlocals := hscope.locals.length_eq
  rw [List.length_replicate] at hlocals
  have hslots := parts.length_slots
  rw [hvalue]
  show ¬ (ScopeInfo.contextLocalCount (objectAt scope)).Yields _ _
  intro hcount
  obtain ⟨v, hv⟩ := exists_get_of_yields_contextLocalCount hcount
  exact hscope.array.not_yields_get hgrows.kept.poisoned (by omega) (by omega) hv

/-- **Names that are not decoded**: that of a variable whose scope is built after the oddball that
takes the place of the map; one of a function with a character that is no unit of its string; one
that is longer than the decoder reads; and those of more variables than a small integer counts. -/
theorem not_decodes_context :
    ¬ (Context.locals (value (scopedContext 0 ["a"] none [] none none [0])
          (empty.run [.oddball takenKind])).2).Yields
        (after (scopedContext 0 ["a"] none [] none none [0])
          (empty.run [.oddball takenKind])).heap [("a", .smi 0 0)] ∧
      ¬ (ScopeInfo.functionName? (value (scopedContext 0 [] (some "不") [] none none []) empty).1
        ).Yields (after (scopedContext 0 [] (some "不") [] none none []) empty).heap (some "不") ∧
      ¬ (Context.locals (value (scopedContext 0 [longKey] none [] none none [0]) empty).2).Yields
        (after (scopedContext 0 [longKey] none [] none none [0]) empty).heap
        [(longKey, .smi 0 0)] ∧
      ¬ (ScopeInfo.contextLocalCount (value (scopedContext 0 (List.replicate (2 ^ 30) "") none []
          none none (List.replicate (2 ^ 30) 0)) empty).1).Yields
        (after (scopedContext 0 (List.replicate (2 ^ 30) "") none []
          none none (List.replicate (2 ^ 30) 0)) empty).heap (2 ^ 30) := by
  refine ⟨not_yields_locals_taken, not_yields_functionName_wide, fun hlocals => ?_,
    not_yields_contextLocalCount_many⟩
  obtain ⟨scope, -, hname⟩ := yields_contextLocalName_zero hlocals
  have hle := length_le_of_yields_contextLocalName hname
  rw [longKey, String.length_ofList, List.length_replicate] at hle
  exact absurd hle (by omega)

end Postmortem.Synthetic.Builder
