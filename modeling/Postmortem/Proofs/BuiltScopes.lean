/-
Postmortem/Proofs/BuiltScopes.lean

Where a scope that is built by hand stands in the heap, and what is read of it.

A scope is an array of numbers and names, and each name is a string in a block of its
own.  `HasScope` says what stands in these blocks; construction brings it about
(`scopeInfo_spec`) and does not undo it (`HasScope.grows`).  The names are counted
from a start that three numbers in the scope add up to, behind the parameters and
before a word for each variable (`ScopeParts.slots`).

The strings have the map that is remembered for them, whatever that is.  To read the
names it has to be one of one-byte strings (`AreStringMaps`); to read the numbers it
does not matter.
-/
import Postmortem.Proofs.RoundTrip
import Postmortem.Heap.Scope

namespace Postmortem.Synthetic.Builder

open HeapM JsString

variable {b b' : Builder} {start : ℕ} {maps : Set Address}

/-! ### Texts -/

/-- The map of one-byte strings, if there is one yet. -/
def stringMaps (b : Builder) : Set Address :=
  {map | b.shared[InstanceType.oneByteString]? = some map}

/-- What has been taken for the map of strings is taken for it later on. -/
theorem Tidy.stringMaps_subset {α : Type} {x : BuildM α} (hx : Tidy True ∅ x)
    (hnext : (after x b).next ≤ UInt64.size) : b.stringMaps ⊆ (after x b).stringMaps :=
  fun map hmap => (hx.kept_empty b hnext).shared trivial map hmap

/-- A text stands in the heap as a string of one-byte units, which has one of some maps. -/
def HasText (b : Builder) (maps : Set Address) (start : ℕ) (text : String) : Prop :=
  ∃ map ∈ maps, b.HasString start map (latin1Units text)

theorem HasText.grows {text : String} (htext : b.HasText maps start text) (hgrows : Grows b b') :
    b'.HasText maps start text := by
  obtain ⟨map, hmap, hstring⟩ := htext
  exact ⟨map, hmap, hstring.grows hgrows⟩

theorem HasText.mono {maps' : Set Address} {text : String} (htext : b.HasText maps start text)
    (hsub : maps ⊆ maps') : b.HasText maps' start text := by
  obtain ⟨map, hmap, hstring⟩ := htext
  exact ⟨map, hsub hmap, hstring⟩

/-! ### Scopes -/

/-- Where the strings of a scope start; the last list is empty or tells of the function. -/
structure ScopeParts where
  parameters : List ℕ
  locals : List ℕ
  name : List ℕ

namespace ScopeParts

/-- The slots of the scope itself: four numbers, the names, a word for each variable, and the name
of the function. -/
def slots (parts : ScopeParts) : List UInt64 :=
  [smallInt 0, smallInt parts.parameters.length, smallInt 0, smallInt parts.locals.length] ++
    (parts.parameters.map fun string => (objectAt string).word) ++
    (parts.locals.map fun string => (objectAt string).word) ++
    (parts.locals.map fun _ => smallInt 0) ++
    [(parts.name.head?.map fun string => (objectAt string).word).getD (smallInt 0)]

theorem length_slots (parts : ScopeParts) :
    parts.slots.length = 5 + parts.parameters.length + 2 * parts.locals.length := by
  simp only [slots, List.length_append, List.length_map, List.length_cons, List.length_nil]
  omega

/-- Where the name of a variable is. -/
theorem getElem?_slots_local {parts : ScopeParts} {i string : ℕ}
    (hstring : parts.locals[i]? = some string) :
    parts.slots[4 + parts.parameters.length + i]? = some (objectAt string).word := by
  have hi := (List.getElem?_eq_some_iff.mp hstring).1
  unfold slots
  rw [List.getElem?_append_left, List.getElem?_append_left, List.getElem?_append_right]
  all_goals simp only [List.length_append, List.length_map, List.length_cons, List.length_nil]
  · rw [show 4 + parts.parameters.length + i - (0 + 1 + 1 + 1 + 1 + parts.parameters.length) = i by
      omega, List.getElem?_map, hstring, Option.map_some]
  all_goals omega

/-- Where the name of the function is. -/
theorem getElem?_slots_name (parts : ScopeParts) :
    parts.slots[4 + parts.parameters.length + 2 * parts.locals.length]? =
      some ((parts.name.head?.map fun string => (objectAt string).word).getD (smallInt 0)) := by
  unfold slots
  rw [List.getElem?_append_right]
  all_goals simp only [List.length_append, List.length_map, List.length_cons, List.length_nil]
  · rw [show 4 + parts.parameters.length + 2 * parts.locals.length - (0 + 1 + 1 + 1 + 1 +
      parts.parameters.length + parts.locals.length + parts.locals.length) = 0 by omega]
    rfl
  · omega

end ScopeParts

/-- A scope with all its parts stands in the heap. -/
structure HasScope (b : Builder) (maps : Set Address) (start : ℕ) (locals : List String)
    (name : Option String) (parts : ScopeParts) : Prop where
  array : b.HasArray start parts.slots
  locals : List.Forall₂ (fun text string => b.HasText maps string text) locals parts.locals
  name : List.Forall₂ (fun text string => b.HasText maps string text) name.toList parts.name

theorem HasScope.grows {locals : List String} {name : Option String} {parts : ScopeParts}
    (hscope : b.HasScope maps start locals name parts) (hgrows : Grows b b') :
    b'.HasScope maps start locals name parts where
  array := hscope.array.grows hgrows
  locals := hscope.locals.imp fun _ _ htext => htext.grows hgrows
  name := hscope.name.imp fun _ _ htext => htext.grows hgrows

/-- Builds a scope whose names are there. -/
def assembleScope (count : ℕ) (locals : List String)
    (parameterNames localNames functionName : List Address) : BuildM Address :=
  arrayOfType InstanceType.scopeInfo
    ([smallInt 0, smallInt count, smallInt 0, smallInt locals.length]
      ++ parameterNames.map Address.word ++ localNames.map Address.word
      ++ locals.map (fun _ => smallInt 0)
      ++ [(functionName.head?.map Address.word).getD (smallInt 0)])

theorem scopeInfo_eq (count : ℕ) (locals : List String) (name : Option String) :
    scopeInfo count locals name = (do
      let parameterNames ← (List.range count).mapM fun index => oneByteString s!"p{index}"
      let localNames ← locals.mapM fun text => oneByteString text
      let functionName ← name.toList.mapM fun text => oneByteString text
      assembleScope count locals parameterNames localNames functionName) := by
  unfold scopeInfo assembleScope
  rw [Int.toNat_natCast]
  cases name with
  | none => rfl
  | some name =>
    simp only [Option.toList_some, List.mapM_cons, List.mapM_nil, bind_assoc, pure_bind,
      List.head?_cons, Option.map_some, Option.getD_some]

theorem assembleScope_eq {count : ℕ} {locals : List String} (parts : ScopeParts)
    (hcount : parts.parameters.length = count) (hlocals : parts.locals.length = locals.length) :
    assembleScope count locals (parts.parameters.map objectAt) (parts.locals.map objectAt)
      (parts.name.map objectAt) = arrayOfType InstanceType.scopeInfo parts.slots := by
  unfold assembleScope ScopeParts.slots
  rw [hcount, hlocals, List.map_const', List.map_const', hlocals, List.map_map, List.map_map,
    List.head?_map, Option.map_map]
  rfl

/-- **A scope stands in the heap** when it has been built, with all its names; they have the map
that is remembered. -/
theorem scopeInfo_spec (count : ℕ) (locals : List String) (name : Option String)
    (heven : 2 ∣ b.next) (hnext : (after (scopeInfo count locals name) b).next ≤ UInt64.size) :
    ∃ start parts, value (scopeInfo count locals name) b = objectAt start ∧
      parts.parameters.length = count ∧
      HasScope (after (scopeInfo count locals name) b)
        (after (scopeInfo count locals name) b).stringMaps start locals name parts := by
  have htexts (watched : Prop) {γ : Type} (text : γ → String) (items : List γ) :
      Tidy watched ∅ (items.mapM fun item => oneByteString (text item)) :=
    Account.tidy (.mapM items fun item => .oneByteString _)
  have hparameters := htexts False (fun index : ℕ => s!"p{index}") (List.range count)
  have hlocals (watched : Prop) := htexts watched (fun text => text) locals
  have hname (watched : Prop) := htexts watched (fun text => text) name.toList
  have hassemble (watched : Prop) (ps ls ns : List Address) :
      Tidy watched ∅ (assembleScope count locals ps ls ns) := Account.tidy (.arrayOfType ..)
  rw [scopeInfo_eq] at hnext ⊢
  -- What each step brings about is kept by the steps behind it.
  obtain ⟨hgrows₁, hgrows⟩ := hparameters.grows_bind (fun ps =>
    (hlocals False).bind fun ls => (hname False).bind fun ns => hassemble False ps ls ns) hnext
  obtain ⟨hgrows₂, hgrows⟩ := (hlocals False).grows_bind (fun ls =>
    (hname False).bind fun ns => hassemble False _ ls ns) hgrows.fits
  obtain ⟨hgrows₃, hgrows⟩ := (hname False).grows_bind (fun ns => hassemble False _ _ ns)
    hgrows.fits
  rw [after_bind, after_bind, after_bind, value_bind, value_bind, value_bind]
  obtain ⟨ps, hps, hparameterTexts⟩ := strings_spec (fun index : ℕ => s!"p{index}")
    (List.range count) heven hgrows₁.fits
  obtain ⟨ls, hls, hlocalTexts⟩ := strings_spec (fun text => text) locals
    (hparameters.even heven) hgrows₂.fits
  obtain ⟨ns, hns, hnameTexts⟩ := strings_spec (fun text => text) name.toList
    ((hlocals False).even (hparameters.even heven)) hgrows₃.fits
  have hmaps₃ := (hname True).stringMaps_subset hgrows₃.fits
  have hmaps := (hassemble True _ _ _).stringMaps_subset hgrows.fits
  rw [hps, hls, hns] at hgrows hmaps ⊢
  have hcount : ps.length = count := by
    rw [← hparameterTexts.length_eq, List.length_range]
  have hassembled := assembleScope_eq ⟨ps, ls, ns⟩ hcount hlocalTexts.length_eq.symm
  rw [hassembled] at hgrows hmaps ⊢
  obtain ⟨start, hvalue, -, harray⟩ := arrayOfType_spec InstanceType.scopeInfo
    (ScopeParts.slots ⟨ps, ls, ns⟩)
    ((hname False).even ((hlocals False).even (hparameters.even heven))) hgrows.fits
  refine ⟨start, ⟨ps, ls, ns⟩, hvalue, hcount, harray, ?_, ?_⟩
  · exact hlocalTexts.imp fun text string htext =>
      ((HasText.mono htext (hmaps₃.trans hmaps)).grows hgrows₃).grows hgrows
  · exact hnameTexts.imp fun text string htext => (HasText.mono htext hmaps).grows hgrows

/-! ### Reading -/

/-- A text as a string of one-byte units keeps it. -/
def keptText (text : String) : String := Utf16.decode (wideUnits (latin1Units text))

/-- A text that can be read back from a string of one-byte units. -/
structure IsReadable (text : String) : Prop where
  latin1 : ∀ c ∈ text.toList, c.toNat < 256
  short : text.length ≤ maxStringUnits

/-- All of some maps are maps of one-byte strings. -/
def AreStringMaps (b : Builder) (maps : Set Address) : Prop :=
  ∀ map ∈ maps, IsStringMap ∅ b map

theorem HasText.yields_textOf {text : String} (htext : b.HasText maps start text)
    (hmaps : b.AreStringMaps maps) (hpoisoned : b.memory.poisoned = [])
    (hshort : text.length ≤ maxStringUnits) :
    (JsString.textOf? (.heap (objectAt start))).Yields b.heap (some (keptText text)) := by
  obtain ⟨map, hmem, hstring⟩ := htext
  have hmap := hmaps map hmem
  have hread := hstring.yields_text hmap hpoisoned (length_latin1Units text ▸ hshort)
  unfold JsString.textOf?
  rw [(hstring.yields_isString hmap hpoisoned).bind_iff, if_pos rfl]
  exact hread.bind (yields_pure.mpr rfl)

section

variable {slots : List UInt64} {i n : ℕ} {w : UInt64} {c : Constant}
  (harray : b.HasArray start slots) (hpoisoned : b.memory.poisoned = [])
  (hfew : slots.length < 2 ^ 31)
include harray hpoisoned hfew

theorem HasArray.yields_getInt (fault : ℤ → ShapeFault) (hw : slots[i]? = some w) :
    (FixedArray.getInt (objectAt start) i fault).Yields b.heap (.classify standardLayout w) := by
  rw [FixedArray.getInt, if_neg (by omega), Int.toNat_natCast]
  exact harray.yields_get hpoisoned hfew hw

theorem HasArray.yields_number (hc : standardLayout.value? c = some (i : ℤ)) (hn : n < 2 ^ 31)
    (hslot : slots[i]? = some (smallInt n)) :
    (ScopeInfo.number (objectAt start) c).Yields b.heap n := by
  have hhas : standardLayout.has c = true := by
    rw [Layout.has, hc]
    rfl
  have hindex : (constant c).Yields b.heap (i : ℤ) := yields_constant.mpr hc
  have hread := harray.yields_getInt hpoisoned hfew (fun _ => .negativeScopeSlot) hslot
  rw [classify_smallInt hn] at hread
  unfold ScopeInfo.number
  rw [(yields_layout.mpr (layout_heap b)).bind_iff, if_pos hhas]
  exact hindex.bind (hread.bind (yields_pure.mpr rfl))

theorem HasArray.yields_textAt {string : ℕ} {text : String}
    (htext : b.HasText maps string text) (hmaps : b.AreStringMaps maps)
    (hshort : text.length ≤ maxStringUnits) (hslot : slots[i]? = some (objectAt string).word) :
    (ScopeInfo.textAt? (objectAt start) i).Yields b.heap (some (keptText text)) := by
  have hread := harray.yields_getInt hpoisoned hfew .scopeSlot hslot
  have heven : 2 ∣ string := htext.elim fun _ hstring => hstring.2.even
  rw [classify_objectAt heven] at hread
  exact hread.bind (htext.yields_textOf hmaps hpoisoned hshort)

/-- What the slot that a constant gives holds. -/
theorem HasArray.yields_contextSlot (hc : standardLayout.value? c = some (i : ℤ))
    (hw : slots[i]? = some w) :
    (Context.get (objectAt start) c).Yields b.heap (.classify standardLayout w) := by
  have hindex : (constant c).Yields b.heap (i : ℤ) := yields_constant.mpr hc
  exact hindex.bind (harray.yields_getInt hpoisoned hfew _ hw)

end

section

variable {parts : ScopeParts} (harray : b.HasArray start parts.slots)
  (hpoisoned : b.memory.poisoned = []) (hfew : parts.slots.length < 2 ^ 31)
include harray hpoisoned hfew

theorem HasArray.yields_parameterCount :
    (ScopeInfo.parameterCount (objectAt start)).Yields b.heap parts.parameters.length := by
  have hlength := parts.length_slots
  exact harray.yields_number (i := 1) hpoisoned hfew (value?_standardLayout rfl rfl (by cbv))
    (by omega) rfl

theorem HasArray.yields_contextLocalCount :
    (ScopeInfo.contextLocalCount (objectAt start)).Yields b.heap parts.locals.length := by
  have hlength := parts.length_slots
  exact harray.yields_number (i := 3) hpoisoned hfew (value?_standardLayout rfl rfl (by cbv))
    (by omega) rfl

theorem HasArray.yields_namesStart :
    (ScopeInfo.namesStart (objectAt start)).Yields b.heap
      ((4 + parts.parameters.length : ℕ) : ℤ) := by
  have hstart : (constant .scopeVariablePart).Yields b.heap 4 :=
    yields_constant.mpr (value?_standardLayout rfl rfl (by cbv))
  have hstack : (ScopeInfo.stackLocalCount (objectAt start)).Yields b.heap (0 : ℕ) :=
    harray.yields_number (i := 2) hpoisoned hfew (value?_standardLayout rfl rfl (by cbv))
      (by decide) rfl
  have hembeds : standardLayout.embedsStackLocals = true :=
    has_standardLayout rfl rfl (by cbv)
  unfold ScopeInfo.namesStart
  rw [hstart.bind_iff, (yields_layout.mpr (layout_heap b)).bind_iff, if_pos hembeds]
  exact (harray.yields_parameterCount hpoisoned hfew).bind (hstack.bind (yields_pure.mpr
    (by push_cast; omega)))

end

namespace HasScope

variable {locals : List String} {name : Option String} {parts : ScopeParts}
  (hscope : b.HasScope maps start locals name parts) (hpoisoned : b.memory.poisoned = [])
  (hfew : parts.slots.length < 2 ^ 31)
include hscope hpoisoned hfew

theorem yields_contextLocalName {i : ℕ} {text : String} (htext : locals[i]? = some text)
    (hmaps : b.AreStringMaps maps) (hreadable : IsReadable text) :
    (ScopeInfo.contextLocalName (objectAt start) i).Yields b.heap text := by
  obtain ⟨hi, rfl⟩ := List.getElem?_eq_some_iff.mp htext
  obtain ⟨hlength, hget⟩ := List.forall₂_iff_get.mp hscope.locals
  have hstring : b.HasText maps parts.locals[i] locals[i] := hget i hi (hlength ▸ hi)
  have hread := hscope.array.yields_textAt hpoisoned hfew hstring hmaps hreadable.short
    (ScopeParts.getElem?_slots_local (List.getElem?_eq_getElem (hlength ▸ hi)))
  rw [keptText, decode_latin1Units hreadable.latin1, Nat.cast_add] at hread
  exact (hscope.array.yields_namesStart hpoisoned hfew).bind (hread.bind (yields_pure.mpr rfl))

/-- The name of the function is found where the scope ends, as a string keeps it. -/
theorem yields_functionName
    (hlegible : ∀ text ∈ name, b.AreStringMaps maps ∧ text.length ≤ maxStringUnits) :
    (ScopeInfo.functionName? (objectAt start)).Yields b.heap
      ((name.map keptText).filter (!·.isEmpty)) := by
  have hlength := parts.length_slots
  have hslot := parts.getElem?_slots_name
  -- The last slot of the scope is behind two slots for each variable.
  have htext : (ScopeInfo.textAt? (objectAt start)
      ((4 + parts.parameters.length + 2 * parts.locals.length : ℕ) : ℤ)).Yields b.heap
      (name.map keptText) := by
    cases name with
    | none =>
      have hnone : parts.name = [] := by simpa using hscope.name
      rw [hnone] at hslot
      have hread := hscope.array.yields_getInt hpoisoned hfew .scopeSlot hslot
      have hzero : Value.classify standardLayout (smallInt 0) = .smi (smallInt 0) 0 :=
        classify_smallInt (n := 0) (by decide)
      rw [List.head?_nil, Option.map_none, Option.getD_none, hzero] at hread
      exact hread.bind (yields_pure.mpr rfl)
    | some text =>
      obtain ⟨hmaps, hshort⟩ := hlegible text rfl
      obtain ⟨string, rest, hstring, -, hname⟩ := List.forall₂_cons_left_iff.mp hscope.name
      rw [hname] at hslot
      exact hscope.array.yields_textAt hpoisoned hfew hstring hmaps hshort hslot
  refine (hscope.array.yields_namesStart hpoisoned hfew).bind
    ((hscope.array.yields_contextLocalCount hpoisoned hfew).bind
      ((hscope.array.yields_length hpoisoned hfew).bind ?_))
  rw [if_pos (by omega)]
  have hindex : ((4 + parts.parameters.length : ℕ) : ℤ) + 2 * parts.locals.length =
    ((4 + parts.parameters.length + 2 * parts.locals.length : ℕ) : ℤ) := by push_cast; rfl
  rw [hindex]
  exact htext.bind (yields_pure.mpr rfl)

end HasScope

end Postmortem.Synthetic.Builder
