/-
Postmortem/Proofs/BuiltObjects.lean

Where an object that is built by hand stands in the heap.

Such an object is spread over several blocks: a string for each key, the descriptors,
a map of its own, the object itself, and an empty array for what it does not have.
`HasObject` says what stands in these blocks and where they are.  It is the middle
between construction, which brings it about (`object_spec`) and does not undo it
(`HasObject.grows`), and decoding, which needs nothing else but that the map which
the keys share is one of one-byte strings.  In a sound heap it is (`Sound`).
-/
import Mathlib.Algebra.GroupWithZero.Nat
import Postmortem.Proofs.Construction

namespace Postmortem.Synthetic.Builder

variable {α β : Type} {watched : Prop} {b b' : Builder} {start size : ℕ}

/-! ### Growing heaps -/

/-- Blocks were added to a heap, and nothing else has changed. -/
structure Grows (b b' : Builder) : Prop where
  next_le : b.next ≤ b'.next
  fits : b'.next ≤ UInt64.size
  kept : Kept False ∅ b b'

theorem Grows.trans {b'' : Builder} (hgrows : Grows b b') (hgrows' : Grows b' b'') : Grows b b'' :=
  ⟨hgrows.next_le.trans hgrows'.next_le, hgrows'.fits,
    hgrows.kept.trans hgrows'.kept hgrows.next_le hgrows'.next_le⟩

theorem Tidy.grows {x : BuildM α} (hx : Tidy False ∅ x) (b : Builder)
    (hnext : (after x b).next ≤ UInt64.size) : Grows b (after x b) :=
  ⟨hx.next_le b, hnext, hx.kept_empty b hnext⟩

/-- What is done in two steps adds blocks twice. -/
theorem Tidy.grows_bind {x : BuildM α} {f : α → BuildM β} (hx : Tidy False ∅ x)
    (hf : ∀ a, Tidy False ∅ (f a)) (hnext : (after (x >>= f) b).next ≤ UInt64.size) :
    Grows b (after x b) ∧ Grows (after x b) (after (f (value x b)) (after x b)) := by
  have hle := (hf (value x b)).next_le (after x b)
  exact ⟨hx.grows b (hle.trans hnext), (hf _).grows _ hnext⟩

theorem grows_run (b : Builder) (steps : List Step) (hnext : (b.run steps).next ≤ UInt64.size) :
    Grows b (b.run steps) :=
  ⟨next_le_run b steps, hnext, kept_run b steps hnext⟩

theorem Has.grows {data : List UInt8} (hhas : b.Has start data) (hgrows : Grows b b') :
    b'.Has start data :=
  hhas.kept hgrows.kept hgrows.next_le (hgrows.next_le.trans hgrows.fits)
    fun k hk => absurd hk (Set.notMem_empty k)

theorem Tidy.even {own : Set ℕ} {x : BuildM α} (hx : Tidy watched own x) (heven : 2 ∣ b.next) :
    2 ∣ (after x b).next := by
  obtain ⟨n, hn⟩ := hx.next b
  omega

/-- A heap without poison whose blocks start at even places, and where nothing but a map of
one-byte strings is taken for one. -/
structure Sound (b : Builder) : Prop where
  even : 2 ∣ b.next
  poisoned : b.memory.poisoned = []
  shares : SharesStringMap ∅ b

theorem sound_empty : Sound empty :=
  ⟨by decide, rfl, fun map hmap => by simp [empty] at hmap⟩

theorem Tidy.sound {x : BuildM α} (hx : Tidy True ∅ x) (hsound : b.Sound)
    (hnext : (after x b).next ≤ UInt64.size) : (after x b).Sound := by
  have hkept := hx.kept_empty b hnext
  exact ⟨hx.even hsound.even, hkept.poisoned.trans hsound.poisoned,
    hkept.strings trivial hsound.shares⟩

theorem even_run (heven : 2 ∣ b.next) (steps : List Step) : 2 ∣ (b.run steps).next := by
  induction steps generalizing b with
  | nil => exact heven
  | cons step steps ih =>
    exact ih ((account step).tidy.even heven)

theorem Sound.run {steps : List Step} (hsound : b.Sound) (hkeeps : KeepsStringMap b steps)
    (hnext : (b.run steps).next ≤ UInt64.size) : (b.run steps).Sound :=
  ⟨even_run hsound.even steps, (kept_run b steps hnext).poisoned.trans hsound.poisoned,
    sharesStringMap_run hkeeps hnext hsound.shares⟩

theorem IsStringMap.grows {map : Address} (hmap : IsStringMap ∅ b map) (hgrows : Grows b b') :
    IsStringMap ∅ b' map := by
  obtain ⟨start, rfl, hhas, hapart⟩ := hmap
  exact ⟨start, rfl, hhas.grows hgrows, hapart⟩

/-! ### Words in a row -/

/-- Words stand one behind the other. -/
def HasWords (b : Builder) (start : ℕ) (words : List UInt64) : Prop :=
  ∀ i w, words[i]? = some w → b.Has (start + 8 * i) (Word.toBytes 8 w.toNat)

/-- The pieces that words in a row are written in. -/
def wordPieces : ℕ → List UInt64 → List (ℕ × List UInt8)
  | _, [] => []
  | offset, w :: ws => (offset, Word.toBytes 8 w.toNat) :: wordPieces (offset + 8) ws

theorem after_setWords (start offset : ℕ) (words : List UInt64) (b : Builder) :
    after (setWords (objectAt start) offset words) b = b.fill start (wordPieces offset words) := by
  induction words generalizing offset b with
  | nil => rfl
  | cons w ws ih =>
    have hnext : (offset : ℤ) + 8 = ((offset + 8 : ℕ) : ℤ) := rfl
    rw [setWords, after_bind, after_setWord (Int.natCast_nonneg offset), Int.toNat_natCast, hnext,
      ih, wordPieces, fill_cons]

theorem le_of_mem_wordPieces {offset : ℕ} {words : List UInt64} :
    ∀ p ∈ wordPieces offset words, offset ≤ p.1 := by
  induction words generalizing offset with
  | nil => exact fun p hp => absurd hp List.not_mem_nil
  | cons w ws ih =>
    intro p hp
    rcases List.mem_cons.mp hp with rfl | hp
    · exact le_rfl
    · exact (Nat.le_add_right offset 8).trans (ih p hp)

theorem fit_wordPieces {offset : ℕ} {words : List UInt64}
    (hfits : offset + 8 * words.length ≤ size) : Fit size (wordPieces offset words) := by
  induction words generalizing offset with
  | nil => exact ⟨.nil, fun p hp => absurd hp List.not_mem_nil⟩
  | cons w ws ih =>
    rw [List.length_cons] at hfits
    have hlength := Word.length_toBytes 8 w.toNat
    refine .cons (by dsimp only; omega) (fun p hp => ?_) (ih (by omega))
    have hle := le_of_mem_wordPieces p hp
    dsimp only
    omega

theorem mem_wordPieces {offset i : ℕ} {words : List UInt64} {w : UInt64} (hw : words[i]? = some w) :
    (offset + 8 * i, Word.toBytes 8 w.toNat) ∈ wordPieces offset words := by
  induction words generalizing offset i with
  | nil => cases hw
  | cons w' ws ih =>
    rcases i with - | i
    · cases hw
      exact List.mem_cons_self ..
    · rw [List.getElem?_cons_succ] at hw
      have hmem : (offset + 8 + 8 * i, Word.toBytes 8 w.toNat) ∈ wordPieces (offset + 8) ws := ih hw
      rw [show offset + 8 * (i + 1) = offset + 8 + 8 * i by omega]
      exact List.mem_cons_of_mem _ hmem

theorem HasWords.grows {words : List UInt64} (hwords : b.HasWords start words)
    (hgrows : Grows b b') :
    b'.HasWords start words :=
  fun i w hw => (hwords i w hw).grows hgrows

/-! ### Objects of a type -/

/-- An array: how many slots it has, and what they hold. -/
structure HasArray (b : Builder) (start : ℕ) (slots : List UInt64) : Prop where
  even : 2 ∣ start
  length : b.Has (start + 8) (Word.toBytes 8 (smallInt slots.length).toNat)
  slots : b.HasWords (start + 16) slots

theorem HasArray.grows {slots : List UInt64} (harray : b.HasArray start slots)
    (hgrows : Grows b b') :
    b'.HasArray start slots :=
  ⟨harray.even, harray.length.grows hgrows, harray.slots.grows hgrows⟩

/-- The pieces that an array is written in. -/
def arrayPieces (map : Address) (slots : List UInt64) : List (ℕ × List UInt8) :=
  (0, Word.toBytes 8 map.word.toNat) :: (8, Word.toBytes 8 (smallInt slots.length).toNat) ::
    wordPieces 16 slots

theorem fit_arrayPieces (map : Address) (slots : List UInt64) :
    Fit (16 + 8 * slots.length) (arrayPieces map slots) := by
  have hlength (w : UInt64) : (Word.toBytes 8 w.toNat).length = 8 := Word.length_toBytes 8 _
  have hwords : Fit (16 + 8 * slots.length) (wordPieces 16 slots) := fit_wordPieces le_rfl
  refine .cons ?_ ?_ (.cons ?_ ?_ hwords)
  · rw [hlength]
    omega
  · rw [hlength, List.forall_mem_cons]
    refine ⟨le_rfl, fun p hp => ?_⟩
    have hle := le_of_mem_wordPieces p hp
    dsimp only
    omega
  · rw [hlength]
    omega
  · rw [hlength]
    exact le_of_mem_wordPieces

theorem after_arrayOfType (type : ℤ) (slots : List UInt64) (b : Builder) :
    after (arrayOfType type slots) b =
      ((after (map type) b).reserve (16 + 8 * slots.length)).fill (after (map type) b).next
        (arrayPieces (value (map type) b) slots) := by
  unfold arrayOfType
  rw [after_bind, after_bind, after_bind, after_pure, value_allocTyped, after_allocTyped,
    after_setWord (by decide), arrayPieces, fill_cons, fill_cons]
  exact after_setWords _ 16 slots _

theorem arrayOfType_spec (type : ℤ) (slots : List UInt64) (heven : 2 ∣ b.next)
    (hnext : (after (arrayOfType type slots) b).next ≤ UInt64.size) :
    ∃ start, value (arrayOfType type slots) b = objectAt start ∧ b.next ≤ start ∧
      HasArray (after (arrayOfType type slots) b) start slots := by
  have hmap : Tidy False ∅ (map type) := Account.tidy (.map type)
  refine ⟨(after (map type) b).next, rfl, hmap.next_le b, ?_⟩
  rw [after_arrayOfType, next_fill] at hnext
  have hhas := has_fill_reserve (fit_arrayPieces (value (map type) b) slots) hnext
  rw [after_arrayOfType]
  obtain ⟨-, hlength, hwords⟩ := by
    simpa only [arrayPieces, List.forall_mem_cons] using hhas
  refine ⟨hmap.even heven, hlength, fun i w hw => ?_⟩
  have hword := hwords _ (mem_wordPieces hw)
  rwa [← Nat.add_assoc] at hword

/-! ### Strings -/

/-- The units of a text that has no others. -/
def latin1Units (text : String) : List UInt8 := text.toList.map fun c => UInt8.ofNat c.toNat

theorem length_latin1Units (text : String) : (latin1Units text).length = text.length := by
  rw [latin1Units, List.length_map, String.length_toList]

/-- A string of one-byte units, and its map. -/
structure HasString (b : Builder) (start : ℕ) (map : Address) (units : List UInt8) : Prop where
  even : 2 ∣ start
  map : b.Has start (Word.toBytes 8 map.word.toNat)
  length : b.Has (start + 12) (numberBytes 4 units.length)
  units : b.Has (start + 16) units

theorem HasString.grows {map : Address} {units : List UInt8} (hstring : b.HasString start map units)
    (hgrows : Grows b b') : b'.HasString start map units :=
  ⟨hstring.even, hstring.map.grows hgrows, hstring.length.grows hgrows, hstring.units.grows hgrows⟩

/-- The pieces that a string is written in. -/
def stringPieces (map : Address) (units : List UInt8) : List (ℕ × List UInt8) :=
  [(0, Word.toBytes 8 map.word.toNat), (12, numberBytes 4 units.length), (16, units)]

theorem fit_stringPieces (map : Address) (units : List UInt8) :
    Fit (16 + units.length) (stringPieces map units) := by
  constructor <;> simp [stringPieces, Word.length_toBytes]
  omega

theorem after_oneByteString (text : String) (b : Builder) :
    after (oneByteString text) b =
      ((after (map InstanceType.oneByteString) b).reserve (16 + (latin1Units text).length)).fill
        (after (map InstanceType.oneByteString) b).next
        (stringPieces (value (map InstanceType.oneByteString) b) (latin1Units text)) := by
  unfold oneByteString
  rw [after_bind, after_bind, after_bind, after_pure, value_allocTyped, after_allocTyped,
    after_setBytes (by decide), after_setBytes (by decide)]
  rfl

theorem oneByteString_spec (text : String) (heven : 2 ∣ b.next)
    (hnext : (after (oneByteString text) b).next ≤ UInt64.size) :
    ∃ start map, value (oneByteString text) b = objectAt start ∧
      (after (oneByteString text) b).shared[InstanceType.oneByteString]? = some map ∧
      HasString (after (oneByteString text) b) start map (latin1Units text) := by
  have hmap : Tidy False ∅ (map InstanceType.oneByteString) := Account.tidy (.map _)
  rw [after_oneByteString, next_fill] at hnext
  have hhas := has_fill_reserve (fit_stringPieces (value (map InstanceType.oneByteString) b)
    (latin1Units text)) hnext
  refine ⟨_, value (map InstanceType.oneByteString) b, rfl, ?_⟩
  rw [after_oneByteString]
  obtain ⟨hword, hlength, hunits, -⟩ := by
    simpa only [stringPieces, List.forall_mem_cons] using hhas
  refine ⟨?_, hmap.even heven, hword, hlength, hunits⟩
  rw [shared_fill, shared_reserve, shared_map]

/-- Strings that are made one after the other share their map. -/
theorem strings_spec {γ : Type} (text : γ → String) (items : List γ) (heven : 2 ∣ b.next)
    (hnext : (after (items.mapM fun item => oneByteString (text item)) b).next ≤ UInt64.size) :
    ∃ strings : List ℕ,
      value (items.mapM fun item => oneByteString (text item)) b = strings.map objectAt ∧
      List.Forall₂ (fun item string => ∃ map,
        (after (items.mapM fun item => oneByteString (text item)) b).shared[
          InstanceType.oneByteString]? = some map ∧
        HasString (after (items.mapM fun item => oneByteString (text item)) b) string map
          (latin1Units (text item))) items strings := by
  induction items generalizing b with
  | nil => exact ⟨[], rfl, .nil⟩
  | cons item items ih =>
    have hfirst : Tidy False ∅ (oneByteString (text item)) := Account.tidy (.oneByteString _)
    have hrest (watched : Prop) :
        Tidy watched ∅ (items.mapM fun item => oneByteString (text item)) :=
      Account.tidy (.mapM items fun item => .oneByteString _)
    rw [List.mapM_cons] at hnext ⊢
    rw [after_bind, after_bind, after_pure] at hnext ⊢
    -- The strings behind the first keep it, and the map that it was given.
    have hgrows := (hrest False).grows _ hnext
    have hkept := (hrest True).kept_empty _ hnext
    have hfits := hgrows.next_le.trans hnext
    obtain ⟨string, map, hvalue, hmap, hstring⟩ := oneByteString_spec (text item) heven hfits
    obtain ⟨strings, hvalues, hstrings⟩ := ih (hfirst.even heven) hnext
    refine ⟨string :: strings, ?_, .cons ⟨map, ?_, ?_⟩ hstrings⟩
    · rw [value_bind, value_bind, value_pure, hvalue, hvalues]
      rfl
    · exact hkept.shared trivial map hmap
    · exact hstring.grows hgrows

/-! ### Objects -/

/-- The slots of the descriptors of an object with the given keys. -/
def descriptorSlots (keys : List ℕ) : List UInt64 :=
  smallInt keys.length :: smallInt 0 :: keys.zipIdx.flatMap fun (key, index) =>
    [(objectAt key).word, smallInt 0, smallInt (fieldDetails index)]

/-- Where the parts of an object start that lie in blocks of their own, and the map of its keys. -/
structure Parts where
  map : ℕ
  descriptors : ℕ
  empty : ℕ
  keys : List ℕ
  stringMap : Address

/-- The map of objects with so many properties inside. -/
def Parts.mapContents (parts : Parts) (count : ℕ) : MapContents :=
  ⟨InstanceType.jsObject, 3 + count, count, some (objectAt parts.descriptors, count), smallInt 0⟩

/-- An object with its properties inside, and all its parts. -/
structure HasObject (b : Builder) (start : ℕ) (properties : List (String × UInt64))
    (parts : Parts) : Prop where
  map : b.Has start (Word.toBytes 8 (objectAt parts.map).word.toNat)
  outside : b.Has (start + 8) (Word.toBytes 8 (objectAt parts.empty).word.toNat)
  elements : b.Has (start + 16) (Word.toBytes 8 (objectAt parts.empty).word.toNat)
  values : b.HasWords (start + 24) (properties.map (·.2))
  hasMap : b.HasMap parts.map (parts.mapContents properties.length)
  descriptors : b.HasArray parts.descriptors (descriptorSlots parts.keys)
  empty : b.HasArray parts.empty []
  keys : List.Forall₂ (fun property key =>
    b.HasString key parts.stringMap (latin1Units property.1)) properties parts.keys

theorem HasMap.grows {m : MapContents} (hmap : b.HasMap start m) (hgrows : Grows b b') :
    b'.HasMap start m :=
  ⟨hmap.size.grows hgrows, hmap.type.grows hgrows,
    hmap.bitField3.grows hgrows, hmap.descriptors.grows hgrows⟩

/-- Nothing of an object goes away. -/
theorem HasObject.grows {properties : List (String × UInt64)} {parts : Parts}
    (hobject : b.HasObject start properties parts) (hgrows : Grows b b') :
    b'.HasObject start properties parts where
  map := hobject.map.grows hgrows
  outside := hobject.outside.grows hgrows
  elements := hobject.elements.grows hgrows
  values := hobject.values.grows hgrows
  hasMap := hobject.hasMap.grows hgrows
  descriptors := hobject.descriptors.grows hgrows
  empty := hobject.empty.grows hgrows
  keys := hobject.keys.imp fun _ _ hstring => hstring.grows hgrows

/-- Builds an object of some words, once its map is there. -/
def placeObject (size : ℕ) (map : Address) (words : List UInt64) : BuildM Address := do
  let object ← alloc size
  initObject object map
  setWords object 24 words
  pure object

theorem tidy_placeObject {words : List UInt64} (hsize : 24 + 8 * words.length ≤ size)
    (map : Address) : Tidy watched ∅ (placeObject size map words) :=
  Account.tidy <|
  .alloc size fun _ =>
  .bind (.initObject (List.mem_cons_self ..) map (by omega)) fun _ =>
  .bind (.setWords (List.mem_cons_self ..) words (by decide) (by omega)) fun _ =>
  .pure _

/-- The pieces that the object itself is written in. -/
def objectPieces (map empty : Address) (words : List UInt64) : List (ℕ × List UInt8) :=
  (0, Word.toBytes 8 map.word.toNat) :: (8, Word.toBytes 8 empty.word.toNat) ::
    (16, Word.toBytes 8 empty.word.toNat) :: wordPieces 24 words

theorem fit_objectPieces (map empty : Address) {words : List UInt64}
    (hsize : 24 + 8 * words.length ≤ size) : Fit size (objectPieces map empty words) := by
  have hlength (w : UInt64) : (Word.toBytes 8 w.toNat).length = 8 := Word.length_toBytes 8 _
  have hwords : Fit size (wordPieces 24 words) := fit_wordPieces hsize
  have hbehind {n : ℕ} (hn : n ≤ 24) (p) (hp : p ∈ wordPieces 24 words) : n ≤ p.1 :=
    hn.trans (le_of_mem_wordPieces p hp)
  -- The head takes 24 bytes, and each piece of it is before those that follow.
  refine .cons ?_ ?_ (.cons ?_ ?_ (.cons ?_ ?_ hwords))
  all_goals rw [hlength]; dsimp only
  · omega
  · rw [List.forall_mem_cons, List.forall_mem_cons]
    exact ⟨(by decide : 0 + 8 ≤ 8), (by decide : 0 + 8 ≤ 16), hbehind (by decide)⟩
  · omega
  · rw [List.forall_mem_cons]
    exact ⟨(by decide : 8 + 8 ≤ 16), hbehind (by decide)⟩
  · omega
  · exact hbehind (by decide)

theorem after_placeObject (size : ℕ) (map : Address) (words : List UInt64) (b : Builder) :
    after (placeObject size map words) b =
      (after (fixedArray []) (b.reserve size)).fill b.next
        (objectPieces map (value (fixedArray []) (b.reserve size)) words) := by
  unfold placeObject initObject
  rw [after_bind, after_bind, after_bind, after_bind, after_bind, after_bind, after_pure,
    value_alloc, after_alloc, after_setMap, after_setWord (by decide), after_setWord (by decide),
    objectPieces, fill_cons, fill_cons, fill_cons]
  exact after_setWords _ 24 words _

theorem placeObject_spec {words : List UInt64} (map : Address)
    (hsize : 24 + 8 * words.length ≤ size) (heven : 2 ∣ b.next)
    (hnext : (after (placeObject size map words) b).next ≤ UInt64.size) :
    ∃ start empty, value (placeObject size map words) b = objectAt start ∧
      Has (after (placeObject size map words) b) start (Word.toBytes 8 map.word.toNat) ∧
      Has (after (placeObject size map words) b) (start + 8)
        (Word.toBytes 8 (objectAt empty).word.toNat) ∧
      Has (after (placeObject size map words) b) (start + 16)
        (Word.toBytes 8 (objectAt empty).word.toNat) ∧
      HasWords (after (placeObject size map words) b) (start + 24) words ∧
      HasArray (after (placeObject size map words) b) empty [] := by
  have hblock := le_blockBytes size
  obtain ⟨n, hn⟩ := exists_blockBytes size
  have hfixed : Tidy False ∅ (arrayOfType InstanceType.fixedArray []) :=
    Account.tidy (.arrayOfType ..)
  have hle : (b.reserve size).next ≤ (after (fixedArray []) (b.reserve size)).next :=
    hfixed.next_le (b.reserve size)
  rw [next_reserve] at hle
  have hend : b.next + size ≤ (after (fixedArray []) (b.reserve size)).next := by omega
  rw [after_placeObject, next_fill] at hnext
  obtain ⟨empty, hvalue, hbehind, harray⟩ := arrayOfType_spec InstanceType.fixedArray []
    (b := b.reserve size) (by rw [next_reserve]; omega) hnext
  rw [next_reserve] at hbehind
  have hvalue' : value (fixedArray []) (b.reserve size) = objectAt empty := hvalue
  have hfit := fit_objectPieces map (objectAt empty) hsize
  have hhas := has_fill hfit hend hnext
  refine ⟨b.next, empty, rfl, ?_⟩
  rw [after_placeObject, hvalue']
  obtain ⟨hmap, houtside, helements, hwords⟩ := by
    simpa only [objectPieces, List.forall_mem_cons] using hhas
  refine ⟨hmap, houtside, helements, fun i w hw => ?_, harray.even, ?_, fun i w hw => nomatch hw⟩
  · have hword := hwords _ (mem_wordPieces hw)
    rwa [← Nat.add_assoc] at hword
  · -- The empty array was reserved behind the object's block.
    refine harray.length.fill hend hnext hfit.fits fun p hp => .inr ?_
    have := hfit.fits p hp
    omega

/-- Builds an object whose keys are there. -/
def assemble (properties : List (String × UInt64)) (keys : List Address) : BuildM Address := do
  let descriptors ← descriptors
    (keys.zipIdx.map fun (key, index) => (key, fieldDetails index, smallInt 0))
  let map ← newMap ⟨InstanceType.jsObject, 3 + properties.length, properties.length,
    some (descriptors, properties.length), smallInt 0⟩
  placeObject (24 + 8 * properties.length) map (properties.map (·.2))

theorem object_eq (properties : List (String × UInt64)) :
    object properties =
      (properties.mapM fun property => oneByteString property.1) >>= assemble properties := rfl

theorem tidy_assemble (properties : List (String × UInt64)) (keys : List Address) :
    Tidy watched ∅ (assemble properties keys) := by
  have hdescribe : Tidy watched ∅ (descriptors
      (keys.zipIdx.map fun (key, index) => (key, fieldDetails index, smallInt 0))) :=
    Account.tidy (.arrayOfType ..)
  refine hdescribe.bind fun descriptors => (Account.tidy (.newMap _)).bind fun map => ?_
  exact tidy_placeObject (by rw [List.length_map]) map

theorem descriptors_keys (keys : List ℕ) :
    descriptors ((keys.map objectAt).zipIdx.map fun (key, index) =>
        (key, fieldDetails index, smallInt 0)) =
      arrayOfType InstanceType.descriptorArray (descriptorSlots keys) := by
  unfold descriptors descriptorSlots
  rw [List.zipIdx_map, List.map_map, List.length_map, List.length_zipIdx, List.flatMap_map]
  rfl

theorem assemble_spec {properties : List (String × UInt64)} {keys : List ℕ} {stringMap : Address}
    (hkeys : List.Forall₂ (fun property key =>
      b.HasString key stringMap (latin1Units property.1)) properties keys) (heven : 2 ∣ b.next)
    (hnext : (after (assemble properties (keys.map objectAt)) b).next ≤ UInt64.size) :
    ∃ start parts, parts.stringMap = stringMap ∧
      value (assemble properties (keys.map objectAt)) b = objectAt start ∧
      HasObject (after (assemble properties (keys.map objectAt)) b) start properties parts := by
  have hdescribe : Tidy False ∅ (arrayOfType InstanceType.descriptorArray (descriptorSlots keys)) :=
    Account.tidy (.arrayOfType ..)
  have hmake (m : MapContents) : Tidy False ∅ (newMap m) := Account.tidy (.newMap m)
  have hplace (map : Address) : Tidy False ∅
      (placeObject (24 + 8 * properties.length) map (properties.map (·.2))) :=
    tidy_placeObject (by rw [List.length_map]) map
  have hassemble : Tidy False ∅ (assemble properties (keys.map objectAt)) := tidy_assemble ..
  have hgrows := hassemble.grows b hnext
  unfold assemble at hnext hgrows ⊢
  rw [descriptors_keys] at hnext hgrows ⊢
  -- What each step brings about is kept by the steps behind it.
  obtain ⟨hgrows₁, hgrows₂⟩ := hdescribe.grows_bind
    (fun _ => (hmake _).bind fun _ => hplace _) hnext
  obtain ⟨hgrows₂, hgrows₃⟩ := (hmake _).grows_bind (fun _ => hplace _) hgrows₂.fits
  rw [after_bind, after_bind] at hgrows ⊢
  rw [value_bind, value_bind]
  obtain ⟨descriptors, hdescriptors, -, harray⟩ := arrayOfType_spec _ _ heven hgrows₁.fits
  rw [hdescriptors] at hgrows hgrows₂ hgrows₃ ⊢
  obtain ⟨map, hmap, -, hhasMap⟩ := newMap_spec _ _ hgrows₂.fits
  rw [hmap] at hgrows hgrows₃ ⊢
  obtain ⟨start, empty, hvalue, hword, houtside, helements, hvalues, hempty⟩ :=
    placeObject_spec (objectAt map) (by rw [List.length_map])
      ((hmake _).even (hdescribe.even heven)) hgrows₃.fits
  refine ⟨start, ⟨map, descriptors, empty, keys, stringMap⟩, rfl, hvalue, ?_⟩
  constructor
  case map => exact hword
  case outside => exact houtside
  case elements => exact helements
  case values => exact hvalues
  case hasMap => exact hhasMap.grows hgrows₃
  case descriptors => exact (harray.grows hgrows₂).grows hgrows₃
  case empty => exact hempty
  case keys => exact hkeys.imp fun _ _ hstring => hstring.grows hgrows

/-- **An object stands in the heap** when it has been built, with all its parts; the map of its keys
is the one that is remembered. -/
theorem object_spec (properties : List (String × UInt64)) (heven : 2 ∣ b.next)
    (hnext : (after (object properties) b).next ≤ UInt64.size) :
    ∃ start parts, value (object properties) b = objectAt start ∧
      HasObject (after (object properties) b) start properties parts ∧
      (properties ≠ [] →
        (after (object properties) b).shared[InstanceType.oneByteString]? =
          some parts.stringMap) := by
  have hstrings : Tidy False ∅ (properties.mapM fun property => oneByteString property.1) :=
    Account.tidy (.mapM properties fun property => .oneByteString _)
  have hassemble (keys : List Address) : Tidy True ∅ (assemble properties keys) :=
    tidy_assemble properties keys
  rw [object_eq, after_bind] at hnext ⊢
  rw [value_bind]
  have hfits := ((hassemble _).next_le _).trans hnext
  obtain ⟨keys, hvalue, hkeys⟩ := strings_spec Prod.fst properties heven hfits
  rw [hvalue] at hnext ⊢
  have hkept := (hassemble _).kept_empty _ hnext
  -- All strings found the same map, so one name will do for it.
  have hshare := hkeys.imp fun property key hkey => by
    obtain ⟨map, hmap, hstring⟩ := hkey
    rwa [← Option.getD_some (a := map) (b := ⟨0⟩), ← hmap] at hstring
  obtain ⟨start, parts, hparts, hvalue, hobject⟩ :=
    assemble_spec hshare (hstrings.even heven) hnext
  refine ⟨start, parts, hvalue, hobject, fun hne => ?_⟩
  -- There is a key, and what was remembered when it was made still is.
  obtain ⟨property, properties, rfl⟩ := List.exists_cons_of_ne_nil hne
  obtain ⟨_, _, ⟨map, hmap, -⟩, -, -⟩ := List.forall₂_cons_left_iff.mp hkeys
  rw [hparts, hmap]
  exact hkept.shared trivial map hmap

/-! ### Room -/

theorem blockBytes_le (size : ℕ) : blockBytes size ≤ size + 39 := by
  unfold blockBytes
  omega

theorem next_metaMap_le (b : Builder) : (after metaMap b).next ≤ b.next + 64 := by
  cases hmap : b.shared[InstanceType.map]? with
  | some map =>
    rw [after_metaMap_some hmap]
    exact Nat.le_add_right ..
  | none =>
    rw [after_metaMap_none hmap, next_fill, next_remember, next_reserve]
    exact Nat.add_le_add_left (by decide) _

theorem next_newMap_le (m : MapContents) (b : Builder) :
    (after (newMap m) b).next ≤ b.next + 128 := by
  have hle := next_metaMap_le b
  have hblock : blockBytes 48 = 64 := rfl
  rw [next_newMap]
  omega

theorem next_map_le (type : ℤ) (b : Builder) : (after (map type) b).next ≤ b.next + 128 := by
  cases hmap : b.shared[type]? with
  | some map =>
    rw [(after_map_some hmap).1]
    exact Nat.le_add_right ..
  | none =>
    rw [(after_map_none hmap).1, next_remember]
    exact next_newMap_le _ b

theorem next_oneByteString_le (text : String) (b : Builder) :
    (after (oneByteString text) b).next ≤ b.next + (183 + text.length) := by
  have hmap := next_map_le InstanceType.oneByteString b
  have hblock := blockBytes_le (16 + (latin1Units text).length)
  rw [length_latin1Units] at hblock
  rw [after_oneByteString, next_fill, next_reserve, length_latin1Units]
  omega

theorem next_arrayOfType_le (type : ℤ) (slots : List UInt64) (b : Builder) :
    (after (arrayOfType type slots) b).next ≤ b.next + (183 + 8 * slots.length) := by
  have hmap := next_map_le type b
  have hblock := blockBytes_le (16 + 8 * slots.length)
  rw [after_arrayOfType, next_fill, next_reserve]
  omega

theorem next_strings_le {γ : Type} (text : γ → String) (items : List γ) (b : Builder) :
    (after (items.mapM fun item => oneByteString (text item)) b).next ≤
      b.next + (items.map fun item => 183 + (text item).length).sum := by
  induction items generalizing b with
  | nil => exact Nat.le_add_right ..
  | cons item items ih =>
    have hfirst := next_oneByteString_le (text item) b
    have hrest := ih (after (oneByteString (text item)) b)
    rw [List.mapM_cons, after_bind, after_bind, after_pure, List.map_cons, List.sum_cons]
    omega

theorem length_strings {γ : Type} (text : γ → String) (items : List γ) (b : Builder) :
    (value (items.mapM fun item => oneByteString (text item)) b).length = items.length := by
  induction items generalizing b with
  | nil => rfl
  | cons item items ih =>
    rw [List.mapM_cons, value_bind, value_bind, value_pure, List.length_cons, ih, List.length_cons]

theorem next_descriptors_le (entries : List (Address × ℤ × UInt64)) (b : Builder) :
    (after (descriptors entries) b).next ≤ b.next + (199 + 24 * entries.length) := by
  refine (next_arrayOfType_le _ _ b).trans (Nat.add_le_add_left ?_ _)
  simp only [List.length_cons, List.length_flatMap, List.length_nil, List.map_const',
    List.sum_replicate_nat]
  omega

theorem next_assemble_le (properties : List (String × UInt64)) (keys : List Address) (b : Builder) :
    (after (assemble properties keys) b).next ≤
      b.next + (573 + 24 * keys.length + 8 * properties.length) := by
  unfold assemble
  rw [after_bind, after_bind, after_placeObject, next_fill]
  have hblock := blockBytes_le (24 + 8 * properties.length)
  refine (next_arrayOfType_le _ [] _).trans ?_
  rw [next_reserve]
  -- From the last block back to the first: array, object, map, descriptors.
  refine (Nat.add_le_add_right (Nat.add_le_add_right ((next_newMap_le _ _).trans
    (Nat.add_le_add_right (next_descriptors_le _ _) _)) _) _).trans ?_
  rw [List.length_map, List.length_zipIdx, List.length_nil]
  omega

/-- How much room an object and its parts take at most. -/
theorem next_object_le (properties : List (String × UInt64)) (b : Builder) :
    (after (object properties) b).next ≤
      b.next + (properties.map fun property => 183 + property.1.length).sum +
        (573 + 32 * properties.length) := by
  have hkeys := next_strings_le Prod.fst properties b
  have hassemble := next_assemble_le properties
    (value (properties.mapM fun property => oneByteString property.1) b)
    (after (properties.mapM fun property => oneByteString property.1) b)
  rw [length_strings Prod.fst] at hassemble
  rw [object_eq, after_bind]
  omega

end Postmortem.Synthetic.Builder
