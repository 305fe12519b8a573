/-
Postmortem/Proofs/Strict.lean

Strict computations.

A computation is strict on a heap if it is put together from reads alone, so
that a read that fails fails the whole of it: `attempt` is not among the means.
Which strings it resolves on the way is kept track of, because resolution is
the one loop whose length the heap decides (`Strict.codeUnits`).

What holds of reads and of resolution, and is kept by going on from one step to
the next, holds of every strict computation.  Two such properties are drawn
here, each by one induction:

* what it yields on a heap it yields on every heap that captured more
  (`Strict.persists`);
* it gives up only where resolution does (`Strict.quiet`).

The reads that all kinds of objects share are strict; so are those of maps,
arrays, oddballs and the segments of strings.
-/
import Postmortem.Heap.Array
import Postmortem.Heap.Oddball
import Postmortem.Heap.String
import Postmortem.Proofs.Yield

namespace Postmortem

open HeapM

namespace HeapM

variable {α β γ σ : Type} {h h' : Heap} {S : Address → Prop} {x : HeapM α} {f : α → HeapM β}

/-- Put together from reads on `h`, and resolving no strings but those in `S`.  What comes after a
step is asked for the values only that the step yields. -/
inductive Strict (h : Heap) (S : Address → Prop) : {α : Type} → HeapM α → Prop
  | pure {α : Type} {a : α} : Strict h S (pure a)
  | fail {α : Type} {e : Failure} : Strict h S (fail e : HeapM α)
  | layout : Strict h S layout
  | unsigned {a : Address} {width : Nat} : Strict h S (unsigned a width)
  | fetch {a : Address} {length : Nat} : Strict h S (fetch a length)
  | codeUnits {string : Address} : S string → Strict h S (JsString.codeUnits string)
  | andThen {α β : Type} {x : HeapM α} {f : α → HeapM β} :
      Strict h S x → (∀ a, x.Yields h a → Strict h S (f a)) → Strict h S (x >>= f)

namespace Strict

theorem bind (hx : Strict h S x) (hf : ∀ a, Strict h S (f a)) : Strict h S (x >>= f) :=
  .andThen hx fun a _ => hf a

theorem ite {c : Prop} [Decidable c] {x y : HeapM α} (hx : Strict h S x) (hy : Strict h S y) :
    Strict h S (if c then x else y) := by
  split
  · exact hx
  · exact hy

theorem mapM {f : γ → HeapM α} (hf : ∀ c, Strict h S (f c)) (items : List γ) :
    Strict h S (items.mapM f) := by
  induction items with
  | nil => exact .pure
  | cons item items ih =>
    rw [List.mapM_cons]
    exact .bind (hf item) fun _ => .bind ih fun _ => .pure

theorem forRange {start count : Nat} {f : Nat → HeapM α} (hf : ∀ i, Strict h S (f i)) :
    Strict h S (forRange start f count) := by
  rw [forRange_eq_mapM]
  exact .mapM hf _

end Strict

/-! ### What strict computations share -/

/-- `h'` has the layout of `h`, and what `h` captured is there as well. -/
structure Extends (h h' : Heap) : Prop where
  layout : h'.layout = h.layout
  fetch : ∀ a n bytes, h.image.fetch a n = some bytes → h'.image.fetch a n = some bytes

theorem Extends.unsigned? (hle : Extends h h') {a : Address} {width : Nat} {w : UInt64}
    (hw : h.image.unsigned? a width = some w) : h'.image.unsigned? a width = some w := by
  unfold Image.unsigned? at hw ⊢
  split at hw
  case isTrue hwidth =>
    obtain ⟨bytes, hbytes, hdecoded⟩ := Option.map_eq_some_iff.mp hw
    rw [if_pos hwidth, hle.fetch _ _ _ hbytes, Option.map_some, hdecoded]
  case isFalse => cases hw

/-- What `x` yields on `h`, it yields on `h'`. -/
def Persists (h h' : Heap) (x : HeapM α) : Prop := ∀ a, x.Yields h a → x.Yields h' a

/-- A strict computation persists if the strings that it resolves do. -/
theorem Strict.persists (hx : Strict h S x) (hle : Extends h h')
    (hS : ∀ string, S string → Persists h h' (JsString.codeUnits string)) : Persists h h' x := by
  induction hx with
  | pure => exact fun _ hy => hy
  | fail => exact fun _ hy => hy
  | layout =>
    intro l hy
    rw [yields_layout] at hy ⊢
    exact hle.layout.trans hy
  | @unsigned a width =>
    intro w hy
    unfold Yields HeapM.unsigned at hy ⊢
    split at hy
    case h_1 w' hw =>
      rw [hle.unsigned? hw]
      exact hy
    case h_2 => cases hy
  | fetch =>
    intro bytes hy
    exact yields_fetch.mpr (hle.fetch _ _ _ (yields_fetch.mp hy))
  | codeUnits hstring => exact hS _ hstring
  | andThen _ _ ihx ihf =>
    intro b hy
    obtain ⟨a, ha, hb⟩ := yields_bind.mp hy
    exact (ihx a ha).bind (ihf a ha b hb)

theorem gaveUp_bind (hx : (x h).gaveUp = false)
    (hf : ∀ a, x.Yields h a → (f a h).gaveUp = false) : ((x >>= f) h).gaveUp = false := by
  rcases hr : (x h).result with e | a
  · rw [bind_error hr]
    exact hx
  · rw [bind_ok hr]
    exact hf a hr

/-- What gives up is not gone on with. -/
theorem gaveUp_bind_of_left (hx : (x h).gaveUp = true) : ((x >>= f) h).gaveUp = true := by
  rcases hr : (x h).result with e | a
  · rw [bind_error hr]
    exact hx
  · exact absurd ((x h).returned a hr) (Bool.not_eq_false _ ▸ hx)

theorem Yields.gaveUp_bind {a : α} (hx : x.Yields h a) :
    ((x >>= f) h).gaveUp = (f a h).gaveUp := by
  rw [bind_ok hx]
  rfl

/-- A strict computation gives up only where it resolves a string. -/
theorem Strict.quiet (hx : Strict h S x)
    (hS : ∀ string, S string → (JsString.codeUnits string h).gaveUp = false) :
    (x h).gaveUp = false := by
  induction hx with
  | pure => rfl
  | fail => rfl
  | layout => rfl
  | unsigned =>
    unfold HeapM.unsigned
    split <;> rfl
  | fetch =>
    unfold HeapM.fetch
    split <;> rfl
  | codeUnits hstring => exact hS _ hstring
  | andThen _ _ ihx ihf => exact gaveUp_bind ihx fun a ha => ihf a ha

/-- A loop persists if its rounds do. -/
theorem persists_loop {step : σ → HeapM (σ ⊕ α)} (hstep : ∀ s, Persists h h' (step s))
    {e : Failure} {fuel : Nat} {s : σ} : Persists h h' (loop step e fuel s) := by
  induction fuel generalizing s with
  | zero => exact fun _ hy => absurd hy yields_giveUp
  | succ fuel ih =>
    rw [loop_succ]
    intro a hy
    obtain ⟨next, hnext, ha⟩ := yields_bind.mp hy
    refine (hstep s next hnext).bind ?_
    rcases next with s' | a'
    · exact ih a ha
    · exact ha

/-- A loop does not give up if no round does, a measure goes down from round to round, and there
are rounds enough. -/
theorem quiet_loop {step : σ → HeapM (σ ⊕ α)} (inv : σ → Prop) (measure : σ → Nat)
    (hquiet : ∀ s, (step s h).gaveUp = false)
    (hstep : ∀ s s', inv s → (step s).Yields h (.inl s') → inv s' ∧ measure s' < measure s)
    {e : Failure} {fuel : Nat} {s : σ} (hs : inv s) (hfuel : measure s < fuel) :
    (loop step e fuel s h).gaveUp = false := by
  induction fuel generalizing s with
  | zero => omega
  | succ fuel ih =>
    rw [loop_succ]
    refine gaveUp_bind (hquiet s) fun next hnext => ?_
    rcases next with s' | a
    · obtain ⟨hs', hlt⟩ := hstep s s' hs hnext
      exact ih hs' (by omega)
    · rfl

/-! ### Reads that all objects share -/

theorem strict_constant {c : Constant} : Strict h S (constant c) :=
  .bind .layout fun l => by
    split
    · exact .pure
    · exact .fail

theorem strict_pointerSize : Strict h S pointerSize :=
  .bind .layout fun _ => .pure

theorem strict_word {a : Address} : Strict h S (word a) :=
  .unsigned

theorem strict_bytes {a : Address} {length : Nat} : Strict h S (bytes a length) :=
  .ite .pure (.ite .fail .fetch)

theorem strict_twoByteUnits {a : Address} {length : Nat} : Strict h S (twoByteUnits a length) :=
  .ite .fail (.bind strict_bytes fun _ => .pure)

theorem strict_fieldAddress {object : Address} {offset : Int} :
    Strict h S (fieldAddress object offset) :=
  .bind .layout fun _ => .pure

theorem strict_fieldAt {object : Address} {c : Constant} : Strict h S (fieldAt object c) :=
  .bind strict_constant fun _ => strict_fieldAddress

theorem strict_valueAt {a : Address} : Strict h S (valueAt a) :=
  .bind strict_word fun _ => .bind .layout fun _ => .pure

theorem strict_value {object : Address} {c : Constant} : Strict h S (value object c) :=
  .bind strict_fieldAt fun _ => strict_valueAt

theorem strict_pointer {object : Address} {c : Constant} : Strict h S (pointer object c) :=
  .bind strict_value fun
    | .heap _ => .pure
    | .smi .. => .fail

theorem strict_fieldWord {object : Address} {c : Constant} : Strict h S (fieldWord object c) :=
  .bind strict_fieldAt fun _ => strict_word

theorem strict_slot {object : Address} {base : Constant} {index : Nat} :
    Strict h S (slot object base index) :=
  .bind strict_constant fun _ => .bind strict_pointerSize fun _ =>
    .bind strict_fieldAddress fun _ => strict_valueAt

theorem strict_smallInteger {object : Address} {c : Constant} {a : Address} :
    Strict h S (smallInteger object c a) :=
  .bind strict_valueAt fun
    | .smi .. => .pure
    | .heap _ => .fail

theorem strict_int {object : Address} {c : Constant} : Strict h S (int object c) := by
  refine .bind strict_fieldAt fun _ => .bind .layout fun l => ?_
  cases l.storage c with
  | tagged => exact strict_smallInteger
  | smi => exact strict_smallInteger
  | int32 => exact .bind .unsigned fun _ => .pure
  | uint16 => exact .bind .unsigned fun _ => .pure
  | uint8 => exact .bind .unsigned fun _ => .pure
  | word => exact .bind strict_word fun _ => .pure

theorem strict_count {object : Address} {c : Constant} : Strict h S (count object c) :=
  .bind strict_int fun _ => .pure

theorem strict_doubleAt {a : Address} : Strict h S (doubleAt a) :=
  .bind strict_word fun _ => .pure

end HeapM

variable {h : Heap} {S : Address → Prop}

/-! ### Maps and types -/

namespace Map

theorem strict_of {object : Address} : Strict h S (Map.of object) :=
  .bind strict_fieldWord fun _ => .pure

theorem strict_instanceType {map : Address} : Strict h S (instanceType map) :=
  .bind .layout fun _ => .ite strict_int (.bind strict_int fun _ => .pure)

theorem strict_ownDescriptors {map : Address} : Strict h S (ownDescriptors map) :=
  .bind strict_constant fun _ => .bind strict_constant fun _ => .bind strict_int fun _ => .pure

theorem strict_isDictionary {map : Address} : Strict h S (isDictionary map) :=
  .bind strict_constant fun _ => .bind strict_int fun _ => .pure

theorem strict_instanceSize {map : Address} : Strict h S (instanceSize map) :=
  .bind strict_int fun _ => .bind strict_pointerSize fun _ => .pure

theorem strict_inObjectProperties {map : Address} : Strict h S (inObjectProperties map) :=
  .bind .layout fun _ => .bind strict_int fun _ =>
    .ite (.bind strict_int fun _ => .pure) .pure

theorem strict_checkInObjectRegion {map : Address} : Strict h S (checkInObjectRegion map) :=
  .bind .layout fun _ =>
    .ite
      (.bind strict_constant fun _ => .bind strict_instanceSize fun _ =>
        .bind strict_inObjectProperties fun _ => .ite .fail .pure)
      .pure

theorem strict_descriptors {map : Address} : Strict h S (descriptors map) :=
  .bind strict_value fun _ => .pure

end Map

theorem strict_typeId {object : Address} : Strict h S (typeId object) :=
  .bind Map.strict_of fun _ => Map.strict_instanceType

theorem strict_isType {v : Value} {type : Constant} : Strict h S (isType v type) := by
  cases v with
  | smi => exact .pure
  | heap object =>
    exact .bind .layout fun _ =>
      .ite (.bind strict_typeId fun _ => .bind .layout fun _ => .pure) .pure

theorem strict_isString {v : Value} : Strict h S (isString v) := by
  cases v with
  | smi => exact .pure
  | heap object => exact .bind strict_typeId fun _ => .bind .layout fun _ => .pure

/-! ### Arrays and oddballs -/

namespace FixedArray

theorem strict_length {array : Address} : Strict h S (length array) :=
  strict_count

theorem strict_get {array : Address} {index : Nat} : Strict h S (get array index) :=
  .bind strict_length fun _ => .ite strict_slot .fail

theorem strict_getInt {array : Address} {index : Int} {fault : Int → ShapeFault} :
    Strict h S (getInt array index fault) :=
  .ite .fail strict_get

end FixedArray

theorem JsArray.strict_get {array : Address} {index : Nat} : Strict h S (JsArray.get array index) :=
  .bind strict_pointer fun _ => FixedArray.strict_get

theorem Oddball.strict_kind {oddball : Address} : Strict h S (Oddball.kind oddball) :=
  .bind strict_int fun _ => .bind .layout fun _ => .pure

theorem Oddball.strict_kindOf? {v : Value} : Strict h S (Oddball.kindOf? v) := by
  refine .bind strict_isType fun _ => .ite ?_ .pure
  cases v with
  | smi => exact .pure
  | heap oddball => exact .bind strict_kind fun _ => .pure

theorem strict_isHole {v : Value} : Strict h S (isHole v) :=
  .bind Oddball.strict_kindOf? fun _ => .pure

theorem strict_isHoleOrUndefined {v : Value} : Strict h S (isHoleOrUndefined v) :=
  .bind Oddball.strict_kindOf? fun _ => .pure

/-! ### Segments of strings -/

namespace JsString

theorem strict_ofTypeId {typeId : Int} : Strict h S (Representation.ofTypeId typeId) :=
  .bind strict_constant fun _ => .bind .layout fun _ => by
    split
    · exact .pure
    · exact .fail

theorem strict_length {string : Address} : Strict h S (length string) :=
  .bind strict_int fun _ => .ite .fail .pure

theorem strict_isOneByte {typeId : Int} : Strict h S (isOneByte typeId) :=
  .bind strict_constant fun _ => .bind strict_constant fun _ => .pure

theorem strict_flatUnits {string : Address} {typeId : Int} {start stop : Nat} :
    Strict h S (flatUnits string typeId start stop) :=
  .bind strict_isOneByte fun _ =>
    .ite (.bind strict_fieldAt fun _ => .bind strict_bytes fun _ => .pure)
      (.bind strict_fieldAt fun _ => strict_twoByteUnits)

theorem Segment.strict_resolve {s : Segment} : Strict h S s.resolve :=
  .bind strict_length fun _ => .bind strict_typeId fun _ => .bind strict_ofTypeId fun
    | .sequential => .bind strict_flatUnits fun _ => .pure
    | .cons => .bind strict_pointer fun _ => .bind strict_pointer fun _ =>
        .bind strict_length fun _ => .pure
    | .sliced => .bind strict_pointer fun _ => .bind strict_count fun _ => .pure
    | .thin => .bind strict_pointer fun _ => .pure
    | .external => .pure

theorem Progress.strict_advance {whole : Address} {p : Progress} :
    Strict h S (p.advance whole) := by
  rcases p with ⟨units, _ | ⟨s, rest⟩⟩
  · exact .pure
  · exact .bind Segment.strict_resolve fun _ => .ite .fail .pure

end JsString

end Postmortem
