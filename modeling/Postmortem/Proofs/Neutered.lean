/-
Postmortem/Proofs/Neutered.lean

Buffers that were given away.

A neutered buffer still has an address and a length on record, and so have the views
of it, but whatever they lead to is no longer theirs.  Inspection looks at the flag
first, so that none of it is asked for.

Said of two memories: where they tell the same of the map of an object, of the type
on record there, of the buffer behind a view and of its bit field (`AgreeOnFlag`),
and the flag is set, inspection runs on both of them alike, with the same node for
its result, whatever else is in either of them.  Runs are compared by `Alike`, which
is kept from step to step (`Alike.andThen`), so that each part of the inspection is
gone through once.

Kinds are the point to watch.  Where a build has no type for errors, the name of the
constructor is looked up for objects of the ordinary type, in memory that may be
lost; buffers and views never have that type (`Kind.kind_of_agrees`).

Main result: `inspect_neutered`.
-/
import Postmortem.Proofs.Alike
import Postmortem.Proofs.FailClosed

namespace Postmortem

open HeapM

variable {h h' : Heap} {object buffer map : Address} {kind : Kind} {o : Options}

theorem Map.alike_instanceType : Alike h h (instanceType map) :=
  (alike_layout rfl).bind fun _ => .ite alike_int (.bind alike_int fun _ => .pure)

/-! ### Kinds -/

namespace Kind

variable {type : ℤ}

/-- Objects of the ordinary type are ordinary objects or errors, if no earlier test accepts them. -/
theorem kind_of_agrees (hobject : h.layout.agrees .typeJsObject type = true)
    (htype : (typeId object).Yields h type) (hkind : (Kind.of object).Yields h kind) :
    first? (beforeErrors h.layout type) = some kind ∨ kind = .error ∨ kind = .object := by
  obtain ⟨type', htype', hcases⟩ := yields_of_iff.mp hkind
  obtain rfl := htype.unique htype'
  rcases hcases with hfirst | ⟨-, isError, -, hrest⟩
  · exact .inl hfirst
  · rw [first?_afterErrors hobject] at hrest
    cases isError with
    | true => exact .inr (.inl hrest)
    | false => exact .inr (.inr hrest)

/-- Whether an object of another type is an error is told by the type. -/
theorem alike_isError (hlayout : h'.layout = h.layout)
    (hobject : h.layout.agrees .typeJsObject type = false) : Alike h h' (isError object type) := by
  refine (alike_layout hlayout).andThen fun l hl => .ite .pure ?_
  obtain rfl := yields_layout.mp hl
  -- Names of constructors are looked up for the ordinary type only.
  rw [hobject]
  exact .pure

/-- So is its kind. -/
theorem alike_of (hlayout : h'.layout = h.layout) (htype : Alike h h' (typeId object))
    (hobject : ∀ type, (typeId object).Yields h type →
      h.layout.agrees .typeJsObject type = false) : Alike h h' (Kind.of object) := by
  refine htype.andThen fun type hyields => (alike_layout hlayout).bind fun l => ?_
  split
  · exact .pure
  · exact (alike_isError hlayout (hobject type hyields)).bind fun _ => .ite .pure .pure

end Kind

/-! ### Neutered buffers -/

/-- Which buffer is shown for an object of a kind: the object itself, or that behind the view. -/
inductive ShowsBuffer (h : Heap) (object : Address) : Kind → Address → Prop
  | buffer : ShowsBuffer h object .arrayBuffer object
  | view {buffer : Address} : (ArrayBufferView.buffer object).Yields h buffer →
      ShowsBuffer h object .arrayBufferView buffer

/-- What is shown for it if it was given away. -/
def Kind.neuteredShape : Kind → Shape Node
  | .arrayBuffer => .arrayBuffer .neutered
  | _ => .arrayBufferView .neutered

/-- A buffer with the flag set. -/
structure IsNeutered (h : Heap) (buffer : Address) (bits mask : ℤ) : Prop where
  exported : h.layout.value? .bufferWasNeuteredMask = some mask
  recorded : (int buffer .bufferBitField).Yields h bits
  set : Word.ofInt bits &&& Word.ofInt mask ≠ 0

/-- `h'` tells the same as `h` of the map of an object, of the type on record there, of the buffer
that a view is of, and of the bit field of the buffer. -/
structure AgreeOnFlag (h h' : Heap) (object : Address) (kind : Kind) (buffer : Address) : Prop where
  layout : h'.layout = h.layout
  map : fieldWord object .heapObjectMap h' = fieldWord object .heapObjectMap h
  type : ∀ map, (Map.of object).Yields h map → Map.instanceType map h' = Map.instanceType map h
  view : kind = .arrayBufferView →
    fieldWord object .viewBuffer h' = fieldWord object .viewBuffer h
  bits : int buffer .bufferBitField h' = int buffer .bufferBitField h

theorem AgreeOnFlag.refl : AgreeOnFlag h h object kind buffer :=
  ⟨rfl, rfl, fun _ _ => rfl, fun _ => rfl, rfl⟩

variable {bits mask : ℤ}

theorem IsNeutered.yields (hflag : IsNeutered h buffer bits mask) :
    (ArrayBuffer.isNeutered buffer).Yields h true := by
  have hhas : h.layout.has .bufferWasNeuteredMask = true := by
    rw [Layout.has, hflag.exported, Option.isSome_some]
  -- The masked bits are compared as a signed number, which is zero for the word zero only.
  have hbit : (Word.maskBits bits mask != 0) = true := by
    refine bne_iff_ne.mpr fun hzero => hflag.set ?_
    rw [← Word.ofInt_signed (Word.ofInt bits &&& Word.ofInt mask)]
    exact congrArg Word.ofInt hzero
  rw [ArrayBuffer.isNeutered, Yields.bind_iff (yields_layout.mpr rfl), if_pos hhas,
    hflag.recorded.bind_iff, (yields_constant.mpr hflag.exported).bind_iff, yields_pure, hbit]

namespace AgreeOnFlag

section

variable (hagree : AgreeOnFlag h h' object kind buffer)
include hagree

theorem alike_map : Alike h h' (Map.of object) :=
  (alike_fieldWord.of_eq hagree.map).bind fun _ => .pure

theorem alike_typeId : Alike h h' (typeId object) :=
  hagree.alike_map.andThen fun map hmap => Map.alike_instanceType.of_eq (hagree.type map hmap)

theorem alike_isNeutered : Alike h h' (ArrayBuffer.isNeutered buffer) :=
  (alike_layout hagree.layout).bind fun _ =>
    .ite ((alike_int.of_eq hagree.bits).bind fun _ =>
      (alike_constant hagree.layout).bind fun _ => .pure) .pure

/-- Buffers and views are told by their type. -/
theorem alike_kind (hbuffer : ShowsBuffer h object kind buffer)
    (hkind : (Kind.of object).Yields h kind) : Alike h h' (Kind.of object) := by
  refine Kind.alike_of hagree.layout hagree.alike_typeId fun type htype => ?_
  refine Bool.eq_false_iff.mpr fun hobject => ?_
  rcases Kind.kind_of_agrees hobject htype hkind with hfirst | rfl | rfl
  · have hmem := Kind.mem_of_first? hfirst
    cases hbuffer <;> simp [Kind.beforeErrors] at hmem
  · cases hbuffer
  · cases hbuffer

end

end AgreeOnFlag

/-! ### Inspection -/

namespace Inspection

variable {inner : Inspector} {levels : ℕ} {ancestors : List Address}

section

variable (hflag : IsNeutered h buffer bits mask)
include hflag

theorem yields_shapeOf_neutered (hbuffer : ShowsBuffer h object kind buffer) :
    (shapeOf inner kind object o).Yields h kind.neuteredShape := by
  have hbody {x : HeapM BufferBody} : HeapM.Yields (do
      if ← ArrayBuffer.isNeutered buffer then pure .neutered else x) h .neutered :=
    hflag.yields.bind (if_pos rfl ▸ yields_pure.mpr rfl)
  cases hbuffer with
  | buffer => exact hbody.bind (yields_pure.mpr rfl)
  | view hview => exact (hview.bind hbody).bind (yields_pure.mpr rfl)

variable (hagree : AgreeOnFlag h h' object kind buffer)
include hagree

/-- Behind a flag that is set nothing is read. -/
theorem alike_shapeOf (hbuffer : ShowsBuffer h object kind buffer) :
    Alike h h' (shapeOf inner kind object o) := by
  have hbody {x : HeapM BufferBody} : Alike h h' (do
      if ← ArrayBuffer.isNeutered buffer then pure .neutered else x) :=
    hagree.alike_isNeutered.andThen fun neutered hneutered => by
      obtain rfl := hflag.yields.unique hneutered
      exact .pure
  cases hbuffer with
  | buffer => exact hbody.bind fun _ => .pure
  | view hview =>
    refine .bind (.andThen (alike_pointer hagree.layout (hagree.view rfl)) fun found hfound => ?_)
      fun _ => .pure
    obtain rfl := hview.unique hfound
    exact hbody

theorem alike_below (hbuffer : ShowsBuffer h object kind buffer)
    (hkind : (Kind.of object).Yields h kind) :
    Alike h h' (below (levels + 1) ancestors (.heap object) o) := by
  refine (hagree.alike_kind hbuffer hkind).andThen fun found hfound => ?_
  obtain rfl := hkind.unique hfound
  refine (alike_shapeOf hflag hagree hbuffer).bind fun shape => .bind ?_ fun _ => .pure
  -- The address of the map is shown, and nothing of the map itself.
  exact .ite (hagree.alike_map.bind fun _ => .pure) .pure

end

/-- The node that is shown for a neutered buffer or a view of one. -/
def neuteredNode (object map : Address) (kind : Kind) (o : Options) : Node :=
  .mk object (if o.includeMapAddress then some map else none) kind.neuteredShape

theorem yields_below_neutered (hflag : IsNeutered h buffer bits mask)
    (hbuffer : ShowsBuffer h object kind buffer) (hkind : (Kind.of object).Yields h kind)
    (hmap : (Map.of object).Yields h map) :
    (below (levels + 1) ancestors (.heap object) o).Yields h
      (neuteredNode object map kind (optionsBelow ancestors object o)) := by
  refine yields_below.mpr ⟨kind, _, _, hkind, yields_shapeOf_neutered hflag hbuffer, ?_, rfl⟩
  unfold shownMap
  split
  · exact hmap.bind (yields_pure.mpr rfl)
  · exact yields_pure.mpr rfl

end Inspection

/-- **What a neutered buffer leads to does not matter.**  For a buffer with the flag set, or a view
of one, inspection finds a node without payload, asks for no bytes and does not give up; and so it
does on every memory that agrees on the flag, whatever else is in it. -/
theorem inspect_neutered (hvalue : Value.classify h.layout object.word = .heap object)
    (hkind : (Kind.of object).Yields h kind) (hbuffer : ShowsBuffer h object kind buffer)
    {bits mask : ℤ} (hflag : IsNeutered h buffer bits mask) :
    ∃ map, (Map.of object).Yields h map ∧
      ∀ c : Capture, AgreeOnFlag h c.heap object kind buffer → ∀ generation o,
        ((Session.start generation).inspect c object o).1 =
          .of (.ok (Inspection.neuteredNode object map kind o)) := by
  obtain ⟨type, htype, -⟩ := Kind.yields_of_iff.mp hkind
  obtain ⟨map, hmap, -⟩ := yields_bind.mp htype
  refine ⟨map, hmap, fun c hagree generation o => ?_⟩
  have halike : Alike h c.heap (inspectWord object o) := by
    refine (alike_layout hagree.layout).andThen fun l hl => ?_
    obtain rfl := yields_layout.mp hl
    rw [hvalue]
    exact Inspection.alike_below hflag hagree hbuffer hkind
  rw [Session.inspect_start]
  refine halike.eq_of_yields ((yields_layout.mpr rfl).bind ?_)
  rw [hvalue]
  exact Inspection.yields_below_neutered hflag hbuffer hkind hmap

/-! ### A view with stale pointers -/

open Synthetic

def bufferLayout : Layout := listedLayout (flatConstants ++ [
  (.typeJsArrayBuffer, 150), (.typeJsTypedArray, 151), (.bufferWasNeuteredMask, 8),
  (.bufferBackingStore, 24), (.bufferByteLength, 32), (.bufferBitField, 40), (.viewBuffer, 24),
  (.viewByteOffset, 32), (.viewByteLength, 40)])

/-- The maps of a buffer and of a view. -/
def bufferMaps : List (Address × List UInt8) := [
  (⟨0x100c⟩, Word.toBytes 2 150), (⟨0x110c⟩, Word.toBytes 2 151)]

/-- A neutered buffer whose store is still on record, and a view of one of its bytes. -/
def staleView : Heap where
  layout := bufferLayout
  image := listedImage (bufferMaps ++ [
    (⟨0x2000⟩, wordsBytes [0x1001, 0, 0, 0x5000, smiWord 4, 8]),
    (⟨0x3000⟩, wordsBytes [0x1101, 0, 0, 0x2001, smiWord 1, smiWord 1]),
    (⟨0x5000⟩, [1, 2, 3, 4])])

/-- The same view with nothing on record but what says that its buffer is neutered. -/
def bareView : Capture where
  heap := {
    layout := bufferLayout
    image := listedImage (bufferMaps ++ [
      (⟨0x2028⟩, wordsBytes [8]), (⟨0x3000⟩, wordsBytes [0x1101]),
      (⟨0x3018⟩, wordsBytes [0x2001])]) }
  threads := .ofList []

theorem agreeOnFlag_bareView :
    AgreeOnFlag staleView bareView.heap ⟨0x3001⟩ .arrayBufferView ⟨0x2001⟩ where
  layout := rfl
  map := alike_fieldWord.eq_of_yields_both alike_fieldWord (a := 0x1101) (by decide +kernel)
    (by decide +kernel)
  type := by
    intro map hmap
    have hview : (Map.of ⟨0x3001⟩).Yields staleView ⟨0x1101⟩ := by decide +kernel
    obtain rfl := hview.unique hmap
    exact Map.alike_instanceType.eq_of_yields_both Map.alike_instanceType (a := 151)
      (by decide +kernel) (by decide +kernel)
  view := fun _ => alike_fieldWord.eq_of_yields_both alike_fieldWord (a := 0x2001)
    (by decide +kernel) (by decide +kernel)
  bits := alike_int.eq_of_yields_both alike_int (a := 8) (by decide +kernel) (by decide +kernel)

/-- The view is shown as neutered, store and bytes or not. -/
theorem inspect_neutered_stale :
    ((Session.start 0).inspect ⟨staleView, .ofList []⟩ ⟨0x3001⟩ shallowOptions).1 =
        .of (.ok (.mk ⟨0x3001⟩ none (.arrayBufferView .neutered))) ∧
      ((Session.start 0).inspect bareView ⟨0x3001⟩ shallowOptions).1 =
        .of (.ok (.mk ⟨0x3001⟩ none (.arrayBufferView .neutered))) := by
  have hkind : (Kind.of ⟨0x3001⟩).Yields staleView .arrayBufferView := by decide +kernel
  have hview : (ArrayBufferView.buffer ⟨0x3001⟩).Yields staleView ⟨0x2001⟩ := by decide +kernel
  have hflag : IsNeutered staleView ⟨0x2001⟩ 8 8 :=
    ⟨by decide +kernel, by decide +kernel, by decide +kernel⟩
  have hvalue : Value.classify staleView.layout 0x3001 = .heap ⟨0x3001⟩ := by decide +kernel
  obtain ⟨map, -, hall⟩ := inspect_neutered hvalue hkind (.view hview) hflag
  exact ⟨hall ⟨staleView, .ofList []⟩ .refl 0 shallowOptions,
    hall bareView agreeOnFlag_bareView 0 shallowOptions⟩

end Postmortem
