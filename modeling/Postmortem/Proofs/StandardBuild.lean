/-
Postmortem/Proofs/StandardBuild.lean

Reading what was built by hand.

What the layout of the standard build says of a constant is what the list of its
constants says of the name (`entry_standardLayout`), and lists compute.  Below stand
the reads that all kinds of objects share, for bytes that stand in a block (`Has`):
words, small integers, numbers of one, two and four bytes.
-/
import Mathlib
import Postmortem.Proofs.Construction
import Postmortem.Proofs.SmallIntegers
import Postmortem.Proofs.Tiling

namespace Postmortem.Synthetic

open HeapM

/-! ### Constants -/

theorem getElem?_insertAll (entries : List (String × ℤ)) (t : ConstantTable) (name : String) :
    (entries.foldl (fun t entry => t.insert entry.1 entry.2) t).values[name]? =
      (entries.reverse.lookup name).or t.values[name]? := by
  induction entries generalizing t with
  | nil => rfl
  | cons entry entries ih =>
    -- The last entry of a name counts, so the list is searched from its end.
    rw [List.foldl_cons, ih, List.reverse_cons, List.lookup_append, Option.or_assoc]
    congr 1
    show (t.values.insert entry.1 entry.2)[name]? = _
    rw [Std.HashMap.getElem?_insert, List.lookup_cons, List.lookup_nil]
    by_cases heq : entry.1 = name
    · subst heq
      simp
    · have hne : ¬ name = entry.1 := fun h => heq h.symm
      simp [heq, beq_false_of_ne hne]

theorem resolve_standard (name : String) :
    ConstantTable.standard.exports.resolve (exportedName name) =
      standardConstants.reverse.lookup name := by
  have hvalues : ConstantTable.standard.values[name]? = standardConstants.reverse.lookup name := by
    rw [ConstantTable.standard, getElem?_insertAll]
    simp [ConstantTable.empty]
  have hprefix : (exportedName name).startsWith (exportedName "") = true := by
    rw [String.startsWith_string_iff, exportedName, exportedName, String.append_empty,
      String.toList_append]
    exact List.prefix_append ..
  have hrest : String.ofList ((exportedName name).toList.drop (exportedName "").length) = name := by
    rw [exportedName, exportedName, String.append_empty, String.toList_append,
      List.drop_left' String.length_toList, String.ofList_toList]
  show (if (exportedName name).startsWith (exportedName "") then ConstantTable.standard.values[
    String.ofList ((exportedName name).toList.drop (exportedName "").length)]? else none) = _
  rw [if_pos hprefix, hrest, hvalues]

section

variable {c base : Constant} {name name' : String} {storage storage' : Option Storage}
  {rest rest' : List Spelling} {value : ℤ}

theorem find?_standard (hspellings : c.spellings = ⟨name, storage⟩ :: rest)
    (hvalue : standardConstants.reverse.lookup name = some value) :
    ConstantTable.standard.exports.find? c = some (value, storage) := by
  rw [Exports.find?, hspellings, List.findSome?_cons, resolve_standard, hvalue]
  rfl

/-- A constant that is exported under its newest name. -/
theorem entry_standardLayout (hspellings : c.spellings = ⟨name, storage⟩ :: rest)
    (hneeded : c.supersededBy = none)
    (hvalue : standardConstants.reverse.lookup name = some value) :
    standardLayout.entry c = ⟨some value, storage⟩ := by
  rw [standardLayout, Layout.entry_load, Exports.entry, Exports.supersedes, hneeded,
    find?_standard hspellings hvalue]
  rfl

theorem value?_standardLayout (hspellings : c.spellings = ⟨name, storage⟩ :: rest)
    (hneeded : c.supersededBy = none)
    (hvalue : standardConstants.reverse.lookup name = some value) :
    standardLayout.value? c = some value := by
  rw [Layout.value?, entry_standardLayout hspellings hneeded hvalue]

theorem raw_standardLayout (hspellings : c.spellings = ⟨name, storage⟩ :: rest)
    (hneeded : c.supersededBy = none)
    (hvalue : standardConstants.reverse.lookup name = some value) :
    standardLayout.raw c = value := by
  rw [Layout.raw, value?_standardLayout hspellings hneeded hvalue]
  rfl

theorem storage_standardLayout {stored : Storage}
    (hspellings : c.spellings = ⟨name, some stored⟩ :: rest) (hneeded : c.supersededBy = none)
    (hknown : (standardConstants.reverse.lookup name).isSome) :
    standardLayout.storage c = stored := by
  obtain ⟨value, hvalue⟩ := Option.isSome_iff_exists.mp hknown
  rw [Layout.storage, entry_standardLayout hspellings hneeded hvalue]
  rfl

theorem has_standardLayout (hspellings : c.spellings = ⟨name, storage⟩ :: rest)
    (hneeded : c.supersededBy = none)
    (hknown : (standardConstants.reverse.lookup name).isSome) : standardLayout.has c = true := by
  obtain ⟨value, hvalue⟩ := Option.isSome_iff_exists.mp hknown
  rw [Layout.has, value?_standardLayout hspellings hneeded hvalue]
  rfl

/-- A constant that is not exported, and stands behind another. -/
theorem value?_slotAfter (hspellings : c.spellings = [⟨name, storage⟩])
    (hneeded : c.supersededBy = none) (hnone : standardConstants.reverse.lookup name = none)
    (hfallback : c.fallback = .slotAfter base)
    (hbase : base.spellings = ⟨name', storage'⟩ :: rest')
    (hvalue : standardConstants.reverse.lookup name' = some value) :
    standardLayout.value? c = some (Word.signed (Word.ofInt (value + 8))) := by
  have hlog : ConstantTable.standard.exports.find? .pointerSizeLog2 = some (3, none) :=
    find?_standard rfl (by cbv)
  rw [Layout.value?, standardLayout, Layout.entry_load, Exports.entry, Exports.supersedes, hneeded,
    Exports.find?, hspellings, List.findSome?_cons, resolve_standard, hnone, Exports.fallback,
    hfallback]
  dsimp only
  rw [find?_standard hbase hvalue, hlog]
  rfl

end

theorem pointerSize_standardLayout : standardLayout.pointerSize = 8 := by
  have hlog : standardLayout.value? .pointerSizeLog2 = some 3 :=
    value?_standardLayout rfl rfl (by cbv)
  rw [Layout.pointerSize, hlog]
  rfl

theorem value?_objectInternalFields : standardLayout.value? .objectInternalFields = some 24 :=
  (value?_slotAfter rfl rfl (by cbv) rfl rfl (by cbv)).trans (by decide)

theorem value?_fixedArrayData : standardLayout.value? .fixedArrayData = some ((16 : ℕ) : ℤ) :=
  (value?_slotAfter rfl rfl (by cbv) rfl rfl (by cbv)).trans (by decide)

/-! ### Tagged words -/

theorem wide_standardLayout : SmallInt.Wide standardLayout where
  tag := value?_standardLayout rfl rfl (by cbv)
  mask := value?_standardLayout rfl rfl (by cbv)
  shiftSize := value?_standardLayout rfl rfl (by cbv)

theorem toNat_smallInt {n : ℕ} (hn : n < 2 ^ 32) : (smallInt n).toNat = n * 2 ^ 32 := by
  have hshift : (32 : UInt64).toNat % 64 = 32 := rfl
  rw [smallInt, UInt64.toNat_shiftLeft, Word.toNat_ofInt (by omega), hshift, Nat.shiftLeft_eq,
    Nat.mod_eq_of_lt (by omega)]

theorem classify_of_number {n : ℕ} (hn : n < 2 ^ 32) {number : ℤ}
    (hnumber : SmallInt.number standardLayout (smallInt n) = number) :
    Value.classify standardLayout (smallInt n) = .smi (smallInt n) number := by
  have hcheck : SmallInt.check standardLayout (smallInt n) = true := by
    rw [wide_standardLayout.check_eq, toNat_smallInt hn, decide_eq_true_iff]
    omega
  rw [Value.classify, if_pos hcheck, hnumber]

theorem classify_smallInt {n : ℕ} (hn : n < 2 ^ 31) :
    Value.classify standardLayout (smallInt n) = .smi (smallInt n) n := by
  refine classify_of_number (by omega) ?_
  rw [SmallInt.number, wide_standardLayout.shift_eq, Word.signed, toNat_smallInt (by omega),
    if_pos (by rw [UInt64.size]; omega), Int.shiftRight_eq_div_pow]
  omega

theorem classify_odd {object : Address} (hodd : object.word.toNat % 2 = 1) :
    Value.classify standardLayout object.word = .heap object := by
  rw [Value.classify, wide_standardLayout.check_eq, if_neg (by rw [decide_eq_true_iff]; omega)]

/-- Blocks start at even places, so their addresses are tagged. -/
theorem classify_objectAt {start : ℕ} (heven : 2 ∣ start) :
    Value.classify standardLayout (objectAt start).word = .heap (objectAt start) := by
  refine classify_odd ?_
  rw [objectAt, UInt64.toNat_ofNat']
  omega

theorem field_objectAt (start offset : ℕ) :
    (objectAt start).field offset standardLayout = ⟨UInt64.ofNat (start + offset)⟩ := by
  have htag : standardLayout.raw .heapObjectTag = 1 := raw_standardLayout rfl rfl (by cbv)
  rw [Address.field, htag, offset_objectAt]

/-! ### Reads -/

namespace Builder

/-- The heap as it can be looked at. -/
def heap (b : Builder) : Heap := ⟨b.memory.image, standardLayout⟩

theorem layout_heap (b : Builder) : b.heap.layout = standardLayout := rfl

variable {b : Builder} {start offset n : ℕ} {c : Constant}

/-- What stands in the heap as one number can be read. -/
theorem Has.unsigned {place width : ℕ} (hhas : b.Has place (Word.toBytes width n))
    (hpoisoned : b.memory.poisoned = []) (hwidth : isWordWidth width = true)
    (hn : n < 256 ^ width) :
    (HeapM.unsigned ⟨UInt64.ofNat place⟩ width).Yields b.heap (UInt64.ofNat n) := by
  have hfetch := hhas.fetch hpoisoned
  rw [Word.length_toBytes] at hfetch
  have hread : b.heap.image.unsigned? ⟨UInt64.ofNat place⟩ width = some (UInt64.ofNat n) := by
    rw [Image.unsigned?, if_pos hwidth]
    show (b.memory.fetch _ _).map _ = _
    rw [hfetch, Option.map_some, Word.ofBytes_toBytes, Nat.pow_eq, Nat.mod_eq_of_lt hn]
  unfold Yields HeapM.unsigned
  rw [hread]
  rfl

theorem Has.word {place : ℕ} {w : UInt64} (hhas : b.Has place (Word.toBytes 8 w.toNat))
    (hpoisoned : b.memory.poisoned = []) :
    (HeapM.word ⟨UInt64.ofNat place⟩).Yields b.heap w := by
  have hw : w.toNat < 256 ^ 8 := by
    have := w.toNat_lt
    omega
  have hread := hhas.unsigned hpoisoned (by decide) hw
  rwa [UInt64.ofNat_toNat] at hread

theorem Has.valueAt {place : ℕ} {w : UInt64} (hhas : b.Has place (Word.toBytes 8 w.toNat))
    (hpoisoned : b.memory.poisoned = []) :
    (HeapM.valueAt ⟨UInt64.ofNat place⟩).Yields b.heap (.classify standardLayout w) :=
  (hhas.word hpoisoned).bind ((yields_layout.mpr rfl).bind (yields_pure.mpr rfl))

theorem yields_fieldAt (hc : standardLayout.value? c = some (offset : ℤ)) :
    (fieldAt (objectAt start) c).Yields b.heap ⟨UInt64.ofNat (start + offset)⟩ := by
  -- The layout is rewritten first: it must not be unfolded to compare the two sides.
  have hfield := yields_fieldAddress (h := b.heap) (objectAt start) (offset : ℤ)
  have hoffset : (constant c).Yields b.heap (offset : ℤ) := yields_constant.mpr hc
  refine hoffset.bind ?_
  rw [layout_heap, field_objectAt] at hfield
  exact hfield

theorem Has.fieldWord {w : UInt64} (hhas : b.Has (start + offset) (Word.toBytes 8 w.toNat))
    (hc : standardLayout.value? c = some (offset : ℤ)) (hpoisoned : b.memory.poisoned = []) :
    (HeapM.fieldWord (objectAt start) c).Yields b.heap w :=
  (yields_fieldAt hc).bind (hhas.word hpoisoned)

theorem Has.value {w : UInt64} (hhas : b.Has (start + offset) (Word.toBytes 8 w.toNat))
    (hc : standardLayout.value? c = some (offset : ℤ)) (hpoisoned : b.memory.poisoned = []) :
    (HeapM.value (objectAt start) c).Yields b.heap (.classify standardLayout w) :=
  (yields_fieldAt hc).bind (hhas.valueAt hpoisoned)

theorem Has.smallInt (hhas : b.Has (start + offset) (Word.toBytes 8 (smallInt n).toNat))
    (hc : standardLayout.value? c = some (offset : ℤ)) (hstorage : standardLayout.storage c = .smi)
    (hpoisoned : b.memory.poisoned = []) (hn : n < 2 ^ 31) :
    (int (objectAt start) c).Yields b.heap n := by
  refine (yields_fieldAt hc).bind ((yields_layout.mpr rfl).bind ?_)
  rw [layout_heap, hstorage]
  refine (hhas.valueAt hpoisoned).bind ?_
  rw [classify_smallInt hn]
  exact yields_pure.mpr rfl

theorem Has.int32 (hhas : b.Has (start + offset) (numberBytes 4 n))
    (hc : standardLayout.value? c = some (offset : ℤ))
    (hstorage : standardLayout.storage c = .int32) (hpoisoned : b.memory.poisoned = [])
    (hn : n < 2 ^ 31) : (int (objectAt start) c).Yields b.heap n := by
  rw [numberBytes, Word.toNat_ofInt (by omega)] at hhas
  refine (yields_fieldAt hc).bind ((yields_layout.mpr rfl).bind ?_)
  rw [layout_heap, hstorage]
  refine (hhas.unsigned hpoisoned (by decide) (by omega)).bind (yields_pure.mpr ?_)
  rw [UInt64.toNat_ofNat_of_lt' (by rw [UInt64.size]; omega), Word.signed32, UInt32.size]
  simp only [Nat.mod_eq_of_lt (show n < 4294967296 by omega)]
  rw [if_pos (by omega)]

theorem Has.uint16 (hhas : b.Has (start + offset) (numberBytes 2 n))
    (hc : standardLayout.value? c = some (offset : ℤ))
    (hstorage : standardLayout.storage c = .uint16) (hpoisoned : b.memory.poisoned = [])
    (hn : n < 2 ^ 16) : (int (objectAt start) c).Yields b.heap n := by
  rw [numberBytes, Word.toNat_ofInt (by omega)] at hhas
  refine (yields_fieldAt hc).bind ((yields_layout.mpr rfl).bind ?_)
  rw [layout_heap, hstorage]
  refine (hhas.unsigned hpoisoned (by decide) (by omega)).bind (yields_pure.mpr ?_)
  rw [UInt64.toNat_ofNat_of_lt' (by rw [UInt64.size]; omega)]

theorem Has.uint8 (hhas : b.Has (start + offset) [UInt8.ofNat n])
    (hc : standardLayout.value? c = some (offset : ℤ))
    (hstorage : standardLayout.storage c = .uint8) (hpoisoned : b.memory.poisoned = [])
    (hn : n < 2 ^ 8) : (int (objectAt start) c).Yields b.heap n := by
  refine (yields_fieldAt hc).bind ((yields_layout.mpr rfl).bind ?_)
  rw [layout_heap, hstorage]
  have hread : (HeapM.unsigned ⟨UInt64.ofNat (start + offset)⟩ 1).Yields b.heap (UInt64.ofNat n) :=
    Has.unsigned (n := n) hhas hpoisoned (by decide) (by omega)
  refine hread.bind (yields_pure.mpr ?_)
  rw [UInt64.toNat_ofNat_of_lt' (by rw [UInt64.size]; omega)]

end Builder

end Postmortem.Synthetic
