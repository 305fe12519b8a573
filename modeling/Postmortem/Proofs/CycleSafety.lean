/-
Postmortem/Proofs/CycleSafety.lean

Inspection ends, whatever the objects of a heap point to.

Options do not see to that: a function shows its context in detail however little
depth is left.  What does is that the ancestors of a value that is looked into
are different addresses.  An object among its own ancestors is shown as a line,
and a line has nothing inside; any other object is one more ancestor, and there
are no more than `2 ^ 64`.  So the levels never run out (`quiet_below`), and on no
path is an address expanded twice (`nodup_expandedOn_below`).

Only strings are looked through without that check, so a string that is made of
itself has to be ruled out.  Then the line of every frame is found in the end as
well, since a frame shows values (`FrameSummary.quiet_of`).

Main result: `inspect_cycleSafe`.
-/
import Mathlib.SetTheory.Cardinal.NatCard
import Postmortem.Frame.Summary
import Postmortem.Proofs.Level
import Postmortem.Proofs.Listing

namespace Postmortem

open HeapM

namespace Inspection

variable {h : Heap} {levels : Nat} {ancestors : List Address} {object : Address} {v : Value}
  {o : Options} {n : Node}

/-! ### Levels -/

/-- Details are shown only of an object that is not inside itself. -/
theorem notMem_of_detailed (hdetailed : (optionsBelow ancestors object o).detailed = true) :
    object ∉ ancestors ∧ o.detailed = true := by
  unfold optionsBelow at hdetailed
  split at hdetailed
  case isTrue => cases hdetailed
  case isFalse hnot => exact ⟨by simpa using hnot, hdetailed⟩

/-- The levels do not run out where there are more than addresses that are no ancestors. -/
theorem quiet_below (hstrings : StringsAcyclic h) (hancestors : ancestors.Nodup)
    (hlevels : Nat.card Address < levels + ancestors.length) (v : Value) (o : Options) :
    (below levels ancestors v o h).gaveUp = false := by
  induction levels generalizing ancestors v o with
  | zero =>
    -- There are no more ancestors than addresses, so some level is left.
    have hle := hancestors.length_le_natCard
    omega
  | succ levels ih =>
    cases v with
    | smi => rfl
    | heap object =>
      refine gaveUp_bind (Kind.quiet_of hstrings) fun kind hkind => ?_
      -- Where the values inside are looked at, the object is one more ancestor.
      refine gaveUp_bind (quiet_shapeOf hstrings hkind fun hdetailed v o => ?_) fun shape _ => ?_
      · refine ih (List.nodup_cons.mpr ⟨(notMem_of_detailed hdetailed).1, hancestors⟩) ?_ v o
        rw [List.length_cons]
        omega
      · exact gaveUp_bind (reads_shownMap.quiet hstrings) fun _ _ => rfl

/-! ### Paths -/

/-- A child was found further down, below an object that is no ancestor. -/
theorem below_child (hn : (below levels ancestors v o).Yields h n) {c : Node}
    (hc : c ∈ n.children) :
    o.detailed = true ∧ n.address ∉ ancestors ∧
      ∃ levels' v' o', (below levels' (n.address :: ancestors) v' o').Yields h c := by
  cases v with
  | smi =>
    cases levels <;> cases yields_pure.mp hn <;> cases hc
  | heap object =>
    cases levels with
    | zero => exact absurd hn yields_giveUp
    | succ levels =>
      obtain ⟨kind, shape, map, hkind, hshape, -, rfl⟩ := yields_below.mp hn
      obtain ⟨hdetailed, v', o', hc⟩ := inner_of_mem_shape hkind hshape hc
      obtain ⟨hnotMem, hdetailed⟩ := notMem_of_detailed hdetailed
      exact ⟨hdetailed, hnotMem, levels, v', o', hc⟩

/-- On a path down from a node no address is expanded twice, and no ancestor is. -/
theorem nodup_expandedOn_below {path : List Node} (hpath : n.Path path)
    (hn : (below levels ancestors v o).Yields h n) :
    (Node.expandedOn path).Nodup ∧ ∀ a ∈ Node.expandedOn path, a ∉ ancestors := by
  induction hpath generalizing levels ancestors v o with
  | leaf hleaf =>
    rw [Node.expandedOn_leaf hleaf]
    exact ⟨List.nodup_nil, nofun⟩
  | @down n c path hc _ ih =>
    obtain ⟨-, hnotMem, levels', v', o', hbelow⟩ := below_child hn hc
    -- To the child the node is an ancestor, so it is not expanded again further down.
    obtain ⟨hnodup, hancestors⟩ := ih hbelow
    rw [Node.expandedOn_cons hc]
    refine ⟨List.nodup_cons.mpr ⟨fun hmem => ?_, hnodup⟩, fun a ha => ?_⟩
    · exact hancestors _ hmem List.mem_cons_self
    · rcases List.mem_cons.mp ha with rfl | ha
      · exact hnotMem
      · exact fun hmem => hancestors a ha (List.mem_cons_of_mem _ hmem)

end Inspection

/-! ### Inspection -/

section

variable {h : Heap}

/-- Where strings are not made of themselves, every inspection ends; no path of what it finds
expands an address twice; and where no details are asked for nothing stands inside. -/
theorem inspect_cycleSafe (hstrings : StringsAcyclic h) (v : Value) (o : Options) :
    (inspect v o h).gaveUp = false ∧
      ∀ n, (inspect v o h).result = .ok n →
        (∀ path, n.Path path → (Node.expandedOn path).Nodup) ∧
          (o.detailed = false → n.children = []) := by
  have hlevels : Nat.card Address < Inspection.maxLevels + ([] : List Address).length :=
    card_address_le.trans_lt (by decide +kernel)
  refine ⟨Inspection.quiet_below hstrings List.nodup_nil hlevels v o, fun n hn => ⟨?_, ?_⟩⟩
  · exact fun path hpath => (Inspection.nodup_expandedOn_below hpath hn).1
  · intro hline
    refine List.eq_nil_iff_forall_not_mem.mpr fun c hc => ?_
    obtain ⟨hdetailed, -⟩ := Inspection.below_child hn hc
    rw [hline] at hdetailed
    cases hdetailed

/-! ### An array inside itself -/

open Synthetic

/-- An array of two: itself, and the string `hi`. -/
def cyclicHeap : Heap where
  layout := listedLayout flatConstants
  image := listedImage [
    (⟨0x100c⟩, Word.toBytes 2 134), (⟨0x110c⟩, Word.toBytes 2 8),
    (⟨0x2000⟩, Word.toBytes 8 0x1001 ++ Word.toBytes 8 (2 * 2 ^ 32) ++ Word.toBytes 8 0x2001 ++
      Word.toBytes 8 0x3001),
    (⟨0x3000⟩, headerBytes 0x1101 2 ++ [0x68, 0x69])]

def deepOptions : Options := { Options.default with detailed := true, depth := 3 }

theorem stringsAcyclic_cyclicHeap : StringsAcyclic cyclicHeap :=
  stringsAcyclic_of_flat (by decide +kernel) (by decide +kernel) (by decide +kernel)

theorem inspect_cycleSafe_selfArray :
    StringsAcyclic cyclicHeap ∧
      ((inspect (.heap ⟨0x2001⟩) deepOptions cyclicHeap).result.toOption.map fun n =>
        n.children.map Node.address) = some [⟨0x2001⟩, ⟨0x3001⟩] ∧
      (inspect (.heap ⟨0x2001⟩) deepOptions cyclicHeap).gaveUp = false ∧
      ∀ n, (inspect (.heap ⟨0x2001⟩) deepOptions cyclicHeap).result = .ok n →
        (∀ path, n.Path path → (Node.expandedOn path).Nodup) ∧
          (deepOptions.detailed = false → n.children = []) :=
  ⟨stringsAcyclic_cyclicHeap, by decide +kernel,
    inspect_cycleSafe stringsAcyclic_cyclicHeap (.heap ⟨0x2001⟩) deepOptions⟩

end

/-! ### Frames -/

namespace ManagedFrame

variable {h : Heap} {S : Address → Prop} {fp function : Address} {c : Constant}

theorem strict_slotAddress : Strict h S (slotAddress fp c) :=
  .bind strict_constant fun _ => .pure

theorem strict_markerAt : Strict h S (markerAt fp c) :=
  .bind strict_slotAddress fun _ => .bind strict_word fun _ => .bind .layout fun _ => .pure

theorem strict_ofMarker {marker : Int} : Strict h S (ofMarker marker) := by
  refine .bind .layout fun l => ?_
  split
  · exact .pure
  · exact .ite .pure .fail

theorem strict_ofMarkers : Strict h S (ofMarkers fp) := by
  refine .bind strict_markerAt fun context => .bind .layout fun l => .ite .pure ?_
  refine .bind strict_markerAt fun found => ?_
  split
  · exact strict_ofMarker
  · exact .pure

/-- The values that a call shows are inspected, and that ends. -/
theorem quiet_ofFunction (hstrings : StringsAcyclic h) :
    (ofFunction fp function h).gaveUp = false := by
  have hread {α : Type} {x : HeapM α} (hx : Reads h x) : (x h).gaveUp = false := hx.quiet hstrings
  have hshown (v : Value) : (inspect v .default h).gaveUp = false :=
    (inspect_cycleSafe hstrings v .default).1
  refine gaveUp_bind (hread strict_pointer) fun shared _ =>
    gaveUp_bind (hread strict_int) fun count _ =>
    gaveUp_bind (hread strict_slotAddress) fun arguments _ =>
    gaveUp_bind (hread strict_pointerSize) fun size _ =>
    gaveUp_bind (hread strict_valueAt) fun receiver _ =>
    gaveUp_bind (hshown receiver) fun shown _ => gaveUp_bind ?_ fun _ _ => ?_
  · exact Inspection.gaveUp_forRange (fun index =>
      gaveUp_bind (hread strict_valueAt) fun argument _ => hshown argument) 0 _
  · exact hread (.bind SharedInfo.reads_properName fun _ =>
      .bind SharedInfo.reads_location fun _ => .pure)

theorem quiet_of (hstrings : StringsAcyclic h) : (ManagedFrame.of fp h).gaveUp = false := by
  have hread {α : Type} {x : HeapM α} (hx : Reads h x) : (x h).gaveUp = false := hx.quiet hstrings
  refine gaveUp_bind (hread strict_ofMarkers) fun kind _ => ?_
  cases kind with
  | some kind => rfl
  | none =>
    refine gaveUp_bind (hread strict_slotAddress) fun slot _ =>
      gaveUp_bind (hread strict_valueAt) fun found _ => ?_
    cases found with
    | smi => rfl
    | heap function =>
      refine gaveUp_bind (hread strict_typeId) fun type _ => gaveUp_bind rfl fun l _ => ?_
      split
      · rfl
      · split
        · exact gaveUp_bind (quiet_ofFunction hstrings) fun _ _ => rfl
        · rfl

end ManagedFrame

/-- Where strings are not made of themselves, every frame has a line in the end. -/
theorem FrameSummary.quiet_of {h : Heap} (hstrings : StringsAcyclic h) (f : Frame) :
    (FrameSummary.of f h).gaveUp = false := by
  unfold FrameSummary.of
  split
  · rfl
  · exact gaveUp_bind (gaveUp_attempt.trans (ManagedFrame.quiet_of hstrings)) fun _ _ => rfl

end Postmortem
