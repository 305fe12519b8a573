/-
Postmortem/Proofs/MapAddresses.lean

Showing the address of an object's map.

Whether it is shown is an option of the object that is asked for, and of no value inside:
the options of a child, of a line, of the context of a function and of a captured frame
leave it out (`includeMapAddress_of_mem`), so no node further down has one, also where it
stands for the same object again (`mapAddress_of_within`).

Nor does the option change what is found.  It is looked at once the object has been gone
through (`below_shown`), and the map has been read by then, for the kind of the object:
reading its address does not fail any more.

Main result: `inspect_includeMapAddress`.
-/
import Postmortem.Proofs.Depth
import Postmortem.Proofs.FailClosed

namespace Postmortem

open HeapM

/-! ### Nodes -/

namespace Node

/-- The node with the address of a map. -/
def withMap (n : Node) (map : Address) : Node := .mk n.address (some map) n.shape

/-- No node below has the address of a map. -/
def HidesMapsBelow (n : Node) : Prop :=
  ∀ c ∈ n.children, ∀ inside, Within inside c → inside.mapAddress = none

end Node

/-- What is found of a value with and without the address of a map.  For a small integer that is the
same; for an object both inspections fail alike, or one node is the other with the address of the
object's map, and no node below has one. -/
inductive RootMapOnly (h : Heap) : Value → Except Failure Node → Except Failure Node → Prop
  | smallInt {raw : UInt64} {number : ℤ} {n : Node} (hn : n = .mk ⟨raw⟩ none (.smallInt number)) :
      RootMapOnly h (.smi raw number) (.ok n) (.ok n)
  | failed {object : Address} (e : Failure) : RootMapOnly h (.heap object) (.error e) (.error e)
  | found {object map : Address} {n : Node}
      (hmap : (fieldWord object .heapObjectMap).Yields h map.word)
      (hroot : n.mapAddress = none) (hbelow : n.HidesMapsBelow) :
      RootMapOnly h (.heap object) (.ok (n.withMap map)) (.ok n)

namespace Inspection

variable {h : Heap} {levels : ℕ} {ancestors : List Address} {object : Address} {v : Value}
  {kind : Kind} {o o' : Options} {n inside : Node}

/-! ### Further down -/

/-- Inside an object no address of a map is asked for. -/
theorem includeMapAddress_of_mem (ho' : o' ∈ optionsInside kind o) :
    o'.includeMapAddress = false := by
  cases kind with
  | context =>
    rcases List.mem_cons.mp ho' with rfl | ho'
    · rfl
    · rw [List.mem_singleton.mp ho']
      rfl
  | error =>
    rcases List.mem_cons.mp ho' with rfl | ho'
    · rfl
    · rw [List.mem_singleton.mp ho']
      rfl
  | _ =>
    rw [List.mem_singleton.mp ho']
    rfl

theorem mapAddress_of_below (hn : (below levels ancestors v o).Yields h n)
    (ho : o.includeMapAddress = false) : n.mapAddress = none := by
  cases v with
  | smi =>
    cases levels <;> cases yields_pure.mp hn <;> rfl
  | heap object =>
    cases levels with
    | zero => exact absurd hn yields_giveUp
    | succ levels =>
      obtain ⟨kind, shape, map, -, -, hmap, rfl⟩ := yields_below.mp hn
      -- Where the object is met again, it is shown as a line, which has none either.
      have hnot : (optionsBelow ancestors object o).includeMapAddress = false := by
        unfold optionsBelow
        split
        · rfl
        · exact ho
      rw [shownMap, hnot] at hmap
      exact (yields_pure.mp hmap).symm

theorem mapAddress_of_within (hn : (below levels ancestors v o).Yields h n)
    (ho : o.includeMapAddress = false) (hinside : Node.Within inside n) :
    inside.mapAddress = none := by
  induction hinside using Relation.ReflTransGen.head_induction_on generalizing levels ancestors v o
    with
  | refl => exact mapAddress_of_below hn ho
  | head hc _ ih =>
    obtain ⟨-, kind, -, levels', v', o', ho', hbelow⟩ := below_inside hn hc
    exact ih hbelow (includeMapAddress_of_mem ho')

/-- Whether the object itself is asked for with the address of its map does not matter. -/
theorem hidesMapsBelow_of_below (hn : (below levels ancestors v o).Yields h n) :
    n.HidesMapsBelow := by
  intro c hc inside hinside
  obtain ⟨-, kind, -, levels', v', o', ho', hbelow⟩ := below_inside hn hc
  exact mapAddress_of_within hbelow (includeMapAddress_of_mem ho') hinside

/-! ### At the root -/

theorem shapeOf_includeMapAddress {m : Type → Type} [MonadHeap m]
    (inner : Value → Options → m Node) (kind : Kind) (object : Address) (o : Options) (b : Bool) :
    shapeOf inner kind object { o with includeMapAddress := b } = shapeOf inner kind object o := by
  cases kind <;> rfl

theorem yields_mapWord {map : Address} (hmap : (Map.of object).Yields h map) :
    (fieldWord object .heapObjectMap).Yields h map.word := by
  obtain ⟨word, hword, hmap⟩ := yields_bind.mp hmap
  cases yields_pure.mp hmap
  exact hword

/-- To show the address of the map is to go through the object without it, and to read it then. -/
theorem below_shown :
    below (levels + 1) [] (.heap object) { o with includeMapAddress := true } = (do
      let n ← below (levels + 1) [] (.heap object) { o with includeMapAddress := false }
      let map ← Map.of object
      pure (n.withMap map)) := by
  have hroot (o : Options) : below (levels + 1) [] (.heap object) o = (do
      let kind ← Kind.of object
      let shape ← shapeOf (below levels [object]) kind object o
      let map ← shownMap object o
      pure (.mk object map shape)) := rfl
  have hshown : shownMap object { o with includeMapAddress := true } =
      (do pure (some (← Map.of object))) := if_pos rfl
  have hhidden : shownMap object { o with includeMapAddress := false } = pure none := if_neg nofun
  rw [hroot, hroot]
  simp only [shapeOf_includeMapAddress, hshown, hhidden, bind_assoc, pure_bind]
  rfl

theorem rootMapOnly_below (v : Value) (o : Options) :
    RootMapOnly h v
      (below (levels + 1) [] v { o with includeMapAddress := true } h).result
      (below (levels + 1) [] v { o with includeMapAddress := false } h).result := by
  cases v with
  | smi raw number => exact .smallInt rfl
  | heap object =>
    rw [below_shown]
    rcases hhidden : (below (levels + 1) [] (.heap object)
      { o with includeMapAddress := false } h).result with e | n
    · rw [bind_error hhidden]
      exact .failed e
    · have hn : (below (levels + 1) [] (.heap object)
        { o with includeMapAddress := false }).Yields h n := hhidden
      -- The kind of the object is known by now, so its map has been read before.
      obtain ⟨kind, -, -, hkind, -⟩ := yields_below.mp hn
      obtain ⟨map, hmap⟩ := Kind.exists_map_of_yields hkind
      rw [hn.result_bind, hmap.result_bind]
      exact .found (yields_mapWord hmap) (mapAddress_of_below hn rfl) (hidesMapsBelow_of_below hn)

end Inspection

/-! ### Inspection -/

/-- Showing the address of the map changes nothing for a small integer.  For an object it adds that
address to the node of the object, if there is one, and to none below. -/
theorem inspect_includeMapAddress (c : Capture) (g : ℕ) (word : Address) (o : Options) :
    RootMapOnly c.heap (.classify c.heap.layout word.word)
      ((Session.start g).inspect c word { o with includeMapAddress := true }).1.result
      ((Session.start g).inspect c word { o with includeMapAddress := false }).1.result := by
  rw [Session.inspect_start, Session.inspect_start]
  exact Inspection.rootMapOnly_below (.classify c.heap.layout word.word) o

/-- An array inside itself has the address of its map where it was asked for, and not inside. -/
example :
    ((inspect (.heap ⟨0x2001⟩) { deepOptions with includeMapAddress := true }
      cyclicHeap).result.toOption.map fun n =>
        (n :: n.children).map fun c => (c.address, c.mapAddress)) =
      some [(⟨0x2001⟩, some ⟨0x1001⟩), (⟨0x2001⟩, none), (⟨0x3001⟩, none)] := by
  decide +kernel

end Postmortem
