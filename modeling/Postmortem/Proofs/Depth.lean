/-
Postmortem/Proofs/Depth.lean

How deep inspection goes.

The values inside an object are inspected under options that follow from its own
(`optionsInside`): those of a child for most kinds, but a function has its
context shown in detail whatever depth is left.  That these are the only options
that matter is told by comparing inspectors: two that agree under them find the
same (`shapeOf_congr`).

So a path goes down by as many levels in detail as the depth says, by one more
behind a function, and ends with a line.  But nothing sees to it that the slot for
the context of a function holds a context.  Where it holds another function, the
path goes on by one node for each function right inside a function
(`length_le_room`), which no options bound.

Main result: `inspect_path_length_le`.
-/
import Postmortem.Proofs.CycleSafety

namespace Postmortem

open HeapM

/-! ### Paths through functions -/

/-- Whether a shape is that of a function. -/
def Shape.isFunction {ν : Type} : Shape ν → Bool
  | function _ => true
  | _ => false

namespace Node

variable {n c : Node} {path : List Node}

/-- How many nodes of a path are functions right inside a function. -/
def nestedFunctions : List Node → ℕ
  | n :: c :: path =>
    (if n.shape.isFunction && c.shape.isFunction then 1 else 0) + nestedFunctions (c :: path)
  | _ => 0

theorem Path.exists_eq_cons (hpath : n.Path path) : ∃ rest, path = n :: rest := by
  cases hpath with
  | leaf => exact ⟨[], rfl⟩
  | down => exact ⟨_, rfl⟩

/-- The path that goes down through the first value inside each node, for so many levels. -/
def firstPath : ℕ → Node → List Node
  | 0, n => [n]
  | levels + 1, n =>
    match n.children with
    | [] => [n]
    | c :: _ => n :: firstPath levels c

theorem path_firstPath {levels : ℕ} (hlast : ∀ last ∈ (firstPath levels n).getLast?,
    last.children = []) : n.Path (firstPath levels n) := by
  induction levels generalizing n with
  | zero => exact .leaf (hlast n rfl)
  | succ levels ih =>
    rcases hchildren : n.children with - | ⟨c, rest⟩
    · simpa only [firstPath, hchildren] using Path.leaf hchildren
    · simp only [firstPath, hchildren] at hlast ⊢
      refine .down (hchildren ▸ List.mem_cons_self) (ih fun last hmem => hlast last ?_)
      rw [Option.mem_def] at hmem ⊢
      rw [List.getLast?_cons, hmem]
      rfl

end Node

namespace Inspection

variable {h : Heap} {inner inner' : Inspector} {kind : Kind} {object : Address} {o o' : Options}

/-! ### The options inside an object -/

/-- The options under which the values inside an object of a kind are inspected, if it is shown in
detail. -/
def optionsInside : Kind → Options → List Options
  | .function, o => [{ o.child with detailed := true }]
  | .context, o => [o.child, o.summary]
  | .error, o => [o.child, .default]
  | _, o => [o.child]

section

variable (hchild : ∀ v, inner v o.child = inner' v o.child)
include hchild

theorem elementPage_congr {array : Address} {w : Window} :
    elementPage inner array o w = elementPage inner' array o w := by
  have helement : element inner array o = element inner' array o := by
    funext index
    simp only [element, hchild]
  simp only [elementPage, helement]

theorem objectBody_congr : objectBody inner object o = objectBody inner' object o := by
  have hproperty : property inner o = property inner' o := by
    funext ⟨key, slot⟩
    cases slot <;> simp only [property, hchild]
  simp only [objectBody, elementPage_congr hchild, hproperty]

theorem descriptorsShape_congr :
    descriptorsShape inner object o = descriptorsShape inner' object o := by
  have hdescriptor : descriptor inner object o = descriptor inner' object o := by
    funext index
    simp only [descriptor, hchild]
  simp only [descriptorsShape, hdescriptor]

theorem dictionaryShape_congr :
    dictionaryShape inner object o = dictionaryShape inner' object o := by
  have hentry : dictionaryEntry inner o = dictionaryEntry inner' o := by
    funext entry
    simp only [dictionaryEntry, hchild]
  simp only [dictionaryShape, hentry]

end

/-- Inspectors that agree under the options inside an object find the same in it. -/
theorem shapeOf_congr (hagree : ∀ o' ∈ optionsInside kind o, ∀ v, inner v o' = inner' v o') :
    shapeOf inner kind object o = shapeOf inner' kind object o := by
  cases kind with
  | function =>
    have hcontext := hagree _ (List.mem_singleton.mpr rfl)
    simp only [shapeOf, functionBody, hcontext]
  | context =>
    have hchild := hagree o.child (by simp [optionsInside])
    have hsummary := hagree o.summary (by simp [optionsInside])
    simp only [shapeOf, contextBody, hchild, hsummary]
  | error =>
    have hchild := hagree o.child (by simp [optionsInside])
    have hdefault := hagree .default (by simp [optionsInside])
    simp only [shapeOf, errorShape, objectBody_congr hchild, stackLines, hdefault]
  | map =>
    have hchild := hagree o.child (List.mem_singleton.mpr rfl)
    simp only [shapeOf, mapBody, hchild]
  | object => simp only [shapeOf, objectBody_congr (hagree _ (List.mem_singleton.mpr rfl))]
  | regExp => simp only [shapeOf, objectBody_congr (hagree _ (List.mem_singleton.mpr rfl))]
  | array =>
    simp only [shapeOf, arrayShape, elementPage_congr (hagree _ (List.mem_singleton.mpr rfl))]
  | fixedArray =>
    simp only [shapeOf, fixedArrayShape, elementPage_congr (hagree _ (List.mem_singleton.mpr rfl))]
  | descriptorArray => exact descriptorsShape_congr (hagree _ (List.mem_singleton.mpr rfl))
  | nameDictionary => exact dictionaryShape_congr (hagree _ (List.mem_singleton.mpr rfl))
  | _ => rfl

/-- What stands inside a shape was found under the options inside the object. -/
theorem inside_of_mem_shape (hkind : (Kind.of object).Yields h kind) {s : Shape Node}
    (hs : (shapeOf inner kind object o).Yields h s) {n : Node} (hn : n ∈ s.parts) :
    o.detailed = true ∧ ∃ v, ∃ o' ∈ optionsInside kind o, (inner v o').Yields h n := by
  -- An inspector that fails under all other options finds the same shape.
  have hsame : shapeOf inner kind object o =
      shapeOf (fun v o' => if o' ∈ optionsInside kind o then inner v o'
        else fail (.unreadable object 0)) kind object o :=
    shapeOf_congr fun o' ho' v => (if_pos ho').symm
  rw [hsame] at hs
  obtain ⟨hdetailed, v, o', hinside⟩ := inner_of_mem_shape hkind hs hn
  refine ⟨hdetailed, v, o', ?_⟩
  split at hinside
  case isTrue ho' => exact ⟨ho', hinside⟩
  case isFalse => exact absurd hinside yields_fail

/-! ### Levels -/

variable {levels : ℕ} {ancestors : List Address} {v : Value} {n c : Node} {path : List Node}

theorem isFunction_of_shapeOf {s : Shape Node}
    (hs : (shapeOf inner .function object o).Yields h s) : s.isFunction = true := by
  obtain ⟨body, -, hs⟩ := yields_bind.mp hs
  cases yields_pure.mp hs
  rfl

/-- A child was found further down, under the options inside its parent. -/
theorem below_inside (hn : (below levels ancestors v o).Yields h n) (hc : c ∈ n.children) :
    o.detailed = true ∧ ∃ kind, (kind = .function → n.shape.isFunction = true) ∧
      ∃ levels' v', ∃ o' ∈ optionsInside kind o,
        (below levels' (n.address :: ancestors) v' o').Yields h c := by
  cases v with
  | smi =>
    cases levels <;> cases yields_pure.mp hn <;> cases hc
  | heap object =>
    cases levels with
    | zero => exact absurd hn yields_giveUp
    | succ levels =>
      obtain ⟨kind, shape, map, hkind, hshape, -, rfl⟩ := yields_below.mp hn
      obtain ⟨hdetailed, v', o', ho', hc⟩ := inside_of_mem_shape hkind hshape hc
      obtain ⟨hnotMem, hdetailed⟩ := notMem_of_detailed hdetailed
      rw [optionsBelow, if_neg (by simpa using hnotMem)] at ho' hshape
      refine ⟨hdetailed, kind, ?_, levels, v', o', ho', hc⟩
      rintro rfl
      exact isFunction_of_shapeOf hshape

/-- Inside anything but a function, values are shown as children or as lines. -/
theorem child_or_line (hkind : kind ≠ .function) (ho' : o' ∈ optionsInside kind o) :
    o' = o.child ∨ o'.detailed = false := by
  cases kind with
  | function => exact absurd rfl hkind
  | context =>
    rcases List.mem_cons.mp ho' with rfl | ho'
    · exact .inl rfl
    · exact .inr (List.mem_singleton.mp ho' ▸ rfl)
  | error =>
    rcases List.mem_cons.mp ho' with rfl | ho'
    · exact .inl rfl
    · exact .inr (List.mem_singleton.mp ho' ▸ rfl)
  | _ => exact .inl (List.mem_singleton.mp ho')

/-- How many nodes a path may have from a node on, but for functions right inside functions. -/
def room (o : Options) (n : Node) : ℕ :=
  if o.detailed then o.depth + if 0 < o.depth || n.shape.isFunction then 3 else 2 else 1

theorem room_line (hline : o.detailed = false) : room o n = 1 := by
  simp [room, hline]

theorem room_detailed (hdetailed : o.detailed = true) :
    room o n = o.depth + if 0 < o.depth || n.shape.isFunction then 3 else 2 :=
  if_pos hdetailed

theorem one_lt_room (hdetailed : o.detailed = true) : 1 < room o n := by
  rw [room_detailed hdetailed]
  split <;> omega

theorem room_child_lt (hdetailed : o.detailed = true) : room o.child c < room o n := by
  by_cases hdepth : 0 < o.depth
  · have hchild : o.child.detailed = true := decide_eq_true hdepth
    have hless : o.child.depth = o.depth - 1 := rfl
    rw [room_detailed hdetailed, room_detailed hchild, hless]
    simp only [hdepth, decide_true, Bool.true_or, if_true]
    split <;> omega
  · rw [room_line (o := o.child) (decide_eq_false hdepth)]
    exact one_lt_room hdetailed

/-- A context has less room than its function, unless it is a function itself. -/
theorem room_context_lt (hdetailed : o.detailed = true) (hn : n.shape.isFunction = true) :
    room { o.child with detailed := true } c <
      room o n + if c.shape.isFunction then 1 else 0 := by
  have hless : ({ o.child with detailed := true } : Options).depth = o.depth - 1 := rfl
  rw [room_detailed hdetailed, room_detailed rfl, hless, hn]
  rcases c.shape.isFunction with - | -
  · simp only [Bool.or_false, decide_eq_true_eq, Bool.or_true, if_true, Bool.false_eq_true,
      if_false]
    split <;> omega
  · simp only [Bool.or_true, if_true]
    omega

/-- A child has less room than its parent, unless both are functions. -/
theorem room_lt (hdetailed : o.detailed = true)
    (hkind : kind = .function → n.shape.isFunction = true) (ho' : o' ∈ optionsInside kind o) :
    room o' c < room o n + if n.shape.isFunction && c.shape.isFunction then 1 else 0 := by
  by_cases hfunction : kind = .function
  · subst hfunction
    cases List.mem_singleton.mp ho'
    rw [hkind rfl, Bool.true_and]
    exact room_context_lt hdetailed (hkind rfl)
  · refine Nat.lt_add_right _ ?_
    rcases child_or_line hfunction ho' with rfl | hline
    · exact room_child_lt hdetailed
    · rw [room_line hline]
      exact one_lt_room hdetailed

/-- A path is no longer than there is room, but for functions right inside functions. -/
theorem length_le_room (hpath : n.Path path) (hn : (below levels ancestors v o).Yields h n) :
    path.length ≤ room o n + Node.nestedFunctions path := by
  induction hpath generalizing levels ancestors v o with
  | leaf =>
    rcases hdetailed : o.detailed with - | -
    · rw [room_line hdetailed]
      exact Nat.le_add_right ..
    · exact (one_lt_room hdetailed).le.trans (Nat.le_add_right ..)
  | @down n c path hc hpath ih =>
    obtain ⟨hdetailed, kind, hkind, levels', v', o', ho', hbelow⟩ := below_inside hn hc
    have hlt := room_lt (c := c) hdetailed hkind ho'
    have hle := ih hbelow
    obtain ⟨rest, rfl⟩ := hpath.exists_eq_cons
    rw [List.length_cons, Node.nestedFunctions]
    omega

end Inspection

/-! ### Inspection -/

section

variable {h : Heap} {v : Value} {o : Options} {n : Node} {path : List Node}

/-- A path has at most three nodes more than the depth that was asked for, and one more for each
function that stands right inside a function. -/
theorem inspect_path_length_le (hdetailed : o.detailed = true) (hn : (inspect v o).Yields h n)
    (hpath : n.Path path) : path.length ≤ o.depth + 3 + Node.nestedFunctions path := by
  have hroom : Inspection.room o n ≤ o.depth + 3 := by
    rw [Inspection.room_detailed hdetailed]
    split <;> omega
  exact (Inspection.length_le_room hpath hn).trans (Nat.add_le_add_right hroom _)

end

/-! ### A chain of functions -/

open Synthetic

/-- Four functions without a script or a name.  The slot for the context of each but the last holds
the next. -/
def functionChainHeap : Heap where
  layout := listedLayout (flatConstants ++ [
    (.typeJsFunction, 140), (.functionShared, 8), (.functionContext, 16), (.sharedName, 0),
    (.sharedScript, 8)])
  image := listedImage [
    (⟨0x100c⟩, Word.toBytes 2 140),
    (⟨0x1800⟩, wordsBytes [0, 0]),
    (⟨0x2000⟩, wordsBytes [0x1001, 0x1801, 0x3001]),
    (⟨0x3000⟩, wordsBytes [0x1001, 0x1801, 0x4001]),
    (⟨0x4000⟩, wordsBytes [0x1001, 0x1801, 0x5001]),
    (⟨0x5000⟩, wordsBytes [0x1001, 0x1801, 0])]

/-- Where no depth is asked for, all four functions are found inside each other. -/
theorem exists_path_functionChainHeap :
    ∃ n path, (inspect (.heap ⟨0x2001⟩) shallowOptions).Yields functionChainHeap n ∧ n.Path path ∧
      path.length = 4 ∧ Node.nestedFunctions path = 3 := by
  have hfirst : (inspect (.heap ⟨0x2001⟩) shallowOptions functionChainHeap).result.toOption.map
      (fun n => (((Node.firstPath 3 n).getLast?.map fun last => last.children.isEmpty),
        (Node.firstPath 3 n).length, Node.nestedFunctions (Node.firstPath 3 n))) =
      some (some true, 4, 3) := by decide +kernel
  obtain ⟨n, hn, hfound⟩ := Option.map_eq_some_iff.mp hfirst
  obtain ⟨hlast, hlength, hnested⟩ : _ ∧ _ ∧ _ := by simpa only [Prod.mk.injEq] using hfound
  refine ⟨n, Node.firstPath 3 n, yields_iff_toOption.mpr hn,
    Node.path_firstPath fun last hmem => ?_, hlength, hnested⟩
  rw [Option.mem_def.mp hmem] at hlast
  simpa using hlast

theorem inspect_path_length_le_chain :
    ∃ n path, shallowOptions.detailed = true ∧
      (inspect (.heap ⟨0x2001⟩) shallowOptions).Yields functionChainHeap n ∧ n.Path path ∧
      path.length = 4 ∧ path.length ≤ shallowOptions.depth + 3 + Node.nestedFunctions path := by
  obtain ⟨n, path, hn, hpath, hlength, -⟩ := exists_path_functionChainHeap
  exact ⟨n, path, rfl, hn, hpath, hlength, inspect_path_length_le rfl hn hpath⟩

/-- The depth alone does not bound the paths: four nodes stand below each other where three may. -/
theorem inspect_path_length_gt :
    ∃ n path, shallowOptions.detailed = true ∧
      (inspect (.heap ⟨0x2001⟩) shallowOptions).Yields functionChainHeap n ∧ n.Path path ∧
      shallowOptions.depth + 3 < path.length := by
  obtain ⟨n, path, hn, hpath, hlength, -⟩ := exists_path_functionChainHeap
  exact ⟨n, path, rfl, hn, hpath, by rw [hlength]; decide⟩

end Postmortem
