/-
Postmortem/Proofs/Tree.lean

Nodes as trees.

The parts of a shape are what stands inside it, in the order in which it is
found, and the children of a node are the parts of its shape.  From these come
what is within a node, and the paths from a node to a leaf.
-/
import Mathlib.Logic.Relation
import Postmortem.Node

namespace Postmortem

variable {ν : Type}

/-! ### Parts -/

def Element.parts (e : Element ν) : List ν := e.value.toList

def PropertyValue.parts : PropertyValue ν → List ν
  | node n => [n]
  | double _ => []
  | field _ => []
  | unsupported _ => []

def Property.parts (p : Property ν) : List ν := p.value.parts

/-- What stands inside the items of a page. -/
def Page.parts {α : Type} (itemParts : α → List ν) (page : Page α) : List ν :=
  page.items.flatMap itemParts

def ObjectBody.parts (b : ObjectBody ν) : List ν :=
  b.elements.elim [] (Page.parts Element.parts) ++ b.properties.elim [] (Page.parts Property.parts)

def FunctionBody.parts (b : FunctionBody ν) : List ν := b.context.toList

def ContextBody.parts (b : ContextBody ν) : List ν :=
  b.closure.toList ++ (b.scopeInfo.toList ++ b.locals.flatMap Property.parts)

def MapBody.parts (b : MapBody ν) : List ν := b.descriptors.toList

/-- What stands inside a shape. -/
def Shape.parts : Shape ν → List ν
  | object body => body.parts
  | error body _ => body.parts
  | array _ elements => elements.elim [] (Page.parts Element.parts)
  | fixedArray _ elements => elements.elim [] (Page.parts Element.parts)
  | function body => body.parts
  | regExp _ body => body.elim [] ObjectBody.parts
  | context body => body.parts
  | hiddenClass body => body.parts
  | descriptorArray _ entries => entries.elim [] (Page.parts Property.parts)
  | nameDictionary _ entries => entries.elim [] (Page.parts Property.parts)
  | smallInt _ | number .. | string _ | sharedInfo .. | script .. | oddball _ | date _ => []
  | arrayBuffer _ | arrayBufferView _ | scopeInfo _ | symbol _ => []
  | code | global | globalProxy | unknown _ => []

/-- Whether a shape is that of an error. -/
def Shape.isError : Shape ν → Bool
  | error .. => true
  | _ => false

/-! ### Trees -/

namespace Node

variable {n c : Node} {path : List Node}

/-- The nodes right below a node. -/
def children (n : Node) : List Node := n.shape.parts

/-- Whether anything is shown below a node. -/
def isExpanded (n : Node) : Bool := !n.children.isEmpty

/-- A path from a node down to a leaf. -/
inductive Path : Node → List Node → Prop
  | leaf {n : Node} : n.children = [] → Path n [n]
  | down {n c : Node} {path : List Node} : c ∈ n.children → Path c path → Path n (n :: path)

/-- The addresses that are expanded on a path. -/
def expandedOn (path : List Node) : List Address := (path.filter isExpanded).map address

theorem expandedOn_leaf (hn : n.children = []) : expandedOn [n] = [] := by
  have hnot : ¬ n.isExpanded = true := by simp [isExpanded, hn]
  rw [expandedOn, List.filter_cons_of_neg hnot]
  rfl

theorem expandedOn_cons (hc : c ∈ n.children) :
    expandedOn (n :: path) = n.address :: expandedOn path := by
  have hexpanded : n.isExpanded = true := by simp [isExpanded, List.ne_nil_of_mem hc]
  rw [expandedOn, List.filter_cons_of_pos hexpanded]
  rfl

/-- A node is within another if it is the other, or within a child of the other. -/
def Within (inside whole : Node) : Prop :=
  Relation.ReflTransGen (fun n c : Node => c ∈ n.children) whole inside

/-- Nothing within a node is an error. -/
def ErrorFree (n : Node) : Prop := ∀ inside, Within inside n → inside.shape.isError = false

theorem ErrorFree.child (hn : n.ErrorFree) (hc : c ∈ n.children) : c.ErrorFree :=
  fun inside hinside => hn inside (hinside.head hc)

end Node

end Postmortem
