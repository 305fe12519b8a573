/-
Postmortem/Layout.lean

The layout of one V8 build: the value of every constant it exports.

Builds leave out what they have no use for, so loading never fails.  A
constant takes the value of its first spelling that resolves; otherwise its
fallback, if it has one; otherwise it is missing, and whoever needs it finds
out then.  `Layout.missing` lists the missing ones in the order in which they
were looked up, and `Exports.lookups` every name that was asked for.
-/
import Postmortem.Layout.Constant
import Postmortem.Word

namespace Postmortem

/-! ### Exported constants -/

/-- The named numbers that a build exports, and the identity of the target they belong to. -/
structure Exports where
  target : UInt64
  /-- Resolves a full symbol name. -/
  resolve : String → Option Int

/-- The symbol under which a build exports a constant. -/
def exportedName (name : String) : String := "v8dbg_" ++ name

/-- The number of bytes of a slot, from its exported binary logarithm; eight if that makes no
sense. -/
def slotBytes : Option Int → Nat
  | some log2 => if 0 ≤ log2 ∧ log2 < 64 then 1 <<< log2.toNat else 8
  | none => 8

/-- What is known of a constant. -/
structure Entry where
  value : Option Int
  storage : Option Storage
  deriving DecidableEq, Inhabited

namespace Exports

/-- The value of the first spelling that resolves. -/
def find? (x : Exports) (c : Constant) : Option (Int × Option Storage) :=
  c.spellings.findSome? fun s => (x.resolve (exportedName s.name)).map (·, s.storage)

/-- Whether a constant that makes `c` superfluous resolves. -/
def supersedes (x : Exports) (c : Constant) : Bool :=
  c.supersededBy.any fun d => (x.find? d).isSome

/-- The number that stands in for `c`, as a signed word. -/
def fallback (x : Exports) (c : Constant) : Option Int :=
  match c.fallback with
  | .missing => none
  | .number value => some value
  | .slotAfter base =>
    (x.find? base).map fun found =>
      Word.signed (Word.ofInt (found.1 + slotBytes ((x.find? .pointerSizeLog2).map (·.1))))

/-- What the exports say about `c`. -/
def entry (x : Exports) (c : Constant) : Entry :=
  let absent := ⟨none, c.canonical.storage⟩
  if x.supersedes c then absent
  else
    match x.find? c with
    | some (value, storage) => ⟨some value, storage⟩
    | none => { absent with value := x.fallback c }

/-- The names asked for on behalf of `c`: up to the first one that resolves. -/
def lookupsOf (x : Exports) (c : Constant) : List String :=
  if x.supersedes c then []
  else
    let names := c.spellings.map fun s => exportedName s.name
    let unresolved := names.takeWhile fun name => (x.resolve name).isNone
    unresolved ++ (names.drop unresolved.length).take 1

/-- The names asked for when a layout is loaded, in order. -/
def lookups (x : Exports) : List String := Constant.all.flatMap x.lookupsOf

end Exports

/-! ### Layouts -/

/-- The entries of all constants, by index. -/
structure Layout where
  entries : Array Entry

namespace Layout

/-- The layout that `x` exports. -/
def load (x : Exports) : Layout := ⟨(Constant.all.map x.entry).toArray⟩

def entry (l : Layout) (c : Constant) : Entry :=
  l.entries[c.ctorIdx]?.getD ⟨none, c.canonical.storage⟩

theorem entry_load (x : Exports) (c : Constant) : (load x).entry c = x.entry c := by
  simp [load, entry, Constant.all_ctorIdx]

/-- The value of a constant, if the build has one. -/
def value? (l : Layout) (c : Constant) : Option Int := (l.entry c).value

/-- The value of a constant, minus one if it is missing. -/
def raw (l : Layout) (c : Constant) : Int := (l.value? c).getD (-1)

def has (l : Layout) (c : Constant) : Bool := (l.value? c).isSome

/-- Whether a constant is known and equal to `value`. -/
def agrees (l : Layout) (c : Constant) (value : Int) : Bool := l.value? c == some value

/-- How the field at a constant's offset is stored; a slot if no spelling says so. -/
def storage (l : Layout) (c : Constant) : Storage := (l.entry c).storage.getD .tagged

/-- Whether `c` is superfluous because a better constant is known. -/
def isSuperseded (l : Layout) (c : Constant) : Bool := c.supersededBy.any l.has

/-- The constants that the build should have and has not, in the order of lookup. -/
def missing (l : Layout) : List Constant :=
  Constant.all.filter fun c => !l.has c && !l.isSuperseded c

/-- How many bytes a slot takes. -/
def pointerSize (l : Layout) : Nat := slotBytes (l.value? .pointerSizeLog2)

/-! ### Type ids -/

/-- Contexts occupy a range of type ids, ends included. -/
def isContext (l : Layout) (typeId : Int) : Bool :=
  match l.value? .typeFirstContext, l.value? .typeLastContext with
  | some first, some last => first ≤ typeId && typeId ≤ last
  | _, _ => false

/-- Ordinary objects, and those of embedders. -/
def isPlainObject (l : Layout) (typeId : Int) : Bool :=
  l.agrees .typeJsObject typeId || l.agrees .typeJsApiObject typeId
    || l.agrees .typeJsSpecialApiObject typeId

/-- Strings occupy the type ids below the first one that is not a string's. -/
def isString (l : Layout) (typeId : Int) : Bool :=
  (l.value? .typeFirstNonstring).any (typeId < ·)

/-! ### Derived offsets -/

/-- The slot of a dictionary's first entry, past its header. -/
def dictionaryStart? (l : Layout) : Option Int :=
  match l.value? .dictionaryPrefixStart, l.value? .dictionaryPrefixSize with
  | some start, some size => some (start + size)
  | _, _ => none

/-- The constant that tells where in-object properties are: the start if known, else the count. -/
def inObjectConstant (l : Layout) : Constant :=
  if l.has .mapInObjectStart then .mapInObjectStart else .mapInObjectCount

/-- Whether the names of parameters and stack locals come before those of context locals. -/
def embedsStackLocals (l : Layout) : Bool := l.has .scopeStackLocalCount

end Layout

end Postmortem
