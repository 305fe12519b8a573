/-
Postmortem/Decoder.lean

Inspecting with a decoder that keeps its place.

`inspect` hands the ancestors of a value down as an argument.  A decoder keeps
them itself, and serves one request after the other: it enters an object before
it looks inside and leaves it when it is done.  A step that fails leaves a decoder
behind as well, so the decoder stands beside the outcome and not in its result
(`DecoderM`), and an object is left whatever became of the steps inside (`within`).

What is found in an object of each kind is `Inspection.shapeOf` here, too.
-/
import Postmortem.Inspection

namespace Postmortem

/-- A decoder: the objects it is inside of, the innermost first. -/
structure Decoder where
  ancestors : List Address
  deriving DecidableEq

namespace Decoder

/-- The decoder that is inside of nothing. -/
def new : Decoder := ⟨[]⟩

/-- The decoder inside of one more object. -/
def enter (d : Decoder) (object : Address) : Decoder := ⟨object :: d.ancestors⟩

/-- The decoder outside of the object that was entered last. -/
def leave (d : Decoder) : Decoder := ⟨d.ancestors.tail⟩

end Decoder

/-- A computation of a decoder on a heap. -/
def DecoderM (α : Type) : Type := Decoder → Heap → Outcome α × Decoder

namespace DecoderM

variable {α β : Type}

protected def pure (a : α) : DecoderM α := fun d _ => (.of (.ok a), d)

/-- The decoder stays as `x` leaves it, also where `x` fails. -/
protected def bind (x : DecoderM α) (f : α → DecoderM β) : DecoderM β := fun d h =>
  let (first, d) := x d h
  match first.result with
  | .ok a =>
    let (next, d) := f a d h
    (first.followedBy next, d)
  | .error e => (first.failed e, d)

instance : MonadHeap DecoderM where
  pure := DecoderM.pure
  bind := DecoderM.bind
  read x := fun d h => (x h, d)

/-- The objects that the decoder is inside of. -/
def entered : DecoderM (List Address) := fun d _ => (.of (.ok d.ancestors), d)

/-- Runs `x` inside an object and leaves the object, whatever becomes of `x`; if it failed, that is
seen after leaving. -/
def within (object : Address) (x : DecoderM α) : DecoderM (Except Failure α) := fun d h =>
  let (found, d) := x (d.enter object) h
  (found.caught, d.leave)

end DecoderM

namespace Decoder

open DecoderM Inspection

/-- Inspects an object; `inner` inspects the values inside. -/
def objectWith (inner : Value → Options → DecoderM Node) (object : Address) (o : Options) :
    DecoderM Node := do
  let o := optionsBelow (← entered) object o
  let kind ← Kind.of object
  let shape ← within object (shapeOf inner kind object o)
  let map ← shownMap object o
  pure (.mk object map (← HeapM.ofExcept shape))

/-- Inspects a value, at most so many levels deep. -/
def valueWithin : Nat → Value → Options → DecoderM Node
  | _, .smi raw number, _ => pure (.mk ⟨raw⟩ none (.smallInt number))
  | 0, .heap object, _ => HeapM.giveUp (.unreadable object 0)
  | levels + 1, .heap object, o => objectWith (valueWithin levels) object o

/-- Inspects a value. -/
def value (v : Value) (o : Options) : DecoderM Node := valueWithin maxLevels v o

/-- Inspects an object. -/
def object (a : Address) (o : Options) : DecoderM Node :=
  objectWith (valueWithin (maxLevels - 1)) a o

/-- What a decoder is asked to inspect. -/
inductive Request where
  | value (v : Value) (o : Options)
  | object (a : Address) (o : Options)

/-- Serves a request. -/
def serve : Request → DecoderM Node
  | .value v o => value v o
  | .object a o => object a o

/-- Serves requests one after the other, each on the heap of its time, and tells after each what
was found and what the decoder is then. -/
def serveAll : Decoder → List (Heap × Request) → List (Outcome Node × Decoder)
  | _, [] => []
  | d, (h, request) :: rest =>
    let (found, d) := serve request d h
    (found, d) :: serveAll d rest

end Decoder

end Postmortem
