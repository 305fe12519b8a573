/-
Postmortem/Heap.lean

Computations that read a captured heap.

A heap is a memory image with the layout of the build that wrote it.  A
computation of type `HeapM α` runs on a heap and has an outcome: what it
found or why it failed, the byte ranges it asked the image for on the way, and
whether it gave up.  Ranges are recorded whether or not the read succeeds; words
are not recorded.  A failed step ends the computation (`HeapM.bind_error`), and
`HeapM.attempt` turns a failure into a value.

A computation gives up where a bound on its rounds or levels runs out before its
work is done: it stands for one that never returns.  So it finds nothing, which
is part of what an outcome is (`Outcome.returned`), and nobody is told about it:
`HeapM.attempt` hands on what gave up as it is.

Below the monad stand the reads that all kinds of objects share: slots, words
and packed fields at the offsets that the layout gives.
-/
import Postmortem.Image
import Postmortem.Tagged
import Postmortem.Number.Double

namespace Postmortem

/-- A memory image and the layout of the objects in it. -/
structure Heap where
  image : Image
  layout : Layout

/-- A request for bytes. -/
structure ByteRead where
  start : Address
  length : Nat
  deriving DecidableEq

/-- What a computation found, the byte ranges it asked for, and whether it gave up in the end. -/
@[ext]
structure Outcome (α : Type) where
  result : Except Failure α
  byteReads : List ByteRead
  gaveUp : Bool
  /-- What gave up found nothing. -/
  returned : ∀ a, result = .ok a → gaveUp = false

namespace Outcome

variable {α β γ : Type}

/-- The outcome of a computation that returned, after some reads. -/
def after (reads : List ByteRead) (result : Except Failure α) : Outcome α :=
  ⟨result, reads, false, fun _ _ => rfl⟩

/-- The outcome that took no reads. -/
def of (result : Except Failure α) : Outcome α := after [] result

/-- The outcome of a computation that goes on with `next` after this one succeeded. -/
def followedBy (first : Outcome α) (next : Outcome β) : Outcome β :=
  ⟨next.result, first.byteReads ++ next.byteReads, next.gaveUp, next.returned⟩

/-- The outcome of a computation that ends where this one failed. -/
def failed (o : Outcome α) (e : Failure) : Outcome β :=
  ⟨.error e, o.byteReads, o.gaveUp, nofun⟩

/-- The outcome with something else in place of what was found. -/
def map (o : Outcome α) (f : α → β) : Outcome β where
  result := o.result.map f
  byteReads := o.byteReads
  gaveUp := o.gaveUp
  returned := fun _ hmap => by
    cases hresult : o.result with
    | error e => rw [hresult] at hmap; cases hmap
    | ok a => exact o.returned a hresult

/-- The outcome with a failure turned into a value. What gave up stays what it is. -/
def caught (o : Outcome α) : Outcome (Except Failure α) where
  result := if o.gaveUp then o.result.map .ok else .ok o.result
  byteReads := o.byteReads
  gaveUp := o.gaveUp
  returned := fun _ hcaught => by
    cases hresult : o.result with
    | ok a => exact o.returned a hresult
    | error e =>
      split at hcaught
      case isTrue => rw [hresult] at hcaught; cases hcaught
      case isFalse hback => exact Bool.eq_false_iff.mpr hback

theorem caught_of_returned {o : Outcome α} (ho : o.gaveUp = false) :
    o.caught = after o.byteReads (.ok o.result) := by
  simp [caught, after, ho]

theorem caught_of_gaveUp {o : Outcome α} {e : Failure} (ho : o.gaveUp = true)
    (hresult : o.result = .error e) : o.caught = o.failed e := by
  simp [caught, failed, ho, hresult, Except.map]

theorem map_of_error {o : Outcome α} {e : Failure} (hresult : o.result = .error e) (f : α → β) :
    o.map f = o.failed e := by
  have hmap : (o.map f).result = .error e := congrArg (Except.map f) hresult
  exact Outcome.ext hmap rfl rfl

theorem map_of_ok {o : Outcome α} {a : α} (hresult : o.result = .ok a) (f : α → β) :
    o.map f = o.followedBy (.of (.ok (f a))) := by
  have hmap : (o.map f).result = .ok (f a) := congrArg (Except.map f) hresult
  exact Outcome.ext hmap (List.append_nil _).symm (o.returned a hresult)

theorem followedBy_assoc (first : Outcome α) (second : Outcome β) (third : Outcome γ) :
    (first.followedBy second).followedBy third = first.followedBy (second.followedBy third) := by
  simp [followedBy]

theorem followedBy_failed (first : Outcome α) (second : Outcome β) (e : Failure) :
    ((first.followedBy second).failed e : Outcome γ) = first.followedBy (second.failed e) := rfl

theorem followedBy_map (first : Outcome α) (second : Outcome β) (f : β → γ) :
    (first.followedBy second).map f = first.followedBy (second.map f) := rfl

end Outcome

/-- A computation on a heap. -/
def HeapM (α : Type) : Type := Heap → Outcome α

namespace HeapM

variable {α β : Type}

/-! ### The monad -/

protected def pure (a : α) : HeapM α := fun _ => .of (.ok a)

protected def bind (x : HeapM α) (f : α → HeapM β) : HeapM β := fun h =>
  match (x h).result with
  | .ok a => (x h).followedBy (f a h)
  | .error e => (x h).failed e

instance : Monad HeapM where
  pure := HeapM.pure
  bind := HeapM.bind

/-- The computation that fails. -/
def fail (e : Failure) : HeapM α := fun _ => .of (.error e)

/-- The computation that gives up, with a failure for whoever asked. -/
def giveUp (e : Failure) : HeapM α := fun _ => ⟨.error e, [], true, nofun⟩

/-- The computation that has already been decided. -/
def ofExcept (r : Except Failure α) : HeapM α := fun _ => .of r

/-- The result of `x` as a value, unless `x` gives up. -/
def attempt (x : HeapM α) : HeapM (Except Failure α) := fun h => (x h).caught

theorem pure_run (a : α) (h : Heap) : (pure a : HeapM α) h = .of (.ok a) := rfl

theorem bind_ok {x : HeapM α} {f : α → HeapM β} {h : Heap} {a : α}
    (hx : (x h).result = .ok a) : (x >>= f) h = (x h).followedBy (f a h) := by
  show HeapM.bind x f h = _
  rw [HeapM.bind, hx]

theorem bind_error {x : HeapM α} {f : α → HeapM β} {h : Heap} {e : Failure}
    (hx : (x h).result = .error e) : (x >>= f) h = (x h).failed e := by
  show HeapM.bind x f h = _
  rw [HeapM.bind, hx]

instance : LawfulMonad HeapM := LawfulMonad.mk' HeapM
  (by
    intro α x
    funext h
    rcases hx : (x h).result with e | a
    · exact (bind_error hx).trans (Outcome.ext hx.symm rfl rfl)
    · have hreturned := (x h).returned a hx
      exact (bind_ok hx).trans (Outcome.ext hx.symm (List.append_nil _) hreturned.symm))
  (by
    intro α β a f
    rfl)
  (by
    intro α β γ x f g
    funext h
    rcases hx : (x h).result with e | a
    · have hxf : ((x >>= f) h).result = .error e := by rw [bind_error hx]; rfl
      rw [bind_error hxf, bind_error hx, bind_error hx]
      rfl
    · rw [bind_ok hx]
      rcases hf : (f a h).result with e | b
      · have hxf : ((x >>= f) h).result = .error e := by rw [bind_ok hx]; exact hf
        rw [bind_error hxf, bind_error hf, bind_ok hx, Outcome.followedBy_failed]
      · have hxf : ((x >>= f) h).result = .ok b := by rw [bind_ok hx]; exact hf
        rw [bind_ok hxf, bind_ok hf, bind_ok hx, Outcome.followedBy_assoc])

/-! ### Repetition

Both loops run in constant stack; `forRange_succ` and `loop_succ` unfold one round. -/

/-- The byte ranges that the rounds of a loop have asked for so far, the last round first. -/
structure Trail where
  rounds : List (List ByteRead) := []

namespace Trail

/-- The trail after one more round. -/
def add (t : Trail) (round : Outcome α) : Trail := ⟨round.byteReads :: t.rounds⟩

/-- The outcome of a loop that came this far, with what is known of its rest. -/
def before (t : Trail) (rest : Outcome α) : Outcome α :=
  ⟨rest.result, t.rounds.reverse.flatten ++ rest.byteReads, rest.gaveUp, rest.returned⟩

theorem empty_before (rest : Outcome α) : ({} : Trail).before rest = rest := rfl

theorem add_before (t : Trail) (round : Outcome α) (rest : Outcome β) :
    (t.add round).before rest = t.before (round.followedBy rest) := by
  simp [before, add, Outcome.followedBy]

end Trail

/-- Runs `f` on the next `count` numbers; what was found so far comes last first. -/
def forRangeFrom (h : Heap) (f : Nat → HeapM α) :
    Nat → Nat → List α → Trail → Outcome (List α)
  | _, 0, found, t => t.before (.of (.ok found.reverse))
  | i, count + 1, found, t =>
    let round := f i h
    match round.result with
    | .ok a => forRangeFrom h f (i + 1) count (a :: found) (t.add round)
    | .error e => t.before (round.failed e)

/-- Runs `f` on `count` numbers from `start` on and collects what it finds, in order. -/
def forRange (start : Nat) (f : Nat → HeapM α) (count : Nat) : HeapM (List α) := fun h =>
  forRangeFrom h f start count [] {}

theorem forRangeFrom_eq (h : Heap) (f : Nat → HeapM α) (i count : Nat) (found : List α)
    (t : Trail) :
    forRangeFrom h f i count found t =
      t.before ((forRangeFrom h f i count [] {}).map (found.reverse ++ ·)) := by
  induction count generalizing i found t with
  | zero => simp [forRangeFrom, Except.map, Outcome.map, Outcome.of, Outcome.after, Trail.before]
  | succ count ih =>
    rcases hf : (f i h).result with e | a
    · simp [forRangeFrom, hf, Except.map, Outcome.map, Outcome.failed, Trail.before]
    · simp only [forRangeFrom, hf]
      rw [ih (i + 1) (a :: found) (t.add (f i h)), ih (i + 1) [a] (Trail.add {} (f i h)),
        Trail.add_before, Trail.add_before, Trail.empty_before, Outcome.followedBy_map]
      cases hrest : (forRangeFrom h f (i + 1) count [] {}).result <;>
        simp [Outcome.map, hrest, Except.map]

theorem forRange_succ (start : Nat) (f : Nat → HeapM α) (count : Nat) :
    forRange start f (count + 1) =
      (do
        let a ← f start
        let rest ← forRange (start + 1) f count
        pure (a :: rest)) := by
  funext h
  rcases hf : (f start h).result with e | a
  · rw [bind_error hf]
    simp only [forRange, forRangeFrom, hf, Trail.empty_before]
  · rw [bind_ok hf]
    have hrun : forRange start f (count + 1) h =
        forRangeFrom h f (start + 1) count [a] (Trail.add {} (f start h)) := by
      simp only [forRange, forRangeFrom, hf]
    rw [hrun, forRangeFrom_eq, Trail.add_before, Trail.empty_before, ← forRange]
    refine congrArg (Outcome.followedBy _) ?_
    rcases hr : (forRange (start + 1) f count h).result with e | rest
    · rw [bind_error hr, Outcome.map_of_error hr]
    · rw [bind_ok hr, Outcome.map_of_ok hr]
      rfl

/-- Repeats `step` until it gives a result, at most `fuel` times. -/
def loopFrom {σ : Type} (h : Heap) (step : σ → HeapM (σ ⊕ α)) (exhausted : Failure) :
    Nat → σ → Trail → Outcome α
  | 0, _, t => t.before (giveUp exhausted h)
  | fuel + 1, s, t =>
    let round := step s h
    match round.result with
    | .ok (.inl s) => loopFrom h step exhausted fuel s (t.add round)
    | .ok (.inr a) => t.before (round.followedBy (.of (.ok a)))
    | .error e => t.before (round.failed e)

/-- Repeats `step` from `s` until it gives a result; gives up with `exhausted` if `fuel` rounds
give none. -/
def loop {σ : Type} (step : σ → HeapM (σ ⊕ α)) (exhausted : Failure) (fuel : Nat) (s : σ) :
    HeapM α := fun h =>
  loopFrom h step exhausted fuel s {}

theorem loopFrom_eq {σ : Type} (h : Heap) (step : σ → HeapM (σ ⊕ α)) (exhausted : Failure)
    (fuel : Nat) (s : σ) (t : Trail) :
    loopFrom h step exhausted fuel s t = t.before (loopFrom h step exhausted fuel s {}) := by
  induction fuel generalizing s t with
  | zero => rfl
  | succ fuel ih =>
    rcases hs : (step s h).result with e | s' | a
    · simp only [loopFrom, hs, Trail.empty_before]
    · simp only [loopFrom, hs]
      rw [ih s' (t.add (step s h)), ih s' (Trail.add {} (step s h)), Trail.add_before,
        Trail.add_before, Trail.empty_before]
    · simp only [loopFrom, hs, Trail.empty_before]

theorem loop_zero {σ : Type} (step : σ → HeapM (σ ⊕ α)) (exhausted : Failure) (s : σ) :
    loop step exhausted 0 s = giveUp exhausted := rfl

theorem loop_succ {σ : Type} (step : σ → HeapM (σ ⊕ α)) (exhausted : Failure) (fuel : Nat)
    (s : σ) :
    loop step exhausted (fuel + 1) s =
      (do
        match ← step s with
        | .inl s => loop step exhausted fuel s
        | .inr a => pure a) := by
  funext h
  rcases hs : (step s h).result with e | s' | a
  · rw [bind_error hs]
    simp only [loop, loopFrom, hs, Trail.empty_before]
  · rw [bind_ok hs]
    simp only [loop, loopFrom, hs]
    rw [loopFrom_eq, Trail.add_before, Trail.empty_before]
  · rw [bind_ok hs]
    simp only [loop, loopFrom, hs, Trail.empty_before]
    rfl

/-! ### Layout -/

/-- The layout of the heap. -/
def layout : HeapM Layout := fun h => .of (.ok h.layout)

/-- The value of a constant; fails if the build does not export it. -/
def constant (c : Constant) : HeapM Int := do
  match (← layout).value? c with
  | some value => pure value
  | none => fail (.missing c)

/-- How many bytes a slot takes. -/
def pointerSize : HeapM Nat := do
  pure (← layout).pointerSize

/-! ### Memory -/

/-- The unsigned number of `width` bytes at `a`. -/
def unsigned (a : Address) (width : Nat) : HeapM UInt64 := fun h =>
  match h.image.unsigned? a width with
  | some w => .of (.ok w)
  | none => .of (.error (.unreadable a width))

/-- The word at `a`. -/
def word (a : Address) : HeapM UInt64 := unsigned a 8

/-- The bytes that the image has at `a`. -/
def fetch (a : Address) (length : Nat) : HeapM (List UInt8) := fun h =>
  match h.image.fetch a length with
  | some bytes => .after [⟨a, length⟩] (.ok bytes)
  | none => .after [⟨a, length⟩] (.error (.unreadable a length))

/-- The bytes at `a`. No bytes are never asked for, and too many are refused. -/
def bytes (a : Address) (length : Nat) : HeapM (List UInt8) :=
  if length = 0 then pure []
  else if maxReadBytes < length then fail (.shape (.oversizedRead length a))
  else fetch a length

/-- The characters of `length` one-byte units at `a`. -/
def oneByteText (a : Address) (length : Nat) : HeapM String := do
  pure (String.ofList ((← bytes a length).map fun b => Char.ofNat b.toNat))

/-- The two-byte units that `bytes` store. -/
def pairUp : List UInt8 → List UInt16
  | low :: high :: rest => UInt16.ofNat (low.toNat + 256 * high.toNat) :: pairUp rest
  | _ => []

/-- Reads `length` two-byte units at `a`. -/
def twoByteUnits (a : Address) (length : Nat) : HeapM (List UInt16) :=
  if UInt64.size ≤ 2 * length then fail (.shape (.oversizedUnits length))
  else do pure (pairUp (← bytes a (2 * length)))

/-! ### Fields -/

/-- The address of the byte at `offset` from the start of an object. -/
def fieldAddress (object : Address) (offset : Int) : HeapM Address := do
  pure (object.field offset (← layout))

/-- The address of the field at the offset that a constant gives. -/
def fieldAt (object : Address) (c : Constant) : HeapM Address := do
  fieldAddress object (← constant c)

/-- What the slot at `a` holds. -/
def valueAt (a : Address) : HeapM Value := do
  let raw ← word a
  pure (.classify (← layout) raw)

/-- What a field holds, if it is a slot. -/
def value (object : Address) (c : Constant) : HeapM Value := do
  valueAt (← fieldAt object c)

/-- The object that a field points to. -/
def pointer (object : Address) (c : Constant) : HeapM Address := do
  match ← value object c with
  | .heap child => pure child
  | .smi .. => fail (.shape (.notHeapObject c object))

/-- The word in a field. -/
def fieldWord (object : Address) (c : Constant) : HeapM UInt64 := do
  word (← fieldAt object c)

/-- What slot `index` holds, counted from the field at `base`. -/
def slot (object : Address) (base : Constant) (index : Nat) : HeapM Value := do
  let offset := (← constant base) + index * (← pointerSize)
  valueAt (← fieldAddress object offset)

/-- The small integer in the slot at `a`, which is a field of an object. -/
def smallInteger (object : Address) (c : Constant) (a : Address) : HeapM Int := do
  match ← valueAt a with
  | .smi _ number => pure number
  | .heap _ => fail (.shape (.notSmallInteger c object))

/-- The number in a field, read the way the layout says it is stored. -/
def int (object : Address) (c : Constant) : HeapM Int := do
  let a ← fieldAt object c
  match (← layout).storage c with
  | .tagged | .smi => smallInteger object c a
  | .int32 => do pure (Word.signed32 (← unsigned a 4).toNat)
  | .uint16 => do pure (← unsigned a 2).toNat
  | .uint8 => do pure (← unsigned a 1).toNat
  | .word => do pure (Word.signed (← word a))

/-- A number in a field that counts something; nothing is counted as less than zero. -/
def count (object : Address) (c : Constant) : HeapM Nat := do
  pure (← int object c).toNat

/-- The double at `a`. -/
def doubleAt (a : Address) : HeapM Double := do
  pure ⟨← word a⟩

end HeapM

/-- Computations that read a heap, whatever they do besides. -/
class MonadHeap (m : Type → Type) extends Monad m where
  read {α : Type} : HeapM α → m α
  /-- Runs a computation on `count` numbers from `start` on and collects what it finds, in order. -/
  forRange {α : Type} (start : Nat) (f : Nat → m α) (count : Nat) : m (List α) :=
    (List.range' start count).mapM f

instance : MonadHeap HeapM where
  read x := x
  forRange := HeapM.forRange

instance {m : Type → Type} [MonadHeap m] : MonadLiftT HeapM m := ⟨MonadHeap.read⟩

end Postmortem
