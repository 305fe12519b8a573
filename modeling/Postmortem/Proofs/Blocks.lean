/-
Postmortem/Proofs/Blocks.lean

Blocks of a heap made by hand.

A builder reserves blocks one behind the other and never gives one back.  A step of
construction is tidy if it writes to no block but those that it reserves and those
that it was handed (`Tidy`); all that stands elsewhere is kept (`Kept`).  There is a
rule for each way to put steps together, where blocks that are reserved may be handed
on (`Tidy.bind`, `Tidy.alloc`).

One thing is kept besides the bytes.  The map of one-byte strings is shared by all of
them, so what later strings are read as depends on what is remembered as that map
(`SharesStringMap`).
-/
import Mathlib.Data.Set.Insert
import Postmortem.Proofs.Yield
import Postmortem.Synthetic.Builder

namespace Postmortem.Synthetic

/-! ### Memory -/

namespace SparseMemory

theorem write_cons (m : SparseMemory) (a : Address) (b : UInt8) (bs : List UInt8) :
    m.write a (b :: bs) = write { m with bytes := m.bytes.insert a.word b } (a.add 1) bs := rfl

@[simp] theorem poisoned_write (m : SparseMemory) (a : Address) (data : List UInt8) :
    (m.write a data).poisoned = m.poisoned := by
  induction data generalizing m a with
  | nil => rfl
  | cons b bs ih => exact ih ..

/-- Where bytes were written they are there, and elsewhere nothing has changed. -/
theorem getElem?_write (m : SparseMemory) {start k : ℕ} {data : List UInt8}
    (hfits : start + data.length ≤ UInt64.size) (hk : k < UInt64.size) :
    (m.write ⟨UInt64.ofNat start⟩ data).bytes[UInt64.ofNat k]? =
      if start ≤ k ∧ k < start + data.length then data[k - start]?
      else m.bytes[UInt64.ofNat k]? := by
  induction data generalizing m start with
  | nil =>
    rw [if_neg (by rw [List.length_nil]; omega)]
    rfl
  | cons b bs ih =>
    rw [List.length_cons] at hfits ⊢
    have hnext : Address.add ⟨UInt64.ofNat start⟩ 1 = ⟨UInt64.ofNat (start + 1)⟩ :=
      congrArg Address.mk (UInt64.ofNat_add start 1).symm
    have hsame : UInt64.ofNat start = UInt64.ofNat k ↔ start = k := by
      rw [← UInt64.toNat_inj, UInt64.toNat_ofNat_of_lt' (by omega), UInt64.toNat_ofNat_of_lt' hk]
    rw [write_cons, hnext, ih _ (by omega), Std.HashMap.getElem?_insert]
    simp only [beq_iff_eq, hsame]
    rcases Nat.lt_trichotomy start k with hlt | rfl | hgt
    · have hindex : k - start = (k - (start + 1)) + 1 := by omega
      rw [if_neg (Nat.ne_of_lt hlt), hindex, List.getElem?_cons_succ]
      split <;> split <;> first | rfl | omega
    · rw [if_neg (by omega), if_pos rfl, if_pos (by omega), Nat.sub_self, List.getElem?_cons_zero]
    · rw [if_neg (by omega), if_neg (by omega), if_neg (by omega)]

/-- What is there at every place from one on is collected. -/
theorem collect_eq {bytes : Std.HashMap UInt64 UInt8} {start : ℕ} {data : List UInt8}
    (hdata : ∀ i x, data[i]? = some x → bytes[UInt64.ofNat (start + i)]? = some x)
    (found : List UInt8) :
    collect bytes data.length (UInt64.ofNat start) found = some (found.reverse ++ data) := by
  induction data generalizing start found with
  | nil => rw [List.append_nil]; rfl
  | cons b bs ih =>
    have hfirst : bytes[UInt64.ofNat start]? = some b := hdata 0 b rfl
    have hrest (i : ℕ) (x : UInt8) (hx : bs[i]? = some x) :
        bytes[UInt64.ofNat (start + 1 + i)]? = some x := by
      rw [Nat.add_assoc, Nat.add_comm 1 i]
      exact hdata (i + 1) x hx
    rw [List.length_cons, collect, hfirst]
    show collect bytes bs.length (UInt64.ofNat start + 1) (b :: found) = _
    rw [show UInt64.ofNat start + 1 = UInt64.ofNat (start + 1) from (UInt64.ofNat_add start 1).symm,
      ih hrest, List.reverse_cons, List.append_assoc]
    rfl

end SparseMemory

/-- The address that a block is known by, from the place where it starts. -/
def objectAt (start : ℕ) : Address := ⟨UInt64.ofNat (start + 1)⟩

theorem offset_objectAt (start offset : ℕ) :
    (objectAt start).offset ((offset : ℤ) - 1) = ⟨UInt64.ofNat (start + offset)⟩ := by
  refine congrArg Address.mk (UInt64.toNat_inj.mp ?_)
  simp only [objectAt, Word.ofInt, UInt64.toNat_ofNat', UInt64.size]
  omega

namespace Builder

variable {α β : Type} {watched : Prop} {own : Set ℕ} {b b' b'' : Builder} {start size : ℕ}
  {data : List UInt8}

/-! ### Steps -/

/-- What a step of construction returns. -/
def value (x : BuildM α) (b : Builder) : α := (Id.run (StateT.run x b)).1

/-- The heap that a step of construction leaves. -/
def after (x : BuildM α) (b : Builder) : Builder := (Id.run (StateT.run x b)).2

theorem value_bind (x : BuildM α) (f : α → BuildM β) (b : Builder) :
    value (x >>= f) b = value (f (value x b)) (after x b) := rfl

theorem after_bind (x : BuildM α) (f : α → BuildM β) (b : Builder) :
    after (x >>= f) b = after (f (value x b)) (after x b) := rfl

@[simp] theorem value_pure (a : α) (b : Builder) : value (pure a) b = a := rfl

@[simp] theorem after_pure (a : α) (b : Builder) : after (pure a : BuildM α) b = b := rfl

@[simp] theorem value_get (b : Builder) : value get b = b := rfl

@[simp] theorem after_get (b : Builder) : after get b = b := rfl

/-- The heap with a block more. -/
def reserve (b : Builder) (size : ℕ) : Builder := { b with next := b.next + blockBytes size }

/-- The heap with bytes written from a place on. -/
def put (b : Builder) (start : ℕ) (data : List UInt8) : Builder :=
  { b with memory := b.memory.write ⟨UInt64.ofNat start⟩ data }

@[simp] theorem value_alloc (size : ℕ) (b : Builder) :
    value (alloc size) b = objectAt b.next := rfl

@[simp] theorem after_alloc (size : ℕ) (b : Builder) : after (alloc size) b = b.reserve size := rfl

@[simp] theorem next_reserve (b : Builder) (size : ℕ) :
    (b.reserve size).next = b.next + blockBytes size := rfl

@[simp] theorem shared_reserve (b : Builder) (size : ℕ) : (b.reserve size).shared = b.shared := rfl

/-- The heap with something remembered. -/
def remember (b : Builder) (key : ℤ) (object : Address) : Builder :=
  { b with shared := b.shared.insert key object }

@[simp] theorem next_remember (b : Builder) (key : ℤ) (object : Address) :
    (b.remember key object).next = b.next := rfl

theorem shared_remember (b : Builder) (key other : ℤ) (object : Address) :
    (b.remember key object).shared[other]? =
      if key = other then some object else b.shared[other]? := by
  show (b.shared.insert key object)[other]? = _
  rw [Std.HashMap.getElem?_insert]
  simp only [beq_iff_eq]

theorem after_setBytes {offset : ℤ} (hoffset : 0 ≤ offset) (start : ℕ) (data : List UInt8)
    (b : Builder) :
    after (setBytes (objectAt start) offset data) b = b.put (start + offset.toNat) data := by
  obtain ⟨offset, rfl⟩ := Int.eq_ofNat_of_zero_le hoffset
  show ({ b with memory := b.memory.write _ data } : Builder) = _
  rw [offset_objectAt]
  rfl

theorem after_setWord {offset : ℤ} (hoffset : 0 ≤ offset) (start : ℕ) (w : UInt64) (b : Builder) :
    after (setWord (objectAt start) offset w) b =
      b.put (start + offset.toNat) (Word.toBytes 8 w.toNat) :=
  after_setBytes hoffset start _ b

theorem after_setMap (start : ℕ) (map : Address) (b : Builder) :
    after (setMap (objectAt start) map) b = b.put start (Word.toBytes 8 map.word.toNat) :=
  after_setWord le_rfl start map.word b

theorem le_blockBytes (size : ℕ) : size ≤ blockBytes size := by
  unfold blockBytes
  omega

theorem exists_blockBytes (size : ℕ) : ∃ n, blockBytes size = 16 * n :=
  ⟨(max size 8 + 15) / 16 + 1, by unfold blockBytes; omega⟩

/-! ### Bytes -/

/-- The byte at a place. -/
def byte? (b : Builder) (k : ℕ) : Option UInt8 := b.memory.bytes[UInt64.ofNat k]?

/-- Bytes stand in the blocks that are reserved, from a place on. -/
structure Has (b : Builder) (start : ℕ) (data : List UInt8) : Prop where
  reserved : start + data.length ≤ b.next
  byte? : ∀ i x, data[i]? = some x → b.byte? (start + i) = some x

theorem byte?_put {k : ℕ} (hfits : start + data.length ≤ UInt64.size) (hk : k < UInt64.size) :
    (b.put start data).byte? k =
      if start ≤ k ∧ k < start + data.length then data[k - start]? else b.byte? k :=
  b.memory.getElem?_write hfits hk

theorem has_put (hreserved : start + data.length ≤ b.next) (hnext : b.next ≤ UInt64.size) :
    (b.put start data).Has start data := by
  refine ⟨hreserved, fun i x hx => ?_⟩
  have hi := (List.getElem?_eq_some_iff.mp hx).1
  rw [byte?_put (hreserved.trans hnext) (by omega), if_pos (by omega), Nat.add_sub_cancel_left, hx]

/-- What stands elsewhere still stands. -/
theorem Has.put {start' : ℕ} {data' : List UInt8} (hhas : b.Has start data)
    (hfits : start' + data'.length ≤ b.next) (hnext : b.next ≤ UInt64.size)
    (hapart : start + data.length ≤ start' ∨ start' + data'.length ≤ start) :
    (b.put start' data').Has start data := by
  refine ⟨hhas.reserved, fun i x hx => ?_⟩
  have hi := (List.getElem?_eq_some_iff.mp hx).1
  have hreserved := hhas.reserved
  rw [byte?_put (hfits.trans hnext) (by omega), if_neg (by omega)]
  exact hhas.byte? i x hx

/-- The heap with several pieces written to one block, each at its offset. -/
def fill (b : Builder) (start : ℕ) (pieces : List (ℕ × List UInt8)) : Builder :=
  pieces.foldl (fun b piece => b.put (start + piece.1) piece.2) b

@[simp] theorem fill_cons (b : Builder) (start : ℕ) (piece : ℕ × List UInt8)
    (pieces : List (ℕ × List UInt8)) :
    b.fill start (piece :: pieces) = (b.put (start + piece.1) piece.2).fill start pieces := rfl

@[simp] theorem next_fill (b : Builder) (start : ℕ) (pieces : List (ℕ × List UInt8)) :
    (b.fill start pieces).next = b.next := by
  induction pieces generalizing b with
  | nil => rfl
  | cons piece pieces ih => exact ih _

@[simp] theorem shared_fill (b : Builder) (start : ℕ) (pieces : List (ℕ × List UInt8)) :
    (b.fill start pieces).shared = b.shared := by
  induction pieces generalizing b with
  | nil => rfl
  | cons piece pieces ih => exact ih _

/-- Pieces that lie behind each other in a block of `size` bytes. -/
structure Fit (size : ℕ) (pieces : List (ℕ × List UInt8)) : Prop where
  apart : pieces.Pairwise fun p q => p.1 + p.2.length ≤ q.1
  fits : ∀ p ∈ pieces, p.1 + p.2.length ≤ size

theorem Has.fill {place : ℕ} {pieces : List (ℕ × List UInt8)} (hhas : b.Has place data)
    (hblock : start + size ≤ b.next) (hnext : b.next ≤ UInt64.size)
    (hfits : ∀ p ∈ pieces, p.1 + p.2.length ≤ size)
    (hapart : ∀ p ∈ pieces,
      place + data.length ≤ start + p.1 ∨ start + p.1 + p.2.length ≤ place) :
    (b.fill start pieces).Has place data := by
  induction pieces generalizing b with
  | nil => exact hhas
  | cons piece pieces ih =>
    have hpiece := hfits piece (List.mem_cons_self ..)
    have hput : (b.put (start + piece.1) piece.2).Has place data :=
      hhas.put (by omega) hnext (hapart piece (List.mem_cons_self ..))
    exact ih hput hblock hnext (fun p hp => hfits p (List.mem_cons_of_mem _ hp))
      fun p hp => hapart p (List.mem_cons_of_mem _ hp)

theorem Fit.cons {piece : ℕ × List UInt8} {pieces : List (ℕ × List UInt8)}
    (hfits : piece.1 + piece.2.length ≤ size)
    (hbehind : ∀ p ∈ pieces, piece.1 + piece.2.length ≤ p.1) (hpieces : Fit size pieces) :
    Fit size (piece :: pieces) :=
  ⟨List.pairwise_cons.mpr ⟨hbehind, hpieces.apart⟩, List.forall_mem_cons.mpr ⟨hfits, hpieces.fits⟩⟩

/-- Every piece stands in the block when all have been written. -/
theorem has_fill {pieces : List (ℕ × List UInt8)} (hpieces : Fit size pieces)
    (hblock : start + size ≤ b.next) (hnext : b.next ≤ UInt64.size) :
    ∀ p ∈ pieces, (b.fill start pieces).Has (start + p.1) p.2 := by
  obtain ⟨hapart, hfits⟩ := hpieces
  induction pieces generalizing b with
  | nil => exact fun p hp => absurd hp List.not_mem_nil
  | cons piece pieces ih =>
    obtain ⟨hbehind, hapart⟩ := List.pairwise_cons.mp hapart
    have hpiece := hfits piece (List.mem_cons_self ..)
    have hrest (p : ℕ × List UInt8) (hp : p ∈ pieces) := hfits p (List.mem_cons_of_mem _ hp)
    intro p hp
    rcases List.mem_cons.mp hp with rfl | hp
    · have hput : (b.put (start + p.1) p.2).Has (start + p.1) p.2 := has_put (by omega) hnext
      refine hput.fill hblock hnext hrest fun q hq => ?_
      have := hbehind q hq
      exact .inl (by omega)
    · rw [fill_cons]
      exact ih (b := b.put (start + piece.1) piece.2) hblock hnext hapart hrest p hp

/-- A new block has room for all its pieces. -/
theorem has_fill_reserve {pieces : List (ℕ × List UInt8)} (hpieces : Fit size pieces)
    (hnext : (b.reserve size).next ≤ UInt64.size) :
    ∀ p ∈ pieces, ((b.reserve size).fill b.next pieces).Has (b.next + p.1) p.2 := by
  refine has_fill hpieces ?_ hnext
  rw [next_reserve]
  exact Nat.add_le_add_left (le_blockBytes size) _

theorem Has.slice (hhas : b.Has start data) {i n : ℕ} (hfits : i + n ≤ data.length) :
    b.Has (start + i) ((data.drop i).take n) := by
  have hreserved := hhas.reserved
  refine ⟨?_, fun k x hx => ?_⟩
  · rw [List.length_take, List.length_drop]
    omega
  · rw [List.getElem?_take] at hx
    split at hx
    case isTrue =>
      rw [List.getElem?_drop] at hx
      rw [Nat.add_assoc]
      exact hhas.byte? _ x hx
    case isFalse => cases hx

/-- Bytes that stand in a heap without poison can be fetched. -/
theorem Has.fetch (hhas : b.Has start data) (hpoisoned : b.memory.poisoned = []) :
    b.memory.fetch ⟨UInt64.ofNat start⟩ data.length = some data := by
  rw [SparseMemory.fetch, SparseMemory.isPoisoned, hpoisoned, List.any_nil, if_neg (by decide)]
  exact SparseMemory.collect_eq hhas.byte? []

/-! ### What is kept -/

/-- What is known by an address is a map of one-byte strings, and not in the blocks that are
written to. -/
def IsStringMap (own : Set ℕ) (b : Builder) (map : Address) : Prop :=
  ∃ start, map = objectAt start ∧
    b.Has (start + 12) (numberBytes 2 InstanceType.oneByteString) ∧
    ∀ k ∈ own, k < start + 12 ∨ start + 14 ≤ k

/-- If a map of one-byte strings is remembered, it is one. -/
def SharesStringMap (own : Set ℕ) (b : Builder) : Prop :=
  ∀ map, b.shared[InstanceType.oneByteString]? = some map → IsStringMap own b map

/-- Nothing has changed between two heaps but in the places of `own` and in blocks that were
reserved since; the map of one-byte strings is still the same if it is watched. -/
structure Kept (watched : Prop) (own : Set ℕ) (b b' : Builder) : Prop where
  byte? : ∀ k < UInt64.size, k ∉ own → k < b.next ∨ b'.next ≤ k → b'.byte? k = b.byte? k
  poisoned : b'.memory.poisoned = b.memory.poisoned
  shared : watched → ∀ map, b.shared[InstanceType.oneByteString]? = some map →
    b'.shared[InstanceType.oneByteString]? = some map
  strings : watched → SharesStringMap own b → SharesStringMap own b'

theorem Kept.refl : Kept watched own b b :=
  ⟨fun _ _ _ _ => rfl, rfl, fun _ _ hmap => hmap, fun _ => id⟩

theorem Kept.trans (hkept : Kept watched own b b') (hkept' : Kept watched own b' b'')
    (hle : b.next ≤ b'.next) (hle' : b'.next ≤ b''.next) : Kept watched own b b'' := by
  refine ⟨fun k hk hown hplace => ?_, hkept'.poisoned.trans hkept.poisoned,
    fun hw map hmap => hkept'.shared hw map (hkept.shared hw map hmap),
    fun hw hstrings => hkept'.strings hw (hkept.strings hw hstrings)⟩
  rw [hkept'.byte? k hk hown (by omega), hkept.byte? k hk hown (by omega)]

/-- What stands outside `own` is kept. -/
theorem Has.kept (hhas : b.Has start data) (hkept : Kept watched own b b') (hle : b.next ≤ b'.next)
    (hnext : b.next ≤ UInt64.size) (hapart : ∀ k ∈ own, k < start ∨ start + data.length ≤ k) :
    b'.Has start data := by
  have hreserved := hhas.reserved
  refine ⟨hreserved.trans hle, fun i x hx => ?_⟩
  have hi := (List.getElem?_eq_some_iff.mp hx).1
  have hown : start + i ∉ own := by
    intro hmem
    have := hapart _ hmem
    omega
  rw [hkept.byte? _ (by omega) hown (by omega)]
  exact hhas.byte? i x hx

theorem IsStringMap.put {map : Address} (hmap : IsStringMap own b map)
    (hnext : b.next ≤ UInt64.size) (hfits : start + data.length ≤ b.next)
    (hown : ∀ k, start ≤ k → k < start + data.length → k ∈ own) :
    IsStringMap own (b.put start data) map := by
  rcases Nat.eq_zero_or_pos data.length with hnil | hpos
  · rwa [List.eq_nil_of_length_eq_zero hnil]
  obtain ⟨place, rfl, hhas, hapart⟩ := hmap
  refine ⟨place, rfl, hhas.put hfits hnext ?_, hapart⟩
  have hlength : (numberBytes 2 InstanceType.oneByteString).length = 2 := rfl
  by_contra hmeets
  -- A byte that is in both would be one of `own` and inside the map.
  have hmem := hown (max start (place + 12)) (by omega) (by omega)
  have := hapart _ hmem
  omega

theorem kept_put (hnext : b.next ≤ UInt64.size) (hfits : start + data.length ≤ b.next)
    (hown : ∀ k, start ≤ k → k < start + data.length → k ∈ own) :
    Kept watched own b (b.put start data) := by
  refine ⟨fun k hk hmem _ => ?_, SparseMemory.poisoned_write .., fun _ _ hmap => hmap,
    fun _ hstrings map hmap => (hstrings map hmap).put hnext hfits hown⟩
  rw [byte?_put (hfits.trans hnext) hk, if_neg]
  rintro ⟨hle, hlt⟩
  exact hmem (hown k hle hlt)

/-! ### Tidy steps -/

/-- A step of construction that writes to nothing but `own` and the blocks that it reserves. -/
structure Tidy (watched : Prop) (own : Set ℕ) (x : BuildM α) : Prop where
  next : ∀ b, ∃ n, (after x b).next = b.next + 16 * n
  kept : ∀ b, (∀ k ∈ own, k < b.next) → (after x b).next ≤ UInt64.size →
    Kept watched own b (after x b)

theorem Tidy.next_le {x : BuildM α} (hx : Tidy watched own x) (b : Builder) :
    b.next ≤ (after x b).next := by
  obtain ⟨n, hn⟩ := hx.next b
  omega

/-- Steps that write to nothing but new blocks keep all that there was. -/
theorem Tidy.kept_empty {x : BuildM α} (hx : Tidy watched ∅ x) (b : Builder)
    (hnext : (after x b).next ≤ UInt64.size) : Kept watched ∅ b (after x b) :=
  hx.kept b (fun k hk => absurd hk (Set.notMem_empty k)) hnext

theorem Tidy.pure (a : α) : Tidy watched own (Pure.pure a : BuildM α) :=
  ⟨fun _ => ⟨0, rfl⟩, fun _ _ _ => .refl⟩

theorem Tidy.bind {x : BuildM α} {f : α → BuildM β} (hx : Tidy watched own x)
    (hf : ∀ a, Tidy watched own (f a)) : Tidy watched own (x >>= f) := by
  refine ⟨fun b => ?_, fun b hown hnext => ?_⟩
  · obtain ⟨n, hn⟩ := hx.next b
    obtain ⟨n', hn'⟩ := (hf (value x b)).next (after x b)
    exact ⟨n + n', by rw [after_bind, hn', hn]; omega⟩
  · have hle := hx.next_le b
    have hle' := (hf (value x b)).next_le (after x b)
    rw [after_bind] at hnext ⊢
    have hkept := hx.kept b hown (hle'.trans hnext)
    exact hkept.trans ((hf _).kept _ (fun k hk => (hown k hk).trans_le hle) hnext) hle hle'

/-- A step may depend on the heap that it finds. -/
theorem Tidy.get {f : Builder → BuildM β} (hf : ∀ b, Tidy watched own (f b)) :
    Tidy watched own (MonadState.get >>= f) :=
  ⟨fun b => (hf b).next b, fun b => (hf b).kept b⟩

/-- What is done with a new block may write to it. -/
theorem Tidy.alloc {f : Address → BuildM β}
    (hf : ∀ start, Tidy watched (own ∪ {k | start ≤ k ∧ k < start + size}) (f (objectAt start))) :
    Tidy watched own (Builder.alloc size >>= f) := by
  have hblock := le_blockBytes size
  refine ⟨fun b => ?_, fun b hown hnext => ?_⟩
  · obtain ⟨n, hn⟩ := exists_blockBytes size
    obtain ⟨n', hn'⟩ := (hf b.next).next (b.reserve size)
    exact ⟨n + n', by rw [after_bind, value_alloc, after_alloc, hn', next_reserve, hn]; omega⟩
  · -- The block is written to as well, and lies behind all that there was.
    have htidy := hf b.next
    rw [after_bind, value_alloc, after_alloc] at hnext ⊢
    have hle := htidy.next_le (b.reserve size)
    rw [next_reserve] at hle
    have hown' (k : ℕ) (hk : k ∈ own ∪ {k | b.next ≤ k ∧ k < b.next + size}) :
        k < (b.reserve size).next := by
      rw [next_reserve]
      rcases hk with hk | hk
      · have := hown k hk
        omega
      · have := hk.2
        omega
    have hkept := htidy.kept (b.reserve size) hown' hnext
    refine ⟨fun k hk hmem hplace => ?_, hkept.poisoned, hkept.shared,
      fun hw hstrings map hmap => ?_⟩
    -- A place that was there before is not in the block, and one that is still free is behind it.
    · rw [hkept.byte? k hk ?_ (by rw [next_reserve]; omega)]
      · rfl
      · rintro (hk' | hk')
        · exact hmem hk'
        · have hbehind := hk'.1
          have hbefore := hk'.2
          omega
    -- The map that is remembered was reserved before the block, so it is apart from it.
    · have hstrings' : SharesStringMap (own ∪ {k | b.next ≤ k ∧ k < b.next + size})
          (b.reserve size) := by
        intro map hmap
        obtain ⟨place, rfl, hhas, hapart⟩ := hstrings map hmap
        have hreserved := hhas.reserved
        refine ⟨place, rfl, ⟨hreserved.trans (Nat.le_add_right ..), hhas.byte?⟩, ?_⟩
        rintro k (hk | hk)
        · exact hapart k hk
        · exact .inr (hreserved.trans hk.1)
      obtain ⟨place, rfl, hhas, hapart⟩ := hkept.strings hw hstrings' map hmap
      exact ⟨place, rfl, hhas, fun k hk => hapart k (.inl hk)⟩

/-- Writing to places that may be written to. -/
theorem Tidy.put (hown : ∀ k, start ≤ k → k < start + data.length → k ∈ own) :
    Tidy watched own (modifyMemory (·.write ⟨UInt64.ofNat start⟩ data)) := by
  refine ⟨fun b => ⟨0, rfl⟩, fun b hplaces hnext => ?_⟩
  show Kept watched own b (b.put start data)
  rcases data.eq_nil_or_concat with rfl | ⟨init, last, rfl⟩
  · exact .refl
  · -- The last place is reserved, so all of them are.
    refine kept_put hnext ?_ hown
    have hlast := hplaces (start + init.length) (hown _ (Nat.le_add_right ..) (by simp))
    rw [List.length_concat]
    omega

/-- Remembering anything, while no map is watched. -/
theorem Tidy.share (hwatched : ¬ watched) (key : ℤ) (object : Address) :
    Tidy watched own (Builder.share key object) := by
  refine ⟨fun b => ⟨0, rfl⟩, fun b _ _ => ?_⟩
  exact ⟨fun _ _ _ _ => rfl, rfl, fun hw => absurd hw hwatched, fun hw => absurd hw hwatched⟩

end Builder

end Postmortem.Synthetic
