/-
Postmortem/Proofs/Accounts.lean

Accounts of what a construction does.

An account tells a construction as it is written, one thing after the other: which
blocks it reserves, what it writes and into which of these blocks, and what it
remembers (`Account`).  Nothing can be written in an account but inside a block that
was reserved earlier in it, or that it was handed.  Read for a heap, an account gives
the events of the construction there (`Account.events`), which are all that happens to
the heap (`Account.after_eq`).

All that is said of every construction is said of accounts, by induction.  Reserved
blocks lie behind each other from where the heap ended to where it ends now
(`Account.laid`), and every byte is written inside one of them (`Account.inside`); so a
construction that needs no other blocks is tidy (`Account.tidy`).  What is remembered is
never forgotten or taken for something else (`Account.keepsTable`).  That cannot be seen
from single events, since the map of maps may be remembered twice while it is made; so
whatever remembers something is accounted for as a whole, and with it that nothing but a
map of one-byte strings is remembered for one, if these are watched (`AddsStringMap`).
-/
import Postmortem.Proofs.Blocks

namespace Postmortem.Synthetic

variable {start stop size : ℕ}

/-! ### Blocks -/

/-- A block: where it starts, and how many bytes were asked for. -/
structure Block where
  start : ℕ
  size : ℕ

/-- The places from one on, as many as `length`, are in a block. -/
structure Block.Holds (block : Block) (place length : ℕ) : Prop where
  start_le : block.start ≤ place
  le_stop : place + length ≤ block.start + block.size

/-- Blocks lie behind each other from one place to another, each with its gap. -/
inductive Laid : ℕ → List Block → ℕ → Prop
  | nil (place : ℕ) : Laid place [] place
  | cons {start size stop : ℕ} {blocks : List Block}
      (rest : Laid (start + blockBytes size) blocks stop) :
      Laid start (⟨start, size⟩ :: blocks) stop

namespace Laid

variable {blocks blocks' : List Block}

theorem append {middle : ℕ} (first : Laid start blocks middle) (rest : Laid middle blocks' stop) :
    Laid start (blocks ++ blocks') stop := by
  induction first with
  | nil place => exact rest
  | cons _ ih => exact .cons (ih rest)

theorem le (hlaid : Laid start blocks stop) : start ≤ stop := by
  induction hlaid with
  | nil place => exact le_rfl
  | cons _ ih => exact (Nat.le_add_right ..).trans ih

/-- A block is behind where the first one starts, and ends before where the last one does. -/
theorem bounds (hlaid : Laid start blocks stop) :
    ∀ block ∈ blocks, start ≤ block.start ∧ block.start + blockBytes block.size ≤ stop := by
  induction hlaid with
  | nil place => exact fun block hblock => absurd hblock List.not_mem_nil
  | @cons start size stop blocks rest ih =>
    refine List.forall_mem_cons.mpr ⟨⟨le_rfl, rest.le⟩, fun block hblock => ?_⟩
    have hblock := ih block hblock
    exact ⟨by omega, hblock.2⟩

/-- Every block ends before the next one starts. -/
theorem apart (hlaid : Laid start blocks stop) :
    blocks.Pairwise fun block block' => block.start + block.size < block'.start := by
  induction hlaid with
  | nil place => exact .nil
  | @cons start size stop blocks rest ih =>
    refine List.pairwise_cons.mpr ⟨fun block hblock => ?_, ih⟩
    have hle := (rest.bounds block hblock).1
    have hgap : size < blockBytes size := by
      unfold blockBytes
      omega
    exact (Nat.add_lt_add_left hgap start).trans_le hle

/-- Blocks are a multiple of sixteen bytes apart. -/
theorem aligned (hlaid : Laid start blocks stop) (hstart : 16 ∣ start) :
    ∀ block ∈ blocks, 16 ∣ block.start := by
  induction hlaid with
  | nil place => exact fun block hblock => absurd hblock List.not_mem_nil
  | @cons start size stop blocks rest ih =>
    obtain ⟨n, hn⟩ := Builder.exists_blockBytes size
    exact List.forall_mem_cons.mpr ⟨hstart, ih (by omega)⟩

end Laid

/-! ### Events -/

/-- What happens to a heap. -/
inductive Event where
  | reserve (block : Block)
  | write (place : ℕ) (data : List UInt8)
  | remember (key : ℤ) (object : Address)

/-- The heap after an event. -/
def Event.apply (b : Builder) : Event → Builder
  | .reserve block => b.reserve block.size
  | .write place data => b.put place data
  | .remember key object => b.remember key object

def Event.block? : Event → Option Block
  | .reserve block => some block
  | .write .. => none
  | .remember .. => none

/-- The blocks that are reserved. -/
def blocks (events : List Event) : List Block := events.filterMap Event.block?

theorem blocks_append (events events' : List Event) :
    blocks (events ++ events') = blocks events ++ blocks events' :=
  List.filterMap_append

namespace Builder

variable {α β : Type} {b b₁ b₂ : Builder} {key : ℤ}

theorem objectAt_inj {place place' : ℕ} (hplace : place + 1 < UInt64.size)
    (hplace' : place' + 1 < UInt64.size) (heq : objectAt place = objectAt place') :
    place = place' := by
  have hwords : UInt64.ofNat (place + 1) = UInt64.ofNat (place' + 1) := congrArg Address.word heq
  rw [← UInt64.toNat_inj, UInt64.toNat_ofNat_of_lt' hplace,
    UInt64.toNat_ofNat_of_lt' hplace'] at hwords
  omega

/-! ### What is remembered -/

/-- What a heap remembers is in its blocks, and nothing is remembered under two keys. -/
structure SoundTable (b : Builder) : Prop where
  reserved : ∀ (key : ℤ) object, b.shared[key]? = some object →
    ∃ place, object = objectAt place ∧ place + 1 < b.next
  apart : ∀ (key key' : ℤ) object, b.shared[key]? = some object → b.shared[key']? = some object →
    key = key'

/-- What one heap remembers, a later one does. -/
structure KeepsTable (b b' : Builder) : Prop where
  next_le : b.next ≤ b'.next
  kept : ∀ (key : ℤ) object, b.shared[key]? = some object → b'.shared[key]? = some object
  sound : b'.next ≤ UInt64.size → SoundTable b → SoundTable b'

theorem KeepsTable.trans (hkeeps : KeepsTable b b₁) (hkeeps' : KeepsTable b₁ b₂) :
    KeepsTable b b₂ := by
  refine ⟨hkeeps.next_le.trans hkeeps'.next_le,
    fun key object hobject => hkeeps'.kept _ _ (hkeeps.kept _ _ hobject), fun hnext hsound => ?_⟩
  exact hkeeps'.sound hnext (hkeeps.sound (hkeeps'.next_le.trans hnext) hsound)

theorem KeepsTable.of_eq (hshared : b₁.shared = b.shared) (hle : b.next ≤ b₁.next) :
    KeepsTable b b₁ := by
  refine ⟨hle, fun key object hobject => by rwa [hshared], fun _ hsound => ⟨?_, ?_⟩⟩
  · intro key object hobject
    rw [hshared] at hobject
    obtain ⟨place, hplace, hlt⟩ := hsound.reserved key object hobject
    exact ⟨place, hplace, hlt.trans_le hle⟩
  · rw [hshared]
    exact hsound.apart

theorem KeepsTable.refl : KeepsTable b b := .of_eq rfl le_rfl

/-- A new block is remembered under a key that was free to begin with. -/
theorem KeepsTable.insert (hkeeps : KeepsTable b b₁) (size : ℕ) (hkey : b.shared[key]? = none)
    (hshared : b₂.shared = b₁.shared.insert key (objectAt b₁.next))
    (hnext : b₂.next = b₁.next + blockBytes size) : KeepsTable b b₂ := by
  have hlookup (key' : ℤ) :
      b₂.shared[key']? = if key = key' then some (objectAt b₁.next) else b₁.shared[key']? := by
    rw [hshared, Std.HashMap.getElem?_insert]
    simp only [beq_iff_eq]
  have hblock : b₁.next + 1 < b₂.next := by
    rw [hnext, blockBytes]
    omega
  refine ⟨hkeeps.next_le.trans (by omega), fun key' object hobject => ?_, fun hfits hsound => ?_⟩
  · rw [hlookup, if_neg]
    · exact hkeeps.kept key' object hobject
    · rintro rfl
      cases hkey.symm.trans hobject
  · have hsound₁ := hkeeps.sound (by omega) hsound
    -- Nothing that was remembered before is the new block, which lies behind it.
    have hnew (key' : ℤ) : b₁.shared[key']? ≠ some (objectAt b₁.next) := by
      intro hobject
      obtain ⟨place, hplace, hlt⟩ := hsound₁.reserved _ _ hobject
      have := objectAt_inj (by omega) (by omega) hplace
      omega
    refine ⟨fun key' object hobject => ?_, fun key' key'' object hobject hobject' => ?_⟩
    · rw [hlookup] at hobject
      split at hobject
      case isTrue => exact ⟨b₁.next, (Option.some.inj hobject).symm, hblock⟩
      case isFalse =>
        obtain ⟨place, hplace, hlt⟩ := hsound₁.reserved _ _ hobject
        exact ⟨place, hplace, by omega⟩
    · rw [hlookup] at hobject hobject'
      split at hobject <;> split at hobject'
      case isTrue.isTrue hkey' hkey'' => exact hkey'.symm.trans hkey''
      case isTrue.isFalse => exact absurd (hobject'.trans hobject.symm) (hnew _)
      case isFalse.isTrue => exact absurd (hobject.trans hobject'.symm) (hnew _)
      case isFalse.isFalse => exact hsound₁.apart _ _ _ hobject hobject'

/-- What is remembered as the map of one-byte strings in a later heap, and was not in an earlier
one, is such a map, and behind all that there was. -/
def AddsStringMap (b b' : Builder) : Prop :=
  b'.next ≤ UInt64.size → b.shared[InstanceType.oneByteString]? = none →
    ∀ map, b'.shared[InstanceType.oneByteString]? = some map →
      ∃ place, map = objectAt place ∧ b.next ≤ place ∧
        b'.Has (place + 12) (numberBytes 2 InstanceType.oneByteString)

theorem AddsStringMap.of_eq_none (hnone : b.shared[InstanceType.oneByteString]? = none →
    b'.shared[InstanceType.oneByteString]? = none) : AddsStringMap b b' := by
  intro _ hfree map hmap
  cases (hnone hfree).symm.trans hmap

/-- Something is remembered besides what is kept. -/
theorem Kept.add {watched : Prop} {own : Set ℕ} (hkept : Kept False own b b')
    (hown : ∀ k ∈ own, k < b.next) (hnext : b'.next ≤ UInt64.size) (htable : KeepsTable b b')
    (hadds : watched → AddsStringMap b b') : Kept watched own b b' := by
  refine ⟨hkept.byte?, hkept.poisoned, fun _ => htable.kept _, fun hw hstrings map hmap => ?_⟩
  cases hbefore : b.shared[InstanceType.oneByteString]? with
  | none =>
    obtain ⟨place, hplace, hle, hhas⟩ := hadds hw hnext hbefore map hmap
    refine ⟨place, hplace, hhas, fun k hk => .inl ?_⟩
    have := hown k hk
    omega
  | some map' =>
    cases (htable.kept _ _ hbefore).symm.trans hmap
    obtain ⟨place, hplace, hhas, hapart⟩ := hstrings map hbefore
    refine ⟨place, hplace, hhas.kept hkept htable.next_le (htable.next_le.trans hnext) ?_, hapart⟩
    exact fun k hk => hapart k hk

/-! ### Accounts -/

/-- An account of a construction that may write to the blocks `own` and to those that it reserves.
Only in the account of a whole, where `shares` is true, something may be remembered. -/
inductive Account (watched : Prop) : Bool → List Block → {α : Type} → BuildM α → Type 1
  | pure {shares : Bool} {own : List Block} {α : Type} (a : α) :
      Account watched shares own (Pure.pure a)
  | bind {shares : Bool} {own : List Block} {α β : Type} {x : BuildM α} {f : α → BuildM β}
      (first : Account watched shares own x) (rest : ∀ a, Account watched shares own (f a)) :
      Account watched shares own (x >>= f)
  | look {shares : Bool} {own : List Block} {β : Type} {f : Builder → BuildM β}
      (rest : ∀ b, Account watched shares own (f b)) :
      Account watched shares own (MonadState.get >>= f)
  | alloc {shares : Bool} {own : List Block} {β : Type} {f : Address → BuildM β} (size : ℕ)
      (rest : ∀ start, Account watched shares (⟨start, size⟩ :: own) (f (objectAt start))) :
      Account watched shares own (Builder.alloc size >>= f)
  | write {shares : Bool} {own : List Block} {block : Block} {a : Address} (place : ℕ)
      (data : List UInt8) (hblock : block ∈ own) (hholds : block.Holds place data.length)
      (ha : a = ⟨UInt64.ofNat place⟩) : Account watched shares own (modifyMemory (·.write a data))
  | share {own : List Block} (key : ℤ) (object : Address) :
      Account watched true own (Builder.share key object)
  | whole {shares : Bool} {own : List Block} {α : Type} {x : BuildM α}
      (htable : ∀ b, KeepsTable b (after x b)) (hadds : watched → ∀ b, AddsStringMap b (after x b))
      (account : Account watched true own x) : Account watched shares own x

namespace Account

variable {watched : Prop} {shares : Bool} {own : List Block} {x : BuildM α}

/-- What a construction does to a heap. -/
def events : {shares : Bool} → {own : List Block} → {α : Type} → {x : BuildM α} →
    Account watched shares own x → Builder → List Event
  | _, _, _, _, .pure _, _ => []
  | _, _, _, _, .bind (x := x) first rest, b =>
    first.events b ++ (rest (value x b)).events (after x b)
  | _, _, _, _, .look rest, b => (rest b).events b
  | _, _, _, _, .alloc size rest, b =>
    .reserve ⟨b.next, size⟩ :: (rest b.next).events (b.reserve size)
  | _, _, _, _, .write place data .., _ => [.write place data]
  | _, _, _, _, .share key object, _ => [.remember key object]
  | _, _, _, _, .whole _ _ account, b => account.events b

/-- The events are all that happens. -/
theorem after_eq (account : Account watched shares own x) (b : Builder) :
    after x b = (account.events b).foldl Event.apply b := by
  induction account generalizing b with
  | pure a => rfl
  | bind first rest ihfirst ihrest =>
    rw [after_bind, events, List.foldl_append, ← ihfirst, ← ihrest]
  | look rest ih => exact ih b b
  | alloc size rest ih => exact ih b.next (b.reserve size)
  | write place data hblock hholds ha => subst ha; rfl
  | share key object => rfl
  | whole htable hadds account ih => exact ih b

/-- Blocks are reserved behind each other, from where the heap ends. -/
theorem laid (account : Account watched shares own x) (b : Builder) :
    Laid b.next (blocks (account.events b)) (after x b).next := by
  induction account generalizing b with
  | pure a => exact .nil _
  | bind first rest ihfirst ihrest =>
    rw [events, blocks_append]
    exact (ihfirst b).append (ihrest _ _)
  | look rest ih => exact ih b b
  | alloc size rest ih => exact .cons (ih b.next (b.reserve size))
  | write place data hblock hholds ha => exact .nil _
  | share key object => exact .nil _
  | whole htable hadds account ih => exact ih b

/-- All that is written is inside a block. -/
theorem inside (account : Account watched shares own x) (b : Builder) {place : ℕ}
    {data : List UInt8} (hwrite : .write place data ∈ account.events b) :
    ∃ block ∈ own ++ blocks (account.events b), block.Holds place data.length := by
  induction account generalizing b with
  | pure a => exact absurd hwrite List.not_mem_nil
  | bind first rest ihfirst ihrest =>
    simp only [events, blocks_append, List.mem_append] at hwrite ⊢
    rcases hwrite with hwrite | hwrite
    · obtain ⟨block, hblock, hholds⟩ := ihfirst b hwrite
      exact ⟨block, (List.mem_append.mp hblock).imp_right .inl, hholds⟩
    · obtain ⟨block, hblock, hholds⟩ := ihrest _ _ hwrite
      exact ⟨block, (List.mem_append.mp hblock).imp_right .inr, hholds⟩
  | look rest ih => exact ih b b hwrite
  | alloc size rest ih =>
    have hrest := (List.mem_cons.mp hwrite).resolve_left nofun
    obtain ⟨block, hblock, hholds⟩ := ih b.next (b.reserve size) hrest
    -- The new block was handed on.
    exact ⟨block, List.perm_middle.symm.subset hblock, hholds⟩
  | write place data hblock hholds ha =>
    cases List.mem_singleton.mp hwrite
    exact ⟨_, List.mem_append_left _ hblock, hholds⟩
  | share key object => cases List.mem_singleton.mp hwrite
  | whole htable hadds account ih => exact ih b hwrite

/-- Nothing is forgotten that was remembered. -/
theorem keepsTable (account : Account watched false own x) (b : Builder) :
    KeepsTable b (after x b) := by
  generalize hshares : false = shares at account
  induction account generalizing b with
  | pure a => exact .refl
  | bind first rest ihfirst ihrest => exact (ihfirst b hshares).trans (ihrest _ _ hshares)
  | look rest ih => exact ih b b hshares
  | @alloc _ _ _ f size rest ih =>
    have hreserve : KeepsTable b (b.reserve size) := .of_eq rfl (Nat.le_add_right ..)
    exact hreserve.trans (ih b.next (b.reserve size) hshares)
  | write place data hblock hholds ha => exact .of_eq rfl le_rfl
  | share key object => cases hshares
  | whole htable hadds account ih => exact htable b

/-- The places of blocks. -/
def places : List Block → Set ℕ
  | [] => ∅
  | block :: own => places own ∪ {k | block.start ≤ k ∧ k < block.start + block.size}

theorem mem_places {block : Block} {k : ℕ} (hblock : block ∈ own) (hle : block.start ≤ k)
    (hlt : k < block.start + block.size) : k ∈ places own := by
  induction own with
  | nil => cases hblock
  | cons block' own ih =>
    rcases List.mem_cons.mp hblock with rfl | hblock
    · exact .inr ⟨hle, hlt⟩
    · exact .inl (ih hblock)

/-- An account writes to nothing else than its blocks and those that are reserved in it, and a whole
keeps the map of one-byte strings if it is watched. -/
theorem tidy_places (account : Account watched shares own x) :
    Tidy (watched ∧ shares = false) (places own) x := by
  induction account with
  | pure a => exact .pure a
  | bind first rest ihfirst ihrest => exact ihfirst.bind ihrest
  | look rest ih => exact .get ih
  | alloc size rest ih => exact .alloc ih
  | write place data hblock hholds ha =>
    subst ha
    refine .put fun k hle hlt => mem_places hblock (hholds.start_le.trans hle) ?_
    exact hlt.trans_le hholds.le_stop
  | share key object =>
    refine .share ?_ key object
    rintro ⟨-, hshares⟩
    cases hshares
  | whole htable hadds account ih =>
    refine ⟨ih.next, fun b hown hnext => ?_⟩
    have hkept := ih.kept b hown hnext
    exact .add ⟨hkept.byte?, hkept.poisoned, False.elim, False.elim⟩ hown hnext (htable b)
      fun hw => hadds hw.1 b

/-- A construction that needs no blocks but its own is tidy. -/
theorem tidy (account : Account watched false [] x) : Tidy watched ∅ x := by
  have htidy := account.tidy_places
  rwa [eq_self, and_true] at htidy

/-! ### Writing -/

/-- Writing inside a block, at an offset from its start. -/
def setBytes {offset : ℤ} (hblock : ⟨start, size⟩ ∈ own) (data : List UInt8) (hoffset : 0 ≤ offset)
    (hfits : offset + data.length ≤ size) :
    Account watched shares own (Builder.setBytes (objectAt start) offset data) := by
  refine .write (start + offset.toNat) data hblock ⟨Nat.le_add_right .., ?_⟩ ?_
  · dsimp only
    omega
  · obtain ⟨offset, rfl⟩ := Int.eq_ofNat_of_zero_le hoffset
    exact offset_objectAt start offset

def setWord {offset : ℤ} (hblock : ⟨start, size⟩ ∈ own) (w : UInt64) (hoffset : 0 ≤ offset)
    (hfits : offset + 8 ≤ size) :
    Account watched shares own (Builder.setWord (objectAt start) offset w) :=
  setBytes hblock (Word.toBytes 8 w.toNat) hoffset hfits

def setMap (hblock : ⟨start, size⟩ ∈ own) (map : Address) (hsize : 8 ≤ size) :
    Account watched shares own (Builder.setMap (objectAt start) map) :=
  setWord hblock map.word le_rfl (by omega)

def setWords (hblock : ⟨start, size⟩ ∈ own) : (words : List UInt64) → {offset : ℤ} → 0 ≤ offset →
    offset + 8 * words.length ≤ size →
      Account watched shares own (Builder.setWords (objectAt start) offset words)
  | [], _, _, _ => .pure ()
  | w :: words, _, hoffset, hfits =>
    .bind (setWord hblock w hoffset (by rw [List.length_cons] at hfits; omega)) fun _ =>
      setWords hblock words (by omega) (by rw [List.length_cons] at hfits; omega)

/-- One thing done for each item. -/
def mapM {γ : Type} {f : γ → BuildM α} (items : List γ)
    (account : ∀ item, Account watched shares own (f item)) :
    Account watched shares own (items.mapM f) :=
  loop items []
where
  loop : (items : List γ) → (done : List α) →
      Account watched shares own (List.mapM.loop f items done)
    | [], done => .pure done.reverse
    | item :: items, done => .bind (account item) fun a => loop items (a :: done)

end Account

end Builder

end Postmortem.Synthetic
