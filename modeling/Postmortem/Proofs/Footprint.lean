/-
Postmortem/Proofs/Footprint.lean

What a computation asks the image for.

`Confined h P x` says that `x` can be put together, on `h`, from requests for bytes
that `P` allows.  Other than strictness it leaves room for going on after a failed
read, so nothing but the requests themselves is restricted.

A confined computation cannot tell heaps apart that answer those requests in the
same way: its outcome is one and the same (`Confined.congr`).

Of special interest are computations that ask for no byte of certain words.  A
strict computation that succeeds in a heap without those words is one of them
(`Reads.confined_apart`), so that what it asks for need not be listed.
-/
import Postmortem.Proofs.Listing
import Postmortem.Proofs.Readers

namespace Postmortem

open HeapM

variable {α β σ : Type} {h h' : Heap} {P : Address → ℕ → Prop}

namespace HeapM

variable {x : HeapM α} {f : α → HeapM β}

/-- Put together, on `h`, from requests that `P` allows.  What comes after a step is asked for the
values only that the step yields. -/
inductive Confined (h : Heap) (P : Address → ℕ → Prop) : {α : Type} → HeapM α → Prop
  | pure {α : Type} {a : α} : Confined h P (pure a)
  | fail {α : Type} {e : Failure} : Confined h P (fail e : HeapM α)
  | giveUp {α : Type} {e : Failure} : Confined h P (giveUp e : HeapM α)
  | layout : Confined h P layout
  | unsigned {a : Address} {width : ℕ} : P a width → Confined h P (unsigned a width)
  | fetch {a : Address} {length : ℕ} : P a length → Confined h P (fetch a length)
  | attempt {α : Type} {x : HeapM α} : Confined h P x → Confined h P (attempt x)
  | andThen {α β : Type} {x : HeapM α} {f : α → HeapM β} :
      Confined h P x → (∀ a, x.Yields h a → Confined h P (f a)) → Confined h P (x >>= f)

/-- `h'` has the layout of `h` and answers the requests that `P` allows in the same way. -/
structure Agree (P : Address → ℕ → Prop) (h h' : Heap) : Prop where
  layout : h'.layout = h.layout
  fetch : ∀ a n, P a n → h'.image.fetch a n = h.image.fetch a n

theorem Agree.unsigned? (hagree : Agree P h h') {a : Address} {width : ℕ} (ha : P a width) :
    h'.image.unsigned? a width = h.image.unsigned? a width := by
  rw [Image.unsigned?, Image.unsigned?, hagree.fetch a width ha]

theorem mapM_congr {items : List σ} {f g : σ → HeapM α} (hf : ∀ i ∈ items, g i h' = f i h) :
    items.mapM g h' = items.mapM f h := by
  induction items with
  | nil => rfl
  | cons item items ih =>
    rw [List.mapM_cons, List.mapM_cons]
    refine bind_congr (hf item List.mem_cons_self) fun a _ => ?_
    exact bind_congr (ih fun i hi => hf i (List.mem_cons_of_mem _ hi)) fun _ _ => rfl

/-- What a confined computation finds, and what it asks for on the way, is settled by the answers to
the requests that it may make. -/
theorem Confined.congr (hx : Confined h P x) (hagree : Agree P h h') : x h' = x h := by
  induction hx with
  | pure => rfl
  | fail => rfl
  | giveUp => rfl
  | layout =>
    show Outcome.of (.ok h'.layout) = _
    rw [hagree.layout]
    rfl
  | unsigned ha =>
    unfold HeapM.unsigned
    rw [hagree.unsigned? ha]
  | fetch ha =>
    unfold HeapM.fetch
    rw [hagree.fetch _ _ ha]
  | attempt _ ih =>
    unfold HeapM.attempt
    rw [ih]
  | andThen _ _ ihx ihf => exact bind_congr ihx ihf

theorem confined_constant {c : Constant} : Confined h P (constant c) :=
  .andThen .layout fun l _ => by
    split
    · exact .pure
    · exact .fail

theorem Confined.mapM {items : List σ} {f : σ → HeapM α} (hf : ∀ i ∈ items, Confined h P (f i)) :
    Confined h P (items.mapM f) := by
  induction items with
  | nil => exact .pure
  | cons item items ih =>
    rw [List.mapM_cons]
    refine .andThen (hf item List.mem_cons_self) fun a _ => ?_
    exact .andThen (ih fun i hi => hf i (List.mem_cons_of_mem _ hi)) fun _ _ => .pure

theorem Confined.yields_iff (hx : Confined h P x) (hagree : Agree P h h') {a : α} :
    x.Yields h' a ↔ x.Yields h a := by
  rw [Yields, Yields, hx.congr hagree]

end HeapM

/-! ### Words left out -/

/-- None of the `n` bytes at `a` belongs to the word at `slot`; addresses wrap. -/
def Address.Apart (slot a : Address) (n : ℕ) : Prop :=
  ∀ i < n, ∀ j : ℕ, j < 8 → a.offset i ≠ slot.offset j

instance (slot a : Address) (n : ℕ) : Decidable (slot.Apart a n) :=
  inferInstanceAs (Decidable (∀ i < n, ∀ j : ℕ, j < 8 → a.offset i ≠ slot.offset j))

/-- None of the `n` bytes at `a` belongs to one of the words at `slots`. -/
def ApartFrom (slots : List Address) (a : Address) (n : ℕ) : Prop := ∀ slot ∈ slots, slot.Apart a n

instance (slots : List Address) (a : Address) (n : ℕ) : Decidable (ApartFrom slots a n) :=
  inferInstanceAs (Decidable (∀ slot ∈ slots, slot.Apart a n))

/-- The heap in which no byte of the words at `slots` was captured. -/
def Heap.without (h : Heap) (slots : List Address) : Heap where
  layout := h.layout
  image :=
    { generation := h.image.generation
      fetch := fun a n => if ApartFrom slots a n then h.image.fetch a n else none
      length_fetch := by
        intro a n bytes hfetch
        split at hfetch
        · exact h.image.length_fetch a n bytes hfetch
        · cases hfetch }

variable {slots : List Address}

theorem agree_without (h : Heap) (slots : List Address) :
    Agree (ApartFrom slots) h (h.without slots) where
  layout := rfl
  fetch := fun _ _ hapart => if_pos hapart

/-- What is captured without the words lies apart from them. -/
theorem apartFrom_of_fetch {a : Address} {n : ℕ} {bytes : List UInt8}
    (hfetch : (h.without slots).image.fetch a n = some bytes) : ApartFrom slots a n := by
  by_contra hnot
  have hnone : (h.without slots).image.fetch a n = none := if_neg hnot
  rw [hnone] at hfetch
  cases hfetch

namespace HeapM

variable {x : HeapM α} {S : Address → Prop}

/-- A computation that asks for no byte of the words finds the same without them. -/
theorem Confined.eq_of_without (hx : Confined h (ApartFrom slots) x) {a b : α}
    (ha : x.Yields (h.without slots) a) (hb : x.Yields h b) : a = b :=
  ha.unique ((hx.yields_iff (agree_without h slots)).mpr hb)

/-- A strict computation that succeeds without the words asks for no byte of them, if the strings
that it resolves are read like that. -/
theorem Strict.confined (hx : Strict h S x)
    (hS : ∀ string units, S string → (JsString.codeUnits string).Yields (h.without slots) units →
      Confined h (ApartFrom slots) (JsString.codeUnits string))
    {a : α} (ha : x.Yields (h.without slots) a) : Confined h (ApartFrom slots) x := by
  induction hx with
  | pure => exact .pure
  | fail => exact .fail
  | layout => exact .layout
  | @unsigned a width =>
    refine .unsigned ?_
    unfold Yields HeapM.unsigned at ha
    split at ha
    case h_1 w hw =>
      unfold Image.unsigned? at hw
      split at hw
      case isTrue =>
        obtain ⟨bytes, hbytes, -⟩ := Option.map_eq_some_iff.mp hw
        exact apartFrom_of_fetch hbytes
      case isFalse => cases hw
    case h_2 => cases ha
  | @fetch a length =>
    refine .fetch ?_
    unfold Yields HeapM.fetch at ha
    split at ha
    case h_1 bytes hbytes => exact apartFrom_of_fetch hbytes
    case h_2 => cases ha
  | codeUnits hstring => exact hS _ _ hstring ha
  | andThen _ _ ihx ihf =>
    obtain ⟨a', ha', hb⟩ := yields_bind.mp ha
    have hconfined := ihx ha'
    refine .andThen hconfined fun found hfound => ?_
    obtain rfl := hconfined.eq_of_without ha' hfound
    exact ihf a' hfound hb

/-- A loop that succeeds without the words asks for no byte of them, if its rounds do not. -/
theorem confined_loop {step : σ → HeapM (σ ⊕ α)}
    (hstep : ∀ s next, (step s).Yields (h.without slots) next →
      Confined h (ApartFrom slots) (step s))
    {e : Failure} {fuel : ℕ} {s : σ} {a : α}
    (ha : (loop step e fuel s).Yields (h.without slots) a) :
    Confined h (ApartFrom slots) (loop step e fuel s) := by
  induction fuel generalizing s with
  | zero => exact .giveUp
  | succ fuel ih =>
    rw [loop_succ] at ha ⊢
    obtain ⟨next, hnext, ha⟩ := yields_bind.mp ha
    have hconfined := hstep s next hnext
    refine .andThen hconfined fun found hfound => ?_
    obtain rfl := hconfined.eq_of_without hnext hfound
    cases next with
    | inl s' => exact ih ha
    | inr a' => exact .pure

/-- What is read with success in a heap without the words asks for no byte of them. -/
theorem Reads.confined_apart (hx : Reads h x) {a : α} (ha : x.Yields (h.without slots) a) :
    Confined h (ApartFrom slots) x := by
  refine hx.confined (fun string units _ hunits => ?_) ha
  refine confined_loop (fun p next hnext => ?_) hunits
  exact (JsString.Progress.strict_advance (S := fun _ => False)).confined nofun hnext

end HeapM

/-! ### One word of a list of blocks -/

namespace Synthetic

variable {start a : Address} {before word word' after : List UInt8} {i n : ℕ}

theorem getElem?_around (hword : word.length = 8) (hword' : word'.length = 8)
    (hout : i < before.length ∨ before.length + 8 ≤ i) :
    (before ++ word ++ after)[i]? = (before ++ word' ++ after)[i]? := by
  rw [List.append_assoc, List.append_assoc]
  rcases hout with hlt | hge
  · rw [List.getElem?_append_left hlt, List.getElem?_append_left hlt]
  · rw [List.getElem?_append_right (by omega), List.getElem?_append_right (by omega),
      List.getElem?_append_right (by omega), List.getElem?_append_right (by omega), hword, hword']

/-- A part of a block that lies apart from a word in it does not tell what the word is. -/
theorem blockPart_congr (hword : word.length = 8) (hword' : word'.length = 8)
    (hapart : (start.offset before.length).Apart a n) :
    blockPart a n (start, before ++ word ++ after) =
      blockPart a n (start, before ++ word' ++ after) := by
  have hlength : (before ++ word ++ after).length = (before ++ word' ++ after).length := by
    simp only [List.length_append, hword, hword']
  unfold blockPart
  dsimp only
  rw [hlength]
  refine ite_congr rfl (fun hle => congrArg some ?_) fun _ => rfl
  obtain ⟨hle, -⟩ := hle
  have hnat : start.word.toNat ≤ a.word.toNat := hle
  refine List.ext_getElem? fun i => ?_
  rw [List.getElem?_take, List.getElem?_take, List.getElem?_drop, List.getElem?_drop]
  refine ite_congr rfl (fun hi => getElem?_around hword hword' ?_) fun _ => rfl
  by_contra hin
  -- Otherwise byte `i` of the part is one of the word's.
  let j := a.word.toNat - start.word.toNat + i - before.length
  refine hapart i hi j (by omega) ?_
  rw [← start.offset_distance a, Address.offset_offset, Address.offset_offset]
  congr 1
  omega

/-- Heaps that differ in one word of a block agree apart from it. -/
theorem agree_listedImage (start : Address) (before : List UInt8) (hword : word.length = 8)
    (hword' : word'.length = 8) (rest : List (Address × List UInt8)) (l : Layout) :
    Agree (ApartFrom [start.offset before.length])
      ⟨listedImage ((start, before ++ word ++ after) :: rest), l⟩
      ⟨listedImage ((start, before ++ word' ++ after) :: rest), l⟩ where
  layout := rfl
  fetch := fun a n hapart => by
    show List.findSome? _ _ = List.findSome? _ _
    rw [List.findSome?_cons, List.findSome?_cons,
      blockPart_congr hword hword' (hapart _ List.mem_cons_self)]

end Synthetic

end Postmortem
