/-
Postmortem/Proofs/Collections.lean

Lists and optional values.

Readings of a heap are told by relations, and what is found in a row is related to what
was asked for item by item (`List.Forall₂`).  The first section takes such rows apart
and puts them together: along an append, through a list in between
(`forall₂_exists_iff`), and by the numbers of the items (`forall₂_range'_iff`).  The
second is about the item at a place, the third about pieces of a list, and the last
about values that may be missing.
-/
import Mathlib.Data.List.Forall2
import Mathlib.Data.List.Basic

namespace Postmortem

variable {α β γ : Type}

/-! ### Items in pairs -/

section

variable {R R' : α → β → Prop} {S : β → γ → Prop} {as as' : List α} {bs : List β} {start n : ℕ}

/-- Pairs are only asked about items of the list on the left. -/
theorem forall₂_congr_left (hiff : ∀ a ∈ as, ∀ b, R a b ↔ R' a b) :
    List.Forall₂ R as bs ↔ List.Forall₂ R' as bs := by
  induction as generalizing bs with
  | nil => rw [List.forall₂_nil_left_iff, List.forall₂_nil_left_iff]
  | cons a as ih =>
    rw [List.forall₂_cons_left_iff, List.forall₂_cons_left_iff]
    have htail := fun bs => @ih bs fun a' ha' => hiff a' (List.mem_cons_of_mem a ha')
    simp only [hiff a List.mem_cons_self, htail]

theorem forall₂_append_left_iff :
    List.Forall₂ R (as ++ as') bs ↔
      ∃ xs ys, bs = xs ++ ys ∧ List.Forall₂ R as xs ∧ List.Forall₂ R as' ys := by
  constructor
  · intro hall
    refine ⟨bs.take as.length, bs.drop as.length, (List.take_append_drop ..).symm, ?_, ?_⟩
    · simpa using List.forall₂_take as.length hall
    · simpa using List.forall₂_drop as.length hall
  · rintro ⟨xs, ys, rfl, hxs, hys⟩
    exact List.rel_append hxs hys

theorem exists_forall₂_iff : (∃ bs, List.Forall₂ R as bs) ↔ ∀ a ∈ as, ∃ b, R a b := by
  induction as with
  | nil => simp
  | cons a as ih =>
    rw [List.forall_mem_cons, ← ih]
    constructor
    · rintro ⟨bs, hbs⟩
      obtain ⟨b, rest, hb, hrest, -⟩ := List.forall₂_cons_left_iff.mp hbs
      exact ⟨⟨b, hb⟩, rest, hrest⟩
    · rintro ⟨⟨b, hb⟩, bs, hbs⟩
      exact ⟨b :: bs, .cons hb hbs⟩

theorem forall₂_exists_iff {cs : List γ} :
    List.Forall₂ (fun a c => ∃ b, R a b ∧ S b c) as cs ↔
      ∃ bs, List.Forall₂ R as bs ∧ List.Forall₂ S bs cs := by
  constructor
  · intro hall
    induction hall with
    | nil => exact ⟨[], .nil, .nil⟩
    | cons hac _ ih =>
      obtain ⟨b, hR, hS⟩ := hac
      obtain ⟨bs, hRs, hSs⟩ := ih
      exact ⟨b :: bs, .cons hR hRs, .cons hS hSs⟩
  · rintro ⟨bs, hRs, hSs⟩
    induction hRs generalizing cs with
    | nil => cases hSs; exact .nil
    | cons hR _ ih =>
      cases hSs with
      | cons hS hSs => exact .cons ⟨_, hR, hS⟩ (ih hSs)

theorem forall₂_image_iff {f : α → β} :
    List.Forall₂ (fun a b => f a = b) as bs ↔ as.map f = bs := by
  rw [← List.forall₂_map_left_iff (R := Eq), List.forall₂_eq_eq_eq]

theorem forall₂_range'_iff (hlength : start + n ≤ as.length) :
    List.Forall₂ (fun i b => ∃ a, as[i]? = some a ∧ R a b) (List.range' start n) bs ↔
      List.Forall₂ R ((as.drop start).take n) bs := by
  induction n generalizing start bs with
  | zero => simp
  | succ n ih =>
    rw [List.range'_succ, List.drop_eq_getElem_cons (by omega), List.take_succ_cons,
      List.forall₂_cons_left_iff, List.forall₂_cons_left_iff]
    have hget : as[start]? = some as[start] := List.getElem?_eq_getElem (by omega)
    have hrest : start + 1 + n ≤ as.length := by omega
    simp only [ih hrest, hget, Option.some.injEq, exists_eq_left']

theorem forall₂_map_zip {S : α → γ → Prop} {f : α × β → γ} (hall : List.Forall₂ R as bs)
    (hf : ∀ a b, R a b → S a (f (a, b))) : List.Forall₂ S as ((as.zip bs).map f) := by
  induction hall with
  | nil => exact .nil
  | cons hab _ ih => exact .cons (hf _ _ hab) ih

/-- What is found for numbered items, where the numbers are counted anew. -/
theorem forall₂_map_zipIdx {R : ℕ → α → Prop} {S : ℕ → β → Prop} {f : α × ℕ → β}
    (hall : List.Forall₂ R (List.range' start n) as)
    (hf : ∀ i, ∀ a ∈ as, R i a → S i (f (a, i))) :
    List.Forall₂ S (List.range' start n) ((as.zipIdx start).map f) := by
  induction n generalizing start as with
  | zero =>
    cases hall
    exact .nil
  | succ n ih =>
    rw [List.range'_succ] at hall ⊢
    obtain ⟨a, as, ha, hrest, rfl⟩ := List.forall₂_cons_left_iff.mp hall
    rw [List.zipIdx_cons, List.map_cons]
    exact .cons (hf start a List.mem_cons_self ha)
      (ih hrest fun i other hmem => hf i other (List.mem_cons_of_mem a hmem))

end

/-! ### Places -/

section

variable {as : List α} {a c : α} {i : ℕ}

theorem getElem?_concat_eq_some :
    (as ++ [a])[i]? = some c ↔ as[i]? = some c ∨ a = c ∧ as.length = i := by
  rcases Nat.lt_trichotomy i as.length with hlt | rfl | hgt
  · rw [List.getElem?_append_left hlt]
    simp [Nat.ne_of_gt hlt]
  · simp
  · have hlength : (as ++ [a]).length ≤ i := by rwa [List.length_append]
    rw [List.getElem?_eq_none hlength, List.getElem?_eq_none (Nat.le_of_lt hgt)]
    simp [Nat.ne_of_lt hgt]

theorem getElem?_map_eq_some {f : α → β} (hf : ∀ x ∈ as, f x = f c ↔ x = c) :
    (as.map f)[i]? = some (f c) ↔ as[i]? = some c := by
  rw [List.getElem?_map]
  rcases has : as[i]? with - | x
  · simp
  · simpa using hf x (List.mem_of_getElem? has)

theorem getElem?_flatMap_triple {f : α → List β} (hlength : ∀ a, (f a).length = 3) {j : ℕ}
    (ha : as[i]? = some a) (hj : j < 3) : (as.flatMap f)[3 * i + j]? = (f a)[j]? := by
  induction as generalizing i with
  | nil => cases ha
  | cons item as ih =>
    have hfirst := hlength item
    rw [List.flatMap_cons]
    rcases i with - | i
    · cases ha
      rw [Nat.mul_zero, Nat.zero_add, List.getElem?_append_left (by omega)]
    · rw [List.getElem?_append_right (by omega), hfirst,
        show 3 * (i + 1) + j - 3 = 3 * i + j by omega]
      exact ih ha

end

/-! ### Pieces -/

/-- A list is cut into one more piece than it has separators. -/
theorem length_splitOn [BEq α] {a : α} (l : List α) : (l.splitOn a).length = l.count a + 1 := by
  induction l with
  | nil => rfl
  | cons b l ih =>
    rw [List.splitOn_cons_eq_if_modifyHead, List.count_cons]
    split
    · rw [List.length_cons, ih]
    · rw [List.length_modifyHead, ih]

/-- What is cut off at an end is not missed where the piece ends before it. -/
theorem take_drop_take {as : List α} {count offset width : ℕ} (hle : offset + width ≤ count) :
    ((as.take count).drop offset).take width = (as.drop offset).take width := by
  rw [List.drop_take, List.take_take, Nat.min_eq_left (Nat.le_sub_of_add_le' hle)]

theorem filterMap_id_map_ite (p : α → Bool) (f : α → β) (items : List α) :
    (items.map fun item => if p item then some (f item) else none).filterMap id =
      (items.filter p).map f := by
  induction items with
  | nil => rfl
  | cons item items ih => cases hp : p item <;> simp [hp, ← ih]

theorem countP_lt_range (m n : ℕ) : (List.range n).countP (fun i => decide (i < m)) = min m n := by
  induction n with
  | zero => rw [List.range_zero, List.countP_nil, Nat.min_zero]
  | succ n ih =>
    rw [List.range_succ, List.countP_append, ih, List.countP_singleton]
    split
    case isTrue hlt =>
      rw [decide_eq_true_eq] at hlt
      omega
    case isFalse hlt =>
      rw [decide_eq_true_eq] at hlt
      omega

/-! ### Optional values -/

section

variable {R S : α → β → Prop} {a : Option α} {b : Option β}

theorem rel_imp (himp : ∀ x ∈ a, ∀ y, R x y → S x y) (hrel : Option.Rel R a b) :
    Option.Rel S a b := by
  cases hrel with
  | none => exact .none
  | some hR => exact .some (himp _ rfl _ hR)

theorem exists_of_rel (hrel : Option.Rel R a b) {y : β} (hy : y ∈ b) : ∃ x ∈ a, R x y := by
  cases hrel with
  | none => cases hy
  | some hR =>
    cases hy
    exact ⟨_, rfl, hR⟩

end

end Postmortem
