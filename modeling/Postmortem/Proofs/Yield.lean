/-
Postmortem/Proofs/Yield.lean

What a computation yields.

`x.Yields h a` says that `x` succeeds on `h` with `a`.  A sequence of steps
yields what its steps yield, one after the other (`yields_bind`), so a
computation is taken apart into the steps that succeeded, and put together
from them.  Both kinds of repetition over a collection are `List.mapM`, and a
loop yields a value if its rounds do and a measure goes down.
-/
import Mathlib.Data.List.Forall2
import Postmortem.Heap

namespace Postmortem.HeapM

variable {α β σ : Type} {h h' : Heap} {a b : α} {x : HeapM α} {f : α → HeapM β}

/-- `x` succeeds on `h` with `a`. -/
def Yields (x : HeapM α) (h : Heap) (a : α) : Prop := (x h).result = .ok a

instance [DecidableEq α] : Decidable (x.Yields h a) :=
  match hx : (x h).result with
  | .ok b =>
    if hab : b = a then .isTrue (hx.trans (congrArg _ hab))
    else .isFalse fun hy => hab (Except.ok.inj (hx.symm.trans hy))
  | .error _ => .isFalse fun hy => nomatch hx.symm.trans hy

/-- What gives up yields nothing. -/
theorem Yields.returns (hx : x.Yields h a) : (x h).gaveUp = false := (x h).returned a hx

theorem Yields.unique (ha : x.Yields h a) (hb : x.Yields h b) : a = b :=
  Except.ok.inj (ha.symm.trans hb)

theorem yields_iff_toOption : x.Yields h a ↔ (x h).result.toOption = some a := by
  unfold Yields
  rcases (x h).result with e | b
  · exact ⟨nofun, nofun⟩
  · exact Except.ok.injEq b a ▸ Option.some.injEq b a ▸ Iff.rfl

/-! ### Steps -/

@[simp] theorem yields_pure : (pure a : HeapM α).Yields h b ↔ a = b := by
  show (Except.ok a : Except Failure α) = .ok b ↔ a = b
  exact Except.ok.injEq a b ▸ Iff.rfl

@[simp] theorem yields_fail {e : Failure} : ¬ (fail e : HeapM α).Yields h a := by
  intro hy
  cases hy

@[simp] theorem yields_giveUp {e : Failure} : ¬ (giveUp e : HeapM α).Yields h a := by
  intro hy
  cases hy

@[simp] theorem yields_layout {l : Layout} : layout.Yields h l ↔ h.layout = l := by
  show (Except.ok h.layout : Except Failure Layout) = .ok l ↔ h.layout = l
  exact Except.ok.injEq h.layout l ▸ Iff.rfl

theorem yields_bind {b : β} :
    (x >>= f).Yields h b ↔ ∃ a, x.Yields h a ∧ (f a).Yields h b := by
  unfold Yields
  rcases hx : (x h).result with e | a
  · rw [bind_error hx]
    simp [Outcome.failed]
  · rw [bind_ok hx]
    simp [Outcome.followedBy]

theorem Yields.bind {b : β} (hx : x.Yields h a) (hf : (f a).Yields h b) :
    (x >>= f).Yields h b :=
  yields_bind.mpr ⟨a, hx, hf⟩

theorem yields_map {f : α → β} {b : β} :
    (f <$> x).Yields h b ↔ ∃ a, x.Yields h a ∧ f a = b := by
  simp only [map_eq_pure_bind, yields_bind, yields_pure]

/-- Once `x` is known to succeed, what comes after it decides. -/
theorem Yields.bind_iff {b : β} (hx : x.Yields h a) :
    (x >>= f).Yields h b ↔ (f a).Yields h b := by
  refine ⟨fun hb => ?_, hx.bind⟩
  obtain ⟨a', ha', hb'⟩ := yields_bind.mp hb
  rwa [hx.unique ha']

theorem Yields.result_bind (hx : x.Yields h a) : ((x >>= f) h).result = (f a h).result := by
  rw [bind_ok hx]
  rfl

/-- Steps with the same outcomes, one after the other, have the same outcome. -/
theorem bind_congr {y : HeapM α} {g : α → HeapM β} (hx : y h' = x h)
    (hf : ∀ a, x.Yields h a → g a h' = f a h) : (y >>= g) h' = (x >>= f) h := by
  rcases hr : (x h).result with e | a
  · rw [bind_error hr, bind_error (hx ▸ hr), hx]
  · rw [bind_ok hr, bind_ok (hx ▸ hr), hx, hf a hr]

theorem yields_constant {c : Constant} {value : Int} :
    (constant c).Yields h value ↔ h.layout.value? c = some value := by
  unfold constant
  rw [Yields.bind_iff (yields_layout.mpr rfl)]
  split
  case h_1 found hfound => simp [hfound]
  case h_2 hnone => simp [hnone]

/-! ### Reads -/

theorem yields_pointerSize : pointerSize.Yields h h.layout.pointerSize :=
  (yields_layout.mpr rfl).bind (yields_pure.mpr rfl)

theorem yields_fieldAddress (object : Address) (offset : Int) :
    (fieldAddress object offset).Yields h (object.field offset h.layout) :=
  (yields_layout.mpr rfl).bind (yields_pure.mpr rfl)

/-- A number is read or not, and nothing else happens. -/
theorem unsigned_eq (a : Address) (width : Nat) :
    unsigned a width h =
      .of ((h.image.unsigned? a width).elim (.error (.unreadable a width)) .ok) := by
  unfold unsigned
  cases h.image.unsigned? a width <;> rfl

theorem yields_unsigned {a : Address} {width : Nat} {w : UInt64} :
    (unsigned a width).Yields h w ↔ h.image.unsigned? a width = some w := by
  unfold Yields unsigned
  cases h.image.unsigned? a width with
  | some w' => exact Except.ok.injEq w' w ▸ Option.some.injEq w' w ▸ Iff.rfl
  | none => exact ⟨nofun, nofun⟩

theorem yields_word {a : Address} {w : UInt64} :
    (word a).Yields h w ↔ h.image.word? a = some w := yields_unsigned

theorem yields_valueAt {a : Address} {v : Value} :
    (valueAt a).Yields h v ↔ ∃ w, h.image.word? a = some w ∧ .classify h.layout w = v := by
  simp only [valueAt, yields_bind, yields_word, yields_layout, yields_pure, exists_eq_left']

theorem yields_fetch {a : Address} {n : Nat} {bytes : List UInt8} :
    (fetch a n).Yields h bytes ↔ h.image.fetch a n = some bytes := by
  unfold Yields fetch
  cases h.image.fetch a n with
  | some found => exact Except.ok.injEq found bytes ▸ Option.some.injEq found bytes ▸ Iff.rfl
  | none => exact ⟨nofun, nofun⟩

theorem bytes_zero {a : Address} : bytes a 0 h = .of (.ok []) := rfl

theorem bytes_oversized {a : Address} {n : Nat} (hmax : maxReadBytes < n) :
    bytes a n h = .of (.error (.shape (.oversizedRead n a))) := by
  have hpos : n ≠ 0 := by omega
  rw [bytes, if_neg hpos, if_pos hmax]
  rfl

theorem bytes_eq_fetch {a : Address} {n : Nat} (hpos : 0 < n) (hmax : n ≤ maxReadBytes) :
    bytes a n = fetch a n := by
  rw [bytes, if_neg (Nat.ne_of_gt hpos), if_neg (Nat.not_lt.mpr hmax)]

/-! ### Repetition -/

theorem forRange_eq_mapM (start : Nat) (f : Nat → HeapM α) (count : Nat) :
    forRange start f count = (List.range' start count).mapM f := by
  induction count generalizing start with
  | zero => rfl
  | succ count ih => rw [forRange_succ, List.range'_succ, List.mapM_cons, ih]

/-- Items are gone through one by one, and all of them are found. -/
theorem yields_mapM {γ : Type} {f : γ → HeapM α} {items : List γ} {as : List α} :
    (items.mapM f).Yields h as ↔ List.Forall₂ (fun item a => (f item).Yields h a) items as := by
  induction items generalizing as with
  | nil => rw [List.mapM_nil, yields_pure, List.forall₂_nil_left_iff, eq_comm]
  | cons item items ih =>
    rw [List.mapM_cons, List.forall₂_cons_left_iff, yields_bind]
    simp only [yields_bind, yields_pure, ih]
    constructor
    · rintro ⟨a, ha, as', has', rfl⟩
      exact ⟨a, as', ha, has', rfl⟩
    · rintro ⟨a, as', ha, has', rfl⟩
      exact ⟨a, ha, as', has', rfl⟩

theorem yields_forRange {f : Nat → HeapM α} {start count : Nat} {as : List α} :
    (forRange start f count).Yields h as ↔
      List.Forall₂ (fun i a => (f i).Yields h a) (List.range' start count) as := by
  rw [forRange_eq_mapM, yields_mapM]

/-- A loop ends with `r` if each of its rounds goes on in a state with a smaller measure or ends
with `r`, and there are rounds enough. -/
theorem result_loop {step : σ → HeapM (σ ⊕ α)} {e : Failure} {r : Except Failure α}
    (inv : σ → Prop) (measure : σ → Nat)
    (hstep : ∀ s, inv s →
      (∃ s', (step s).Yields h (.inl s') ∧ inv s' ∧ measure s' < measure s) ∨
        (step s h).result = r.map .inr)
    {fuel : Nat} {s : σ} (hs : inv s) (hfuel : measure s < fuel) :
    (loop step e fuel s h).result = r := by
  induction fuel generalizing s with
  | zero => omega
  | succ fuel ih =>
    rw [loop_succ]
    rcases hstep s hs with ⟨s', hy, hs', hlt⟩ | hdone
    · rw [hy.result_bind]
      exact ih hs' (by omega)
    · cases r with
      | error f =>
        rw [bind_error hdone]
        rfl
      | ok a =>
        have hy : (step s).Yields h (.inr a) := hdone
        rw [hy.result_bind]
        rfl

/-- A loop yields `a` if each of its rounds goes on in a state with a smaller measure or ends with
`a`, and there are rounds enough. -/
theorem yields_loop {step : σ → HeapM (σ ⊕ α)} {e : Failure} (inv : σ → Prop) (measure : σ → Nat)
    (hstep : ∀ s, inv s →
      (∃ s', (step s).Yields h (.inl s') ∧ inv s' ∧ measure s' < measure s) ∨
        (step s).Yields h (.inr a))
    {fuel : Nat} {s : σ} (hs : inv s) (hfuel : measure s < fuel) :
    (loop step e fuel s).Yields h a :=
  result_loop inv measure hstep hs hfuel

end Postmortem.HeapM
