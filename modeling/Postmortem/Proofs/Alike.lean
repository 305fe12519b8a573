/-
Postmortem/Proofs/Alike.lean

Runs that are alike.

`Alike h h' x` says that `x` has one outcome on both heaps, and that it is a result
and nothing else: no range of bytes is asked for on the way, and nothing is given up.
That is kept from step to step (`Alike.andThen`), and it holds of reading fields,
where both heaps tell the same of their words.  On one heap it says what a run of
such steps leaves behind, so that it can be left out of a longer one (`bind_eq`).
-/
import Postmortem.Proofs.Yield

namespace Postmortem

open HeapM

variable {h h' : Heap} {object : Address}

namespace HeapM

variable {α β : Type} {x : HeapM α} {f : α → HeapM β} {a : α} {c : Constant}

/-- The outcome of `x` is the same on both heaps, no range of bytes is asked for on the way, and
nothing is given up. -/
def Alike (h h' : Heap) (x : HeapM α) : Prop := ∃ r, x h = .of r ∧ x h' = .of r

namespace Alike

theorem pure : Alike h h' (pure a) := ⟨_, rfl, rfl⟩

theorem fail {e : Failure} : Alike h h' (fail e : HeapM α) := ⟨_, rfl, rfl⟩

theorem unsigned {a : Address} {width : ℕ} : Alike h h (unsigned a width) :=
  ⟨_, unsigned_eq a width, unsigned_eq a width⟩

theorem andThen (hx : Alike h h' x) (hf : ∀ a, x.Yields h a → Alike h h' (f a)) :
    Alike h h' (x >>= f) := by
  obtain ⟨r, hr, hr'⟩ := hx
  cases r with
  | error e =>
    refine ⟨.error e, ?_, ?_⟩
    · rw [bind_error (congrArg Outcome.result hr), hr]
      rfl
    · rw [bind_error (congrArg Outcome.result hr'), hr']
      rfl
  | ok a =>
    obtain ⟨s, hs, hs'⟩ := hf a (congrArg Outcome.result hr)
    refine ⟨s, ?_, ?_⟩
    · rw [bind_ok (congrArg Outcome.result hr), hr, hs]
      rfl
    · rw [bind_ok (congrArg Outcome.result hr'), hr', hs']
      rfl

theorem bind (hx : Alike h h' x) (hf : ∀ a, Alike h h' (f a)) : Alike h h' (x >>= f) :=
  hx.andThen fun a _ => hf a

theorem ite {p : Prop} [Decidable p] {x y : HeapM α} (hx : Alike h h' x) (hy : Alike h h' y) :
    Alike h h' (if p then x else y) := by
  split
  · exact hx
  · exact hy

/-- It is enough to look at one of the runs if the outcomes are known to be the same. -/
theorem of_eq (hx : Alike h h x) (heq : x h' = x h) : Alike h h' x := by
  obtain ⟨r, hr, -⟩ := hx
  exact ⟨r, hr, heq.trans hr⟩

theorem eq_of_yields (hx : Alike h h' x) (ha : x.Yields h a) : x h' = .of (.ok a) := by
  obtain ⟨r, hr, hr'⟩ := hx
  have hresult : r = .ok a := (congrArg Outcome.result hr).symm.trans ha
  rw [hr', hresult]

/-- What comes before is left out of the outcome, once it is known what it yields. -/
theorem bind_eq (hx : Alike h h x) (ha : x.Yields h a) : (x >>= f) h = f a h := by
  rw [bind_ok ha, hx.eq_of_yields ha]
  rfl

/-- What is found on two heaps on either of which it is found without asking for bytes. -/
theorem eq_of_yields_both (hx : Alike h h x) (hx' : Alike h' h' x) (ha : x.Yields h a)
    (ha' : x.Yields h' a) : x h' = x h :=
  (hx'.eq_of_yields ha').trans (hx.eq_of_yields ha).symm

end Alike

/-! ### Reads -/

section

variable (hlayout : h'.layout = h.layout)
include hlayout

theorem alike_layout : Alike h h' layout :=
  ⟨.ok h.layout, rfl, congrArg (fun l => Outcome.of (.ok l)) hlayout⟩

theorem alike_constant : Alike h h' (constant c) :=
  (alike_layout hlayout).bind fun l => by
    split
    · exact .pure
    · exact .fail

end

theorem alike_fieldAt : Alike h h (fieldAt object c) :=
  (alike_constant rfl).bind fun _ => (alike_layout rfl).bind fun _ => .pure

theorem alike_fieldWord : Alike h h (fieldWord object c) :=
  alike_fieldAt.bind fun _ => .unsigned

theorem alike_smallInteger {a : Address} : Alike h h (smallInteger object c a) :=
  .bind (.bind .unsigned fun _ => (alike_layout rfl).bind fun _ => .pure) fun
    | .smi .. => .pure
    | .heap _ => .fail

theorem alike_int : Alike h h (int object c) := by
  refine alike_fieldAt.bind fun _ => (alike_layout rfl).bind fun l => ?_
  cases l.storage c with
  | tagged => exact alike_smallInteger
  | smi => exact alike_smallInteger
  | int32 => exact .bind .unsigned fun _ => .pure
  | uint16 => exact .bind .unsigned fun _ => .pure
  | uint8 => exact .bind .unsigned fun _ => .pure
  | word => exact .bind .unsigned fun _ => .pure

theorem alike_count : Alike h h (count object c) :=
  alike_int.bind fun _ => .pure

/-- What a field holds is told by the word in it. -/
theorem alike_value (hlayout : h'.layout = h.layout)
    (hword : fieldWord object c h' = fieldWord object c h) : Alike h h' (value object c) := by
  have hvalue : value object c = (do
      let raw ← fieldWord object c
      let l ← layout
      Pure.pure (.classify l raw)) := by
    simp only [value, valueAt, fieldWord, bind_assoc]
  rw [hvalue]
  exact (alike_fieldWord.of_eq hword).bind fun _ => (alike_layout hlayout).bind fun _ => .pure

theorem alike_pointer (hlayout : h'.layout = h.layout)
    (hword : fieldWord object c h' = fieldWord object c h) : Alike h h' (pointer object c) :=
  (alike_value hlayout hword).bind fun
    | .heap _ => .pure
    | .smi .. => .fail

end HeapM

end Postmortem
