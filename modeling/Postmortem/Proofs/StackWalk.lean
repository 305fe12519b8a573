/-
Postmortem/Proofs/StackWalk.lean

Walking up a stack.

The caller of a frame is told by the frame record, the two words at the frame
pointer: the caller's frame pointer, and behind it the address that the call
returns to (`ReturnsTo`).  A frame whose record does not make sense has no caller,
for one of the reasons of `IsOutermost`.  Every frame has a caller or is outermost,
and none is both (`exists_returnsTo_or_isOutermost`, `ReturnsTo.not_isOutermost`).

A stack is a list of frames, each but the first the caller of the one before, that
ends with an outermost frame unless it has reached its limit (`IsStack`).  The words
of the memory leave no choice, so there is one such list, whatever the memory holds,
and it is what the walk finds.

Main result: `walk_eq_iff`.
-/
import Mathlib.Data.List.Chain
import Mathlib.Data.Option.Basic
import Postmortem.Frame

namespace Postmortem.Frame

variable {m : Image} {f g : Frame} {frames rest : List Frame} {limit : ℕ}

/-! ### Callers -/

/-- The record of a frame makes sense and tells its caller. -/
structure ReturnsTo (m : Image) (f caller : Frame) : Prop where
  record_ne_null : f.fp ≠ .null
  record_lt : f.fp.word.toNat + 8 < UInt64.size
  fp : m.word? f.fp = some caller.fp.word
  pc : m.word? (f.fp.add 8) = some caller.pc.word
  fp_lt : f.fp.word < caller.fp.word
  pc_ne_null : caller.pc ≠ .null

/-- Why a frame has no caller. -/
inductive IsOutermost (m : Image) (f : Frame) : Prop
  | nullRecord : f.fp = .null → IsOutermost m f
  | recordOverflows : UInt64.size ≤ f.fp.word.toNat + 8 → IsOutermost m f
  | unreadableFp : m.word? f.fp = none → IsOutermost m f
  | unreadablePc : m.word? (f.fp.add 8) = none → IsOutermost m f
  | nullFp : m.word? f.fp = some 0 → IsOutermost m f
  | notAbove {fp : UInt64} : m.word? f.fp = some fp → fp ≤ f.fp.word → IsOutermost m f
  | nullPc : m.word? (f.fp.add 8) = some 0 → IsOutermost m f

theorem ReturnsTo.not_isOutermost (hreturns : ReturnsTo m f g) : ¬ IsOutermost m f := by
  intro houtermost
  cases houtermost with
  | nullRecord hnull => exact hreturns.record_ne_null hnull
  | recordOverflows hle => exact absurd hreturns.record_lt (Nat.not_lt.mpr hle)
  | unreadableFp hnone => cases hreturns.fp.symm.trans hnone
  | unreadablePc hnone => cases hreturns.pc.symm.trans hnone
  | nullFp hzero =>
    have hfp : g.fp.word = 0 := Option.some.inj (hreturns.fp.symm.trans hzero)
    have hlt := hreturns.fp_lt
    rw [hfp] at hlt
    exact absurd hlt UInt64.not_lt_zero
  | notAbove hfp hle =>
    obtain rfl := Option.some.inj (hreturns.fp.symm.trans hfp)
    exact absurd hreturns.fp_lt (UInt64.not_lt.mpr hle)
  | nullPc hzero =>
    have hpc : g.pc.word = 0 := Option.some.inj (hreturns.pc.symm.trans hzero)
    exact hreturns.pc_ne_null (congrArg Address.mk hpc)

theorem isNull_eq_false_iff {a : Address} : a.isNull = false ↔ a ≠ .null := by
  obtain ⟨word⟩ := a
  simp [Address.isNull, Address.null]

theorem caller?_of_returnsTo (hreturns : ReturnsTo m f g) :
    caller? m f.fp = some (g.pc, g.fp) := by
  have hrecord := isNull_eq_false_iff.mpr hreturns.record_ne_null
  have hpc := isNull_eq_false_iff.mpr hreturns.pc_ne_null
  have hslot : f.fp.checkedAdd? 8 = some (f.fp.add 8) := if_pos hreturns.record_lt
  simp [caller?, hrecord, hslot, hreturns.fp, hreturns.pc, hreturns.fp_lt, hpc]

/-- Unless a frame is outermost its record tells a caller. -/
theorem exists_returnsTo_or_isOutermost (m : Image) (f : Frame) :
    (∃ pc fp, ReturnsTo m f (bare (f.index + 1) pc fp)) ∨ IsOutermost m f := by
  by_cases hnull : f.fp = .null
  · exact .inr (.nullRecord hnull)
  by_cases hlt : f.fp.word.toNat + 8 < UInt64.size
  case neg => exact .inr (.recordOverflows (Nat.not_lt.mp hlt))
  cases hfp : m.word? f.fp with
  | none => exact .inr (.unreadableFp hfp)
  | some fp =>
    cases hpc : m.word? (f.fp.add 8) with
    | none => exact .inr (.unreadablePc hpc)
    | some pc =>
      by_cases habove : f.fp.word < fp
      case neg => exact .inr (.notAbove hfp (UInt64.not_lt.mp habove))
      by_cases hzero : pc = 0
      case pos => exact .inr (.nullPc (hzero ▸ hpc))
      refine .inl ⟨⟨pc⟩, ⟨fp⟩, hnull, hlt, hfp, hpc, habove, ?_⟩
      intro heq
      exact hzero (congrArg Address.word heq)

/-- Whoever has a caller has one of whom the record tells. -/
theorem returnsTo_of_caller? {pc fp : Address} (hcaller : caller? m f.fp = some (pc, fp))
    (index : ℕ) : ReturnsTo m f (bare index pc fp) := by
  simp only [caller?, Option.bind_eq_bind, Option.bind_eq_some_iff, Option.guard_eq_some',
    Bool.and_eq_true, decide_eq_true_eq, Bool.not_eq_true'] at hcaller
  -- Each test that the search passed is one of the conditions on the record.
  obtain ⟨⟨⟩, hnull, slot, hslot, fp', hfp, pc', hpc, ⟨⟩, ⟨hlt, hpcnull⟩, heq⟩ := hcaller
  cases heq
  unfold Address.checkedAdd? at hslot
  split at hslot
  case isTrue hrecord =>
    cases hslot
    exact ⟨isNull_eq_false_iff.mp hnull, hrecord, hfp, hpc, hlt, isNull_eq_false_iff.mp hpcnull⟩
  case isFalse => cases hslot

/-! ### Stacks -/

/-- The frames from `first` up the stack, at most `limit` of them. -/
structure IsStack (m : Image) (limit : ℕ) (first : Frame) (frames : List Frame) : Prop where
  head : frames.head? = some first
  length_le : frames.length ≤ limit
  indices : frames.map index = List.range' first.index frames.length
  eq_bare : ∀ f ∈ frames, f = bare f.index f.pc f.fp
  chain : frames.IsChain (ReturnsTo m)
  outermost : frames.length < limit → ∀ f ∈ frames.getLast?, IsOutermost m f

theorem isStack_singleton (hf : f = bare f.index f.pc f.fp)
    (hends : limit ≠ 1 → IsOutermost m f) (hlimit : 1 ≤ limit) : IsStack m limit f [f] := by
  refine ⟨rfl, hlimit, rfl, ?_, List.isChain_singleton f, ?_⟩
  · intro g hg
    rwa [List.mem_singleton.mp hg]
  · intro hlt g hg
    rw [← Option.some.inj hg]
    exact hends (Nat.ne_of_gt hlt)

/-- A frame below a stack that it returns to. -/
theorem IsStack.cons (hf : f = bare f.index f.pc f.fp) (hreturns : ReturnsTo m f g)
    (hindex : g.index = f.index + 1) (hstack : IsStack m limit g frames) :
    IsStack m (limit + 1) f (f :: frames) := by
  refine ⟨rfl, Nat.succ_le_succ hstack.length_le, ?_, ?_, ?_, ?_⟩
  · rw [List.map_cons, hstack.indices, hindex]
    rfl
  · intro g' hg'
    rcases List.mem_cons.mp hg' with rfl | hg'
    · exact hf
    · exact hstack.eq_bare g' hg'
  · refine hstack.chain.cons fun g' hg' => ?_
    obtain rfl := Option.some.inj (hstack.head.symm.trans hg')
    exact hreturns
  · intro hlt g' hg'
    obtain ⟨rest, rfl⟩ := List.head?_eq_some_iff.mp hstack.head
    rw [List.getLast?_cons_cons] at hg'
    exact hstack.outermost (Nat.lt_of_succ_lt_succ hlt) g' hg'

/-- A stack is its first frame alone, or that frame and the stack that it returns to. -/
theorem IsStack.cases (hstack : IsStack m limit f frames) :
    frames = [f] ∧ (limit ≠ 1 → IsOutermost m f) ∨
      ∃ g rest, frames = f :: rest ∧ ReturnsTo m f g ∧ g = bare (f.index + 1) g.pc g.fp ∧
        IsStack m (limit - 1) g rest := by
  obtain ⟨rest, rfl⟩ := List.head?_eq_some_iff.mp hstack.head
  have hlength := hstack.length_le
  rw [List.length_cons] at hlength
  cases rest with
  | nil =>
    refine .inl ⟨rfl, fun hlimit => hstack.outermost ?_ f rfl⟩
    show 1 < limit
    have hle : 1 ≤ limit := hlength
    omega
  | cons g rest =>
    obtain ⟨hreturns, hchain⟩ := List.isChain_cons_cons.mp hstack.chain
    have hindices := hstack.indices
    simp only [List.map_cons, List.length_cons, List.range'_succ, List.cons.injEq] at hindices
    obtain ⟨-, hindex, hindices⟩ := hindices
    have hbare := hstack.eq_bare g (by simp)
    refine .inr ⟨g, g :: rest, rfl, hreturns, hindex ▸ hbare, rfl, by omega, ?_, ?_, hchain, ?_⟩
    · rw [List.map_cons, List.length_cons, List.range'_succ, hindices, hindex]
    · intro f' hf'
      exact hstack.eq_bare f' (List.mem_cons_of_mem f hf')
    · intro hlt f' hf'
      refine hstack.outermost ?_ f' (by rwa [List.getLast?_cons_cons])
      rw [List.length_cons]
      omega

/-- The words of a record leave no choice of the caller. -/
theorem ReturnsTo.unique {g' : Frame} {i : ℕ} (hreturns : ReturnsTo m f g)
    (hreturns' : ReturnsTo m f g') (hg : g = bare i g.pc g.fp) (hg' : g' = bare i g'.pc g'.fp) :
    g = g' := by
  have hfp : g.fp.word = g'.fp.word := Option.some.inj (hreturns.fp.symm.trans hreturns'.fp)
  have hpc : g.pc.word = g'.pc.word := Option.some.inj (hreturns.pc.symm.trans hreturns'.pc)
  rw [hg, hg', show g.fp = g'.fp from congrArg Address.mk hfp,
    show g.pc = g'.pc from congrArg Address.mk hpc]

theorem IsStack.unique {frames' : List Frame} (hstack : IsStack m limit f frames)
    (hstack' : IsStack m limit f frames') : frames = frames' := by
  induction limit generalizing f frames frames' with
  | zero =>
    obtain ⟨rest, rfl⟩ := List.head?_eq_some_iff.mp hstack.head
    exact absurd hstack.length_le (Nat.not_succ_le_zero _)
  | succ limit ih =>
    -- With a caller there is room for it, and a frame with a caller is not outermost.
    have hends {g : Frame} {rest : List Frame} (hreturns : ReturnsTo m f g)
        (hrest : IsStack m limit g rest) : ¬ (limit + 1 ≠ 1 → IsOutermost m f) := by
      intro houtermost
      obtain ⟨above, rfl⟩ := List.head?_eq_some_iff.mp hrest.head
      have hlength := hrest.length_le
      rw [List.length_cons] at hlength
      exact hreturns.not_isOutermost (houtermost (by omega))
    rcases hstack.cases with ⟨rfl, hend⟩ | ⟨g, rest, rfl, hreturns, hg, hrest⟩ <;>
      rcases hstack'.cases with ⟨rfl, hend'⟩ | ⟨g', rest', rfl, hreturns', hg', hrest'⟩
    · rfl
    · exact absurd hend (hends hreturns' hrest')
    · exact absurd hend' (hends hreturns hrest)
    · obtain rfl := hreturns.unique hreturns' hg hg'
      rw [ih hrest hrest']

/-! ### Walks -/

theorem caller?_of_isOutermost (houtermost : IsOutermost m f) : caller? m f.fp = none := by
  rw [Option.eq_none_iff_forall_ne_some]
  rintro ⟨pc, fp⟩ hcaller
  exact (returnsTo_of_caller? hcaller 0).not_isOutermost houtermost

/-- A frame and the callers that are found for it are a stack. -/
theorem isStack_callers (hf : f = bare f.index f.pc f.fp) (count : ℕ) :
    IsStack m (count + 1) f (f :: callers m count (f.index + 1) f.fp) := by
  induction count generalizing f with
  | zero => exact isStack_singleton hf (fun hne => absurd rfl hne) le_rfl
  | succ count ih =>
    rcases exists_returnsTo_or_isOutermost m f with ⟨pc, fp, hreturns⟩ | houtermost
    · have hstep : callers m (count + 1) (f.index + 1) f.fp =
          bare (f.index + 1) pc fp :: callers m count (f.index + 1 + 1) fp := by
        rw [callers, caller?_of_returnsTo hreturns]
        rfl
      rw [hstep]
      exact .cons hf hreturns rfl (ih rfl)
    · have hstop : callers m (count + 1) (f.index + 1) f.fp = [] := by
        rw [callers, caller?_of_isOutermost houtermost]
      rw [hstop]
      exact isStack_singleton hf (fun _ => houtermost) (Nat.succ_pos _)

/-- **The walk finds the stack**, and nothing else: from the registers up, as far as frame records
make sense, and at most `maxFrames` frames. -/
theorem walk_eq_iff (m : Image) (r : Registers) (frames : List Frame) :
    walk m r = frames ↔ IsStack m maxFrames (bare 0 r.pc r.fp) frames := by
  have hwalk : IsStack m maxFrames (bare 0 r.pc r.fp) (walk m r) :=
    isStack_callers rfl (maxFrames - 1)
  constructor
  · rintro rfl
    exact hwalk
  · intro hstack
    exact hwalk.unique hstack

end Postmortem.Frame
