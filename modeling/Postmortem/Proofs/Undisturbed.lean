/-
Postmortem/Proofs/Undisturbed.lean

Building never disturbs what was built.

Every construction is accounted for (`account`), so that its events in a run are known
(`trace`).  All blocks that a run reserves lie behind each other, each
construction writes inside the blocks that it reserves itself, and what could be read
before it can be read after it.

Maps and oddballs are remembered in one table, under numbers that are never the same
(`Shared.key`).  So one that is asked for again is the one that was returned before,
and no two of them are the same object.

Main result: `undisturbed_run`.
-/
import Postmortem.Proofs.Accounts
import Postmortem.Proofs.RoundTrip

namespace Postmortem.Synthetic.Builder

/-! ### Runs -/

/-- What a construction does to a heap, one thing after the other. -/
def trace (b : Builder) (step : Step) : List Event := (account step).events b

/-- What several constructions do. -/
def traceRun : Builder → List Step → List Event
  | _, [] => []
  | b, step :: steps => trace b step ++ traceRun (after (build step) b) steps

theorem laid_traceRun (b : Builder) (steps : List Step) :
    Laid b.next (blocks (traceRun b steps)) (b.run steps).next := by
  induction steps generalizing b with
  | nil => exact .nil _
  | cons step steps ih =>
    rw [traceRun, blocks_append]
    exact ((account step).laid b).append (ih _)

theorem keepsTable_run (b : Builder) (steps : List Step) : KeepsTable b (b.run steps) := by
  induction steps generalizing b with
  | nil => exact .refl
  | cons step steps ih => exact ((account step).keepsTable b).trans (ih _)

theorem run_append (b : Builder) (steps steps' : List Step) :
    b.run (steps ++ steps') = (b.run steps).run steps' :=
  List.foldl_append

theorem run_cons (b : Builder) (step : Step) (steps : List Step) :
    b.run (step :: steps) = (after (build step) b).run steps := rfl

/-! ### Readable bytes -/

/-- A byte of a heap is in its blocks. -/
theorem lt_next_of_byte? {steps : List Step} {k : ℕ} {x : UInt8}
    (hnext : (empty.run steps).next ≤ UInt64.size) (hk : k < UInt64.size)
    (hx : (empty.run steps).byte? k = some x) : k < (empty.run steps).next := by
  by_contra hge
  have hempty : (empty.run steps).byte? k = empty.byte? k :=
    (kept_run empty steps hnext).byte? k hk (Set.notMem_empty k) (.inr (not_lt.mp hge))
  rw [hempty, byte?_empty] at hx
  cases hx

/-- What can be collected is collected as well where all bytes are kept. -/
theorem collect_mono {bytes bytes' : Std.HashMap UInt64 UInt8}
    (hbytes : ∀ (w : UInt64) x, bytes[w]? = some x → bytes'[w]? = some x) (n : ℕ) (w : UInt64)
    (found : List UInt8) {all : List UInt8}
    (hall : SparseMemory.collect bytes n w found = some all) :
    SparseMemory.collect bytes' n w found = some all := by
  induction n generalizing w found with
  | zero => exact hall
  | succ n ih =>
    rw [SparseMemory.collect] at hall ⊢
    cases hx : bytes[w]? with
    | none => rw [hx] at hall; cases hall
    | some x =>
      rw [hx] at hall
      rw [hbytes w x hx]
      exact ih _ _ hall

/-- What could be read before a construction is read the same after it. -/
theorem fetch_build {steps : List Step} (step : Step) {a : Address} {n : ℕ} {data : List UInt8}
    (hnext : (after (build step) (empty.run steps)).next ≤ UInt64.size)
    (hdata : (empty.run steps).memory.fetch a n = some data) :
    (after (build step) (empty.run steps)).memory.fetch a n = some data := by
  have htidy := (account step).tidy
  have hkept := htidy.kept_empty _ hnext
  have hfits := (htidy.next_le (empty.run steps)).trans hnext
  have hbytes (w : UInt64) (x : UInt8) (hx : (empty.run steps).memory.bytes[w]? = some x) :
      (after (build step) (empty.run steps)).memory.bytes[w]? = some x := by
    rw [← UInt64.ofNat_toNat (x := w)] at hx ⊢
    have hlt := lt_next_of_byte? hfits w.toNat_lt hx
    exact (hkept.byte? _ w.toNat_lt (Set.notMem_empty _) (.inl hlt)).trans hx
  unfold SparseMemory.fetch SparseMemory.isPoisoned at hdata ⊢
  rw [hkept.poisoned]
  split at hdata
  case isTrue => cases hdata
  case isFalse hclear =>
    rw [if_neg hclear]
    exact collect_mono hbytes n _ [] hdata

/-! ### What is shared -/

/-- What constructions share: the map of a type, or the oddball of a kind. -/
inductive Shared where
  | map (type : ℕ)
  | oddball (kind : ℕ)
deriving DecidableEq

/-- The number under which it is remembered. -/
def Shared.key : Shared → ℤ
  | .map type => type
  | .oddball kind => -1 - kind

theorem Shared.key_inj {shared shared' : Shared} (hkey : shared.key = shared'.key) :
    shared = shared' := by
  rcases shared with type | kind <;> rcases shared' with type' | kind' <;> simp only [key] at hkey
  · exact congrArg map (by omega)
  · omega
  · omega
  · exact congrArg oddball (by omega)

/-- What a construction returns, if that is shared; types and kinds are not negative. -/
def Step.shared? : Step → Option Shared
  | .map (.ofNat type) => some (.map type)
  | .oddball (.ofNat kind) => some (.oddball kind)
  | .undefined => some (.oddball undefinedKind.toNat)
  | .theHole => some (.oddball theHoleKind.toNat)
  | _ => none

/-- What is shared is remembered. -/
theorem shared_build {step : Step} {shared : Shared} (hshared : step.shared? = some shared)
    (b : Builder) :
    (after (build step) b).shared[shared.key]? = some (value (build step) b) := by
  unfold Step.shared? at hshared
  split at hshared
  case h_1 type =>
    cases hshared
    exact shared_map type b
  case h_2 kind =>
    cases hshared
    exact shared_oddball kind b
  case h_3 =>
    cases hshared
    exact shared_oddball undefinedKind b
  case h_4 =>
    cases hshared
    exact shared_oddball theHoleKind b
  case h_5 => cases hshared

theorem soundTable_empty : SoundTable empty := by
  constructor <;> simp [empty]

/-- Two constructions that share what they return return the same if they share the same thing, and
only then. -/
theorem value_eq_iff_shared {before between : List Step} {step step' : Step}
    {shared shared' : Shared} (hshared : step.shared? = some shared)
    (hshared' : step'.shared? = some shared')
    (hnext : (empty.run (before ++ step :: (between ++ [step']))).next ≤ UInt64.size) :
    value (build step) (empty.run before) =
      value (build step') (empty.run (before ++ step :: between)) ↔ shared = shared' := by
  have hbetween := keepsTable_run (after (build step) (empty.run before)) between
  have hstep' := (account step').keepsTable (empty.run (before ++ step :: between))
  have hsound := (keepsTable_run empty _).sound hnext soundTable_empty
  rw [run_append, run_cons, run_append] at hsound
  rw [run_append, run_cons] at hstep' ⊢
  -- In the end both are remembered, each under its number.
  have hfirst := hstep'.kept _ _ (hbetween.kept _ _ (shared_build hshared (empty.run before)))
  have hsecond := shared_build hshared' ((after (build step) (empty.run before)).run between)
  constructor
  · intro hvalue
    rw [← hvalue] at hsecond
    exact Shared.key_inj (hsound.apart _ _ _ hfirst hsecond)
  · rintro rfl
    exact Option.some.inj (hfirst.symm.trans hsecond)

/-! ### Nothing is disturbed -/

/-- A construction disturbs nothing.  Its events are all that it does, its blocks start where the
heap ends, and it writes inside these alone.  What can be read and what is remembered stay, and what
it returns is remembered if it is shared. -/
structure LeavesAlone (b : Builder) (step : Step) : Prop where
  events : after (build step) b = (trace b step).foldl Event.apply b
  laid : Laid b.next (blocks (trace b step)) (after (build step) b).next
  inside : ∀ place data, .write place data ∈ trace b step →
    ∃ block ∈ blocks (trace b step), block.Holds place data.length
  fetch : ∀ a n data, b.memory.fetch a n = some data →
    (after (build step) b).memory.fetch a n = some data
  kept : ∀ (key : ℤ) object, b.shared[key]? = some object →
    (after (build step) b).shared[key]? = some object
  returned : ∀ shared, step.shared? = some shared →
    (after (build step) b).shared[shared.key]? = some (value (build step) b)

/-- **Building never disturbs what was built.**  All blocks that a run reserves are aligned, and
each ends before the next one starts.  Every construction on the way leaves alone what was there.
No object is remembered twice, and maps and oddballs that are asked for twice are the same if and
only if their types or kinds are. -/
theorem undisturbed_run (steps : List Step) (hnext : (empty.run steps).next ≤ UInt64.size) :
    ((blocks (traceRun empty steps)).Pairwise fun block block' =>
        block.start + block.size < block'.start) ∧
      (∀ block ∈ blocks (traceRun empty steps), 16 ∣ block.start) ∧
      (∀ before step later, steps = before ++ step :: later →
        LeavesAlone (empty.run before) step) ∧
      SoundTable (empty.run steps) ∧
      ∀ before step between step' later shared shared',
        steps = before ++ step :: (between ++ step' :: later) →
        step.shared? = some shared → step'.shared? = some shared' →
          (value (build step) (empty.run before) =
            value (build step') (empty.run (before ++ step :: between)) ↔ shared = shared') := by
  have hlaid := laid_traceRun empty steps
  have hsound := (keepsTable_run empty steps).sound hnext soundTable_empty
  refine ⟨hlaid.apart, hlaid.aligned (by decide), ?_, hsound, ?_⟩
  · rintro before step later rfl
    have hlater := next_le_run (after (build step) (empty.run before)) later
    rw [run_append, run_cons] at hnext
    exact ⟨(account step).after_eq _, (account step).laid _,
      fun place data => (account step).inside _,
      fun a n data => fetch_build step (hlater.trans hnext),
      ((account step).keepsTable _).kept, fun shared hshared => shared_build hshared _⟩
  · rintro before step between step' later shared shared' rfl hshared hshared'
    have hsplit : before ++ step :: (between ++ step' :: later) =
        before ++ step :: (between ++ [step']) ++ later := by simp
    rw [hsplit, run_append] at hnext
    exact value_eq_iff_shared hshared hshared' ((next_le_run _ later).trans hnext)

theorem next_oddball_le (kind : ℤ) (b : Builder) :
    (after (oddball kind) b).next ≤ b.next + 192 := by
  cases hoddball : b.shared[-1 - kind]? with
  | some oddball =>
    rw [(after_oddball_some hoddball).1]
    exact Nat.le_add_right ..
  | none =>
    have hmap := next_map_le InstanceType.oddball b
    have hblock : blockBytes 40 = 64 := rfl
    rw [after_oddball_none hoddball, next_remember, next_fill, next_reserve]
    omega

/-- The map of maps and the oddball of a kind, an object, and the map and another oddball again. -/
def sharingSteps : List Step :=
  [.map InstanceType.map, .oddball 3, .object [("a", 0)], .map InstanceType.map, .undefined]

theorem next_sharingSteps_le : (empty.run sharingSteps).next ≤ UInt64.size := by
  have hmap := next_map_le InstanceType.map empty
  have hoddball := next_oddball_le 3 (empty.run (sharingSteps.take 1))
  have hobject := next_object_le [("a", 0)] (empty.run (sharingSteps.take 2))
  have hmap' := next_map_le InstanceType.map (empty.run (sharingSteps.take 3))
  have hundefined := next_oddball_le undefinedKind (empty.run (sharingSteps.take 4))
  simp only [List.map_cons, List.map_nil, List.sum_cons, List.sum_nil, List.length_cons,
    List.length_nil, show "a".length = 1 from rfl] at hobject
  have hempty : empty.next = 0x100000 := rfl
  have hsize : UInt64.size = 2 ^ 64 := rfl
  simp only [sharingSteps, List.take, run, List.foldl, build, undefined] at *
  omega

/-- The object leaves the map alone, which is returned again; the oddballs are two. -/
theorem undisturbed_sharingSteps :
    LeavesAlone (empty.run [.map InstanceType.map, .oddball 3]) (.object [("a", 0)]) ∧
      value (map InstanceType.map) empty =
        value (map InstanceType.map) (empty.run (sharingSteps.take 3)) ∧
      value (oddball 3) (empty.run [.map InstanceType.map]) ≠
        value undefined (empty.run (sharingSteps.take 4)) := by
  obtain ⟨-, -, halone, -, hshared⟩ := undisturbed_run sharingSteps next_sharingSteps_le
  refine ⟨halone _ _ _ rfl, ?_, ?_⟩
  · exact (hshared [] _ [.oddball 3, .object [("a", 0)]] _ [.undefined] _ _ rfl rfl rfl).mpr rfl
  · refine mt (hshared [.map InstanceType.map] _ [.object [("a", 0)], .map InstanceType.map] _ []
      _ _ rfl rfl rfl).mp ?_
    decide

end Postmortem.Synthetic.Builder
