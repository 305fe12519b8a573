/-
Postmortem/Proofs/Constructors.lean

The search for a constructor.

The constructor slot of a map may point back to the map that it was derived from, whose
slot may point back again.  `LeadsTo` follows such pointers one by one, through maps
whose headers can be read, to what is no map.  A search that may follow as many
pointers finds what they lead to (`LeadsTo.yields`).

Which slots are read is seen by a search that notes each map before it reads its slot
(`constructorNoting`).  It finds what the search finds and fails where that fails, and
notes one map for each step at most (`notes_constructorFrom`): pointers that go round in
a circle are followed no further than others.

Main result: `constructor_search`.
-/
import Postmortem.Proofs.Listing
import Postmortem.Proofs.Readers

namespace Postmortem

open HeapM

/-! ### Types of values -/

section

variable {h : Heap} {v : Value} {type : Constant}

/-- The header of a value can be read, if it has one. -/
def HasHeader (h : Heap) (v : Value) : Prop :=
  ∀ object, v = .heap object → ∃ id, (typeId object).Yields h id

/-- A value is an object of the type that a constant names. -/
def HasType (h : Heap) (v : Value) (type : Constant) : Prop :=
  ∃ object id, v = .heap object ∧ (typeId object).Yields h id ∧ h.layout.value? type = some id

theorem HasType.hasHeader (hv : HasType h v type) : HasHeader h v := by
  obtain ⟨object, id, rfl, hid, -⟩ := hv
  intro object' heq
  cases heq
  exact ⟨id, hid⟩

theorem HasHeader.yields_isType (hv : HasHeader h v) :
    ∃ b, (isType v type).Yields h b ∧ (b = true ↔ HasType h v type) := by
  cases v with
  | smi => exact ⟨false, yields_pure.mpr rfl, nofun, fun ⟨_, _, heq, _⟩ => nomatch heq⟩
  | heap object =>
    obtain ⟨id, hid⟩ := hv object rfl
    have htype : HasType h (.heap object) type ↔ h.layout.value? type = some id := by
      constructor
      · rintro ⟨_, id', heq, hid', hvalue⟩
        cases heq
        rwa [hid.unique hid']
      · exact fun hvalue => ⟨object, id, rfl, hid, hvalue⟩
    unfold isType
    rw [htype]
    by_cases hhas : h.layout.has type = true
    · refine ⟨h.layout.agrees type id, ?_, beq_iff_eq⟩
      rw [Yields.bind_iff (yields_layout.mpr rfl), if_pos hhas]
      exact hid.bind ((yields_layout.mpr rfl).bind (yields_pure.mpr rfl))
    · refine ⟨false, ?_, nofun, fun hvalue => absurd (Option.isSome_of_mem hvalue) hhas⟩
      rw [Yields.bind_iff (yields_layout.mpr rfl), if_neg hhas]
      exact yields_pure.mpr rfl

theorem HasType.yields_isType (hv : HasType h v type) : (isType v type).Yields h true := by
  obtain ⟨b, hb, hiff⟩ := hv.hasHeader.yields_isType
  rwa [hiff.mpr hv] at hb

theorem HasHeader.yields_isType_false (hv : HasHeader h v) (hnot : ¬ HasType h v type) :
    (isType v type).Yields h false := by
  obtain ⟨b, hb, hiff⟩ := hv.yields_isType
  rwa [Bool.eq_false_iff.mpr (mt hiff.mp hnot)] at hb

end

namespace Map

variable {h : Heap} {map : Address} {maps : List Address} {found : Value} {steps : ℕ}

/-! ### Back pointers -/

/-- The constructor slot of a map leads through further maps to what is found, which is no map. -/
inductive LeadsTo (h : Heap) : Address → List Address → Value → Prop
  | here {map : Address} {found : Value} :
      (value map .mapConstructor).Yields h found → HasHeader h found →
      ¬ HasType h found .typeMap → LeadsTo h map [] found
  | back {map next : Address} {maps : List Address} {found : Value} :
      (value map .mapConstructor).Yields h (.heap next) → HasType h (.heap next) .typeMap →
      LeadsTo h next maps found → LeadsTo h map (next :: maps) found

/-- What is found has a header that can be read. -/
theorem LeadsTo.hasHeader (hleads : LeadsTo h map maps found) : HasHeader h found := by
  induction hleads with
  | here _ hheader => exact hheader
  | back _ _ _ ih => exact ih

/-- A search that goes as far as the pointers go finds what they lead to. -/
theorem LeadsTo.yields (hleads : LeadsTo h map maps found) (hsteps : maps.length ≤ steps) :
    (value map .mapConstructor >>= constructorFrom steps).Yields h found := by
  induction hleads generalizing steps with
  | here hslot hheader hnot =>
    refine hslot.bind ?_
    cases steps with
    | zero => exact yields_pure.mpr rfl
    | succ steps => exact (hheader.yields_isType_false hnot).bind (yields_pure.mpr rfl)
  | back hslot htype _ ih =>
    obtain ⟨steps, rfl⟩ := Nat.exists_eq_add_of_le' (Nat.one_le_of_lt hsteps)
    exact hslot.bind (htype.yields_isType.bind (ih (Nat.le_of_succ_le_succ hsteps)))

/-! ### Names -/

/-- A function that is found gives its name, or the fault in reading it. -/
theorem result_constructorName? {function : Address} (hfound : (constructor map).Yields h found)
    (heq : found = .heap function) (htype : HasType h found .typeJsFunction) :
    (constructorName? map h).result = (JsFunction.name function h).result.map some := by
  subst heq
  unfold constructorName?
  rw [hfound.result_bind, htype.yields_isType.result_bind]
  show ((JsFunction.name function >>= fun name => pure (some name)) h).result = _
  rcases hname : (JsFunction.name function h).result with e | name
  · rw [bind_error hname]
    rfl
  · have hyields : (JsFunction.name function).Yields h name := hname
    rw [hyields.result_bind]
    rfl

/-- What is no function gives no name. -/
theorem yields_constructorName?_none (hfound : (constructor map).Yields h found)
    (hheader : HasHeader h found) (hnot : ¬ HasType h found .typeJsFunction) :
    (constructorName? map).Yields h none :=
  hfound.bind ((hheader.yields_isType_false hnot).bind (yields_pure.mpr rfl))

end Map

/-! ### Notes -/

/-- Readings of a heap that note addresses on their way.  What is noted stays, also where a reading
fails. -/
abbrev Noting := ReaderT Heap (ExceptT Failure (StateM (List Address)))

namespace Noting

variable {α β : Type} {h : Heap} {x : Noting α} {y : HeapM α} {m n : ℕ}

/-- What a reading finds, and the notes that it leaves behind those that were there. -/
def runOn (x : Noting α) (h : Heap) (noted : List Address) : Except Failure α × List Address :=
  ((x.run h).run).run noted

instance : MonadLift HeapM Noting := ⟨fun x h => ExceptT.mk (pure (x h).result)⟩

/-- Notes an address. -/
def note (a : Address) : Noting Unit := modify (· ++ [a])

/-- `x` finds what `y` finds, and notes at most `n` addresses. -/
def Notes (h : Heap) (x : Noting α) (y : HeapM α) (n : ℕ) : Prop :=
  ∀ noted, ∃ more, x.runOn h noted = ((y h).result, noted ++ more) ∧ more.length ≤ n

theorem Notes.mono (hx : Notes h x y m) (hle : m ≤ n) : Notes h x y n := by
  intro noted
  obtain ⟨more, hrun, hlength⟩ := hx noted
  exact ⟨more, hrun, hlength.trans hle⟩

theorem Notes.pure (a : α) : Notes h (pure a) (pure a) n :=
  fun noted => ⟨[], by rw [List.append_nil]; rfl, Nat.zero_le n⟩

theorem Notes.lift (y : HeapM α) : Notes h (monadLift y) y 0 :=
  fun noted => ⟨[], by rw [List.append_nil]; rfl, le_rfl⟩

theorem runOn_bind (x : Noting α) (f : α → Noting β) (noted : List Address) :
    (x >>= f).runOn h noted =
      match x.runOn h noted with
      | (.ok a, noted) => (f a).runOn h noted
      | (.error e, noted) => (.error e, noted) := by
  unfold runOn
  simp only [ReaderT.run_bind, ExceptT.run_bind, StateT.run_bind]
  rcases (x.run h).run.run noted with ⟨_ | a, noted⟩ <;> rfl

theorem Notes.bind {f : α → Noting β} {g : α → HeapM β} (hx : Notes h x y m)
    (hf : ∀ a, Notes h (f a) (g a) n) : Notes h (x >>= f) (y >>= g) (m + n) := by
  intro noted
  obtain ⟨more, hrun, hle⟩ := hx noted
  rw [runOn_bind, hrun]
  rcases hy : (y h).result with e | a
  · refine ⟨more, ?_, Nat.le_add_right_of_le hle⟩
    rw [bind_error hy]
    rfl
  · obtain ⟨more', hrun', hle'⟩ := hf a (noted ++ more)
    have hyields : y.Yields h a := hy
    refine ⟨more ++ more', ?_, by rw [List.length_append]; omega⟩
    rw [hyields.result_bind, ← List.append_assoc]
    exact hrun'

/-- A note before a reading. -/
theorem Notes.note (a : Address) (hx : Notes h x y n) :
    Notes h (do Noting.note a; x) y (1 + n) := by
  intro noted
  obtain ⟨more, hrun, hle⟩ := hx (noted ++ [a])
  refine ⟨a :: more, ?_, by rw [List.length_cons]; omega⟩
  rw [runOn_bind]
  exact hrun.trans (by rw [List.append_assoc]; rfl)

end Noting

namespace Map

open Noting

variable {h : Heap} {map : Address}

/-- Reads the constructor slot of a map, and notes the map first. -/
def slotNoting (map : Address) : Noting Value := do
  note map
  monadLift (value map .mapConstructor)

/-- Follows maps as `constructorFrom` does, and notes them. -/
def constructorFromNoting : ℕ → Value → Noting Value
  | 0, found => pure found
  | steps + 1, found => do
    match ← monadLift (isType found .typeMap), found with
    | true, .heap map => do constructorFromNoting steps (← slotNoting map)
    | _, _ => pure found

/-- Finds the constructor of objects with this map, and notes the maps whose slots it reads. -/
def constructorNoting (map : Address) : Noting Value := do
  constructorFromNoting maxBackPointers (← slotNoting map)

theorem notes_slot (map : Address) :
    Notes h (slotNoting map) (value map .mapConstructor) 1 :=
  .note map (.lift _)

theorem notes_constructorFrom (steps : ℕ) (found : Value) :
    Notes h (constructorFromNoting steps found) (constructorFrom steps found) steps := by
  induction steps generalizing found with
  | zero => exact .pure found
  | succ steps ih =>
    refine (Notes.bind (.lift _) fun b => ?_).mono (Nat.zero_add _).le
    rcases b with - | -
    · exact .pure found
    · cases found with
      | smi => exact .pure _
      | heap map => exact ((notes_slot map).bind ih).mono (Nat.add_comm 1 steps).le

theorem notes_constructor (map : Address) :
    Notes h (constructorNoting map) (constructor map) (maxBackPointers + 1) :=
  ((notes_slot map).bind (notes_constructorFrom _)).mono (Nat.add_comm ..).le

/-! ### The search -/

theorem strict_constructorFrom {S : Address → Prop} (steps : ℕ) (found : Value) :
    Strict h S (constructorFrom steps found) := by
  induction steps generalizing found with
  | zero => exact .pure
  | succ steps ih =>
    refine .bind strict_isType fun _ => ?_
    split
    · exact .bind strict_value fun _ => ih _
    · exact .pure

/-- The search ends by itself. -/
theorem quiet_constructor (map : Address) : (constructor map h).gaveUp = false := by
  have hstrict : Strict h (fun _ => False) (constructor map) :=
    .bind strict_value fun found => strict_constructorFrom maxBackPointers found
  exact hstrict.quiet fun _ hnone => hnone.elim

/-- **Back pointers are followed to the constructor, and never in circles.**  Where the slot of a
map leads through at most 64 further maps to what is no map, that is the constructor; its name is
that of the function, or the fault in reading it, if it is one, and there is no name otherwise.
Whatever the memory holds, the search ends by itself, and reads the constructor slots of at most 65
maps. -/
theorem constructor_search (h : Heap) (map : Address) :
    (∀ maps found, maps.length ≤ 64 → LeadsTo h map maps found →
        (constructor map).Yields h found ∧
          (∀ function, found = .heap function → HasType h found .typeJsFunction →
            (constructorName? map h).result = (JsFunction.name function h).result.map some) ∧
          (¬ HasType h found .typeJsFunction → (constructorName? map).Yields h none)) ∧
      (constructor map h).gaveUp = false ∧
      ∃ noted, (constructorNoting map).runOn h [] = ((constructor map h).result, noted) ∧
        noted.length ≤ 65 := by
  refine ⟨fun maps found hlength hleads => ?_, quiet_constructor map, notes_constructor map []⟩
  have hfound : (constructor map).Yields h found := hleads.yields hlength
  refine ⟨hfound, fun function => result_constructorName? hfound, ?_⟩
  exact yields_constructorName?_none hfound hleads.hasHeader

open Synthetic

/-- A map that points back to another one, whose constructor is a function named `Point`; and a map
that points back to itself. -/
def derivedMaps : Heap where
  layout := listedLayout (flatConstants ++ [
    (.typeMap, 132), (.typeJsFunction, 170), (.mapConstructor, 24), (.functionShared, 8),
    (.sharedName, 8)])
  image := listedImage [
    (⟨0x100c⟩, Word.toBytes 2 132), (⟨0x110c⟩, Word.toBytes 2 8), (⟨0x130c⟩, Word.toBytes 2 170),
    (⟨0x1200⟩, wordsBytes [0x1001, 0, 0, 0x5001]), (⟨0x1400⟩, wordsBytes [0x1001, 0, 0, 0x1201]),
    (⟨0x1600⟩, wordsBytes [0x1001, 0, 0, 0x1601]),
    (⟨0x3000⟩, headerBytes 0x1101 5 ++ [0x50, 0x6f, 0x69, 0x6e, 0x74]),
    (⟨0x5000⟩, wordsBytes [0x1301, 0x6001]), (⟨0x6008⟩, wordsBytes [0x3001])]

theorem leadsTo_derivedMaps : LeadsTo derivedMaps ⟨0x1401⟩ [⟨0x1201⟩] (.heap ⟨0x5001⟩) := by
  have hmap : HasType derivedMaps (.heap ⟨0x1201⟩) .typeMap :=
    ⟨⟨0x1201⟩, 132, rfl, by decide +kernel, by decide +kernel⟩
  have hfunction : HasType derivedMaps (.heap ⟨0x5001⟩) .typeJsFunction :=
    ⟨⟨0x5001⟩, 170, rfl, by decide +kernel, by decide +kernel⟩
  refine .back (by decide +kernel) hmap (.here (by decide +kernel) hfunction.hasHeader ?_)
  rintro htype
  exact absurd htype.yields_isType (by decide +kernel)

/-- The name is found behind the back pointer, and the map that points to itself is read 65
times. -/
theorem constructor_search_derived :
    (constructor ⟨0x1401⟩).Yields derivedMaps (.heap ⟨0x5001⟩) ∧
      (constructorName? ⟨0x1401⟩).Yields derivedMaps (some "Point") ∧
      ((constructorNoting ⟨0x1601⟩).runOn derivedMaps []).2 = List.replicate 65 ⟨0x1601⟩ := by
  have hfunction : HasType derivedMaps (.heap ⟨0x5001⟩) .typeJsFunction :=
    ⟨⟨0x5001⟩, 170, rfl, by decide +kernel, by decide +kernel⟩
  obtain ⟨hfound, hname, -⟩ :=
    (constructor_search derivedMaps ⟨0x1401⟩).1 _ _ (by decide) leadsTo_derivedMaps
  have hpoint : (JsFunction.name ⟨0x5001⟩).Yields derivedMaps "Point" := by decide +kernel
  refine ⟨hfound, ?_, by decide +kernel⟩
  exact (hname _ rfl hfunction).trans (congrArg (Except.map some) hpoint)

end Map

end Postmortem
