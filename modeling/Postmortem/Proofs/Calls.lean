/-
Postmortem/Proofs/Calls.lean

Calls as they stand on the stack.

A caller pushes the receiver, then the arguments from first to last, and the stack
grows down.  So of the slots above a frame's pointer the lowest holds the last
argument, and the one behind all arguments holds the receiver (`pushed`).  How many
there are is not told by the stack but by the function that the frame runs.

For a frame that runs a function (`RunsFunction`) the call that is read has what each
of these slots shows, counted down from the receiver (`yields_ofFunction_iff`).  There
is no call with fewer: a slot that shows nothing fails the reading of the frame.

Main result: `yields_call_of_pushed`.
-/
import Mathlib.Data.Int.Notation
import Postmortem.Frame.Managed
import Postmortem.Proofs.Listing
import Postmortem.Proofs.Yield

namespace Postmortem

open HeapM

variable {h : Heap} {fp function shared slot : Address} {count : ℕ} {args : ℤ}

/-! ### Slots -/

/-- The word in a slot, and what is shown for it. -/
structure Shows (h : Heap) (slot : Address) (w : UInt64) (n : Node) : Prop where
  word : h.image.word? slot = some w
  node : (inspect (.classify h.layout w) .default).Yields h n

/-- Why a slot shows nothing. -/
inductive ShowsNothing (h : Heap) (slot : Address) : Prop
  | unreadable : h.image.word? slot = none → ShowsNothing h slot
  | undecodable {w : UInt64} : h.image.word? slot = some w →
      (∀ n, ¬ (inspect (.classify h.layout w) .default).Yields h n) → ShowsNothing h slot

theorem not_shows_of_showsNothing (hnothing : ShowsNothing h slot) {w : UInt64} {n : Node} :
    ¬ Shows h slot w n := by
  rintro ⟨hword, hnode⟩
  cases hnothing with
  | unreadable hnone => cases hword.symm.trans hnone
  | undecodable hword' hfails =>
    cases hword.symm.trans hword'
    exact hfails n hnode

/-- A value that is read from a slot and shown. -/
theorem yields_shown_iff {n : Node} :
    (valueAt slot >>= fun v => inspect v .default).Yields h n ↔ ∃ w, Shows h slot w n := by
  rw [yields_bind]
  constructor
  · rintro ⟨v, hv, hn⟩
    obtain ⟨w, hw, rfl⟩ := yields_valueAt.mp hv
    exact ⟨w, hw, hn⟩
  · rintro ⟨w, hw, hn⟩
    exact ⟨_, yields_valueAt.mpr ⟨w, hw, rfl⟩, hn⟩

theorem Inspection.below_smi (levels : ℕ) (ancestors : List Address) (raw : UInt64) (number : ℤ)
    (o : Options) :
    below levels ancestors (.smi raw number) o = pure (.mk ⟨raw⟩ none (.smallInt number)) := by
  cases levels <;> rfl

/-- A node is at the address that its word is. -/
theorem Inspection.address_of_below {levels : ℕ} {ancestors : List Address} {v : Value}
    {o : Options} {n : Node} (hn : (below levels ancestors v o).Yields h n) :
    n.address = ⟨v.raw⟩ := by
  cases v with
  | smi raw number =>
    rw [below_smi] at hn
    exact congrArg Node.address (yields_pure.mp hn).symm
  | heap object =>
    cases levels with
    | zero => exact absurd hn yields_giveUp
    | succ levels =>
      obtain ⟨kind, -, hn⟩ := yields_bind.mp hn
      obtain ⟨shape, -, hn⟩ := yields_bind.mp hn
      obtain ⟨map, -, hn⟩ := yields_bind.mp hn
      exact congrArg Node.address (yields_pure.mp hn).symm

theorem Shows.address {w : UInt64} {n : Node} (hshows : Shows h slot w n) : n.address = ⟨w⟩ := by
  have haddress := Inspection.address_of_below hshows.node
  rwa [Value.raw_classify] at haddress

namespace ManagedFrame

/-- Slot `k` of those that the caller pushed, counted from the last one up. -/
def pushed (l : Layout) (fp : Address) (args : ℤ) (k : ℕ) : Address :=
  fp.offset (args + k * l.pointerSize)

theorem pushed_eq (l : Layout) (fp : Address) (args : ℤ) (k : ℕ) :
    (fp.offset args).offset (k * l.pointerSize : ℕ) = pushed l fp args k := by
  rw [Address.offset_offset, Int.natCast_mul]
  rfl

/-- A frame that runs a function with a number of parameters. -/
structure RunsFunction (h : Heap) (fp function shared : Address) (count : ℕ) : Prop where
  unmarked : (ofMarkers fp).Yields h none
  slot : ∃ offset, h.layout.value? .frameFunction = some offset ∧
    (valueAt (fp.offset offset)).Yields h (.heap function)
  type : ∃ type, (typeId function).Yields h type ∧ h.layout.agrees .typeCode type = false ∧
    h.layout.agrees .typeJsFunction type = true
  parameters : (SharedInfo.parameterCount shared).Yields h count
  shared : (JsFunction.shared function).Yields h shared

theorem yields_slotAddress {c : Constant} {offset : ℤ} (hc : h.layout.value? c = some offset) :
    (slotAddress fp c).Yields h (fp.offset offset) :=
  (yields_constant.mpr hc).bind (yields_pure.mpr rfl)

theorem RunsFunction.yields_of_iff (hframe : RunsFunction h fp function shared count)
    {found : ManagedFrame} :
    (of fp).Yields h found ↔
      ∃ c, (ofFunction fp function).Yields h c ∧ ManagedFrame.call c = found := by
  obtain ⟨offset, hoffset, hfunction⟩ := hframe.slot
  obtain ⟨type, htype, hcode, hisFunction⟩ := hframe.type
  unfold of
  rw [hframe.unmarked.bind_iff, (yields_slotAddress hoffset).bind_iff, hfunction.bind_iff,
    htype.bind_iff, Yields.bind_iff (yields_layout.mpr rfl), hcode, hisFunction, if_neg nofun,
    if_pos rfl, yields_bind]
  simp only [yields_pure]

/-- The call that is read for a function: its receiver and its arguments are what the slots show
that its caller pushed. -/
theorem yields_ofFunction_iff (hframe : RunsFunction h fp function shared count)
    (hargs : h.layout.value? .frameArgs = some args) {c : Call} :
    (ofFunction fp function).Yields h c ↔
      c.function = function ∧ (SharedInfo.properName shared).Yields h c.name ∧
        (SharedInfo.location shared).Yields h c.location ∧
        (∃ w, Shows h (pushed h.layout fp args count) w c.receiver) ∧
        List.Forall₂ (fun i n => ∃ w, Shows h (pushed h.layout fp args (count - i - 1)) w n)
          (List.range count) c.arguments := by
  unfold ofFunction
  rw [hframe.shared.bind_iff, hframe.parameters.bind_iff, Int.toNat_natCast,
    (yields_slotAddress hargs).bind_iff, yields_pointerSize.bind_iff]
  simp only [pushed_eq]
  have hshown (as : List Node) :
      (forRange 0 (fun i => valueAt (pushed h.layout fp args (count - i - 1)) >>= fun v =>
          inspect v .default) count).Yields h as ↔
        List.Forall₂ (fun i n => ∃ w, Shows h (pushed h.layout fp args (count - i - 1)) w n)
          (List.range count) as := by
    rw [yields_forRange, List.range_eq_range']
    simp only [yields_shown_iff]
  constructor
  · intro hc
    obtain ⟨v, hv, hc⟩ := yields_bind.mp hc
    obtain ⟨receiver, hreceiver, hc⟩ := yields_bind.mp hc
    obtain ⟨shown, harguments, hc⟩ := yields_bind.mp hc
    obtain ⟨name, hname, hc⟩ := yields_bind.mp hc
    obtain ⟨location, hlocation, hc⟩ := yields_bind.mp hc
    cases yields_pure.mp hc
    exact ⟨rfl, hname, hlocation, yields_shown_iff.mp (hv.bind hreceiver),
      (hshown shown).mp harguments⟩
  · rintro ⟨rfl, hname, hlocation, hreceiver, harguments⟩
    obtain ⟨v, hv, hreceiver⟩ := yields_bind.mp (yields_shown_iff.mpr hreceiver)
    exact hv.bind (hreceiver.bind (((hshown c.arguments).mpr harguments).bind
      (hname.bind (hlocation.bind (yields_pure.mpr rfl)))))

/-- Each slot that a call is read from shows something. -/
theorem exists_shows_of_yields (hframe : RunsFunction h fp function shared count)
    (hargs : h.layout.value? .frameArgs = some args) {found : ManagedFrame}
    (hfound : (of fp).Yields h found) {k : ℕ} (hk : k ≤ count) :
    ∃ w n, Shows h (pushed h.layout fp args k) w n := by
  obtain ⟨c, hc, -⟩ := hframe.yields_of_iff.mp hfound
  obtain ⟨-, -, -, ⟨w, hreceiver⟩, harguments⟩ := (yields_ofFunction_iff hframe hargs).mp hc
  rcases Nat.lt_or_eq_of_le hk with hlt | rfl
  · have hi : count - k - 1 < (List.range count).length := by
      rw [List.length_range]
      omega
    have hshows := harguments.get hi (harguments.length_eq ▸ hi)
    rw [List.get_eq_getElem, List.getElem_range, show count - (count - k - 1) - 1 = k by omega]
      at hshows
    obtain ⟨w, hshows⟩ := hshows
    exact ⟨w, _, hshows⟩
  · exact ⟨w, c.receiver, hreceiver⟩

/-- **Receiver and arguments are read in the order of the call.**  Where the caller pushed a
receiver and as many arguments as the function has parameters, and each of them can be shown, the
call that is read has the receiver and these arguments, first to last.  Where one of their slots
shows nothing there is no call at all. -/
theorem yields_call_of_pushed (hframe : RunsFunction h fp function shared count)
    (hargs : h.layout.value? .frameArgs = some args) {name location : String}
    (hname : (SharedInfo.properName shared).Yields h name)
    (hlocation : (SharedInfo.location shared).Yields h location) :
    (∀ (receiver : UInt64) (arguments : List UInt64), arguments.length = count →
      (∃ n, Shows h (pushed h.layout fp args count) receiver n) →
      (∀ i (hi : i < arguments.length),
        ∃ n, Shows h (pushed h.layout fp args (count - i - 1)) arguments[i] n) →
      ∃ c, (of fp).Yields h (.call c) ∧ c.function = function ∧ c.name = name ∧
        c.location = location ∧ c.receiver.address = ⟨receiver⟩ ∧
        c.arguments.map Node.address = arguments.map Address.mk) ∧
      ((∃ k ≤ count, ShowsNothing h (pushed h.layout fp args k)) →
        ∃ e, (of fp h).result = .error e) := by
  constructor
  · rintro receiver arguments rfl ⟨n, hreceiver⟩ harguments
    choose node hnode using harguments
    let nodes : List Node := List.ofFn fun i : Fin arguments.length => node i i.isLt
    have hshows : List.Forall₂ (fun i n => ∃ w,
        Shows h (pushed h.layout fp args (arguments.length - i - 1)) w n)
        (List.range arguments.length) nodes := by
      refine List.forall₂_iff_get.mpr ⟨by simp [nodes], fun i hi hi' => ?_⟩
      have hlt : i < arguments.length := by rwa [List.length_range] at hi
      simp only [nodes, List.get_eq_getElem, List.getElem_range, List.getElem_ofFn]
      exact ⟨_, hnode i hlt⟩
    refine ⟨⟨function, name, location, n, nodes⟩, ?_, rfl, rfl, rfl, hreceiver.address, ?_⟩
    · refine hframe.yields_of_iff.mpr ⟨_, (yields_ofFunction_iff hframe hargs).mpr ?_, rfl⟩
      exact ⟨rfl, hname, hlocation, ⟨receiver, hreceiver⟩, hshows⟩
    · refine List.ext_getElem (by simp [nodes]) fun i hi hi' => ?_
      have hlt : i < arguments.length := by rwa [List.length_map] at hi'
      simp only [nodes, List.getElem_map, List.getElem_ofFn]
      exact (hnode i hlt).address
  · rintro ⟨k, hk, hnothing⟩
    cases hresult : (of fp h).result with
    | error e => exact ⟨e, rfl⟩
    | ok found =>
      obtain ⟨w, n, hshows⟩ := exists_shows_of_yields hframe hargs hresult hk
      exact absurd hshows (not_shows_of_showsNothing hnothing)

/-! ### A call with two arguments -/

open Synthetic

/-- A frame at `0x7000` that runs the function `f` of two parameters: its marker, and above it what
the caller pushed. -/
def callHeap (marker : ℕ) (caller : List ℕ) : Heap where
  layout := listedLayout (flatConstants ++ [
    (.frameContext, -8), (.frameMarker, -8), (.frameFunction, -16), (.frameArgs, 16),
    (.frameAdaptor, 10), (.frameJavascript, 5), (.typeJsFunction, 140), (.functionShared, 8),
    (.sharedName, 8), (.sharedScript, 16), (.sharedParameterCount, 24)])
  image := listedImage [
    (⟨0x6ff0⟩, wordsBytes ([0x2001, marker, 0, 0] ++ caller)),
    (⟨0x100c⟩, Word.toBytes 2 140), (⟨0x110c⟩, Word.toBytes 2 8),
    (⟨0x1800⟩, wordsBytes [0, 0x3001, 0, 2]), (⟨0x2000⟩, wordsBytes [0x1001, 0x1801]),
    (⟨0x3000⟩, headerBytes 0x1101 1 ++ [0x66]), (⟨0x3100⟩, headerBytes 0x1101 2 ++ [0x68, 0x69])]

/-- What the caller of `f(\"hi\", 3)` pushed, with the receiver 7, from the last slot up. -/
def pushedWords : List ℕ := [smiWord 3, 0x3101, smiWord 7]

theorem args_callHeap (marker : ℕ) (caller : List ℕ) :
    (callHeap marker caller).layout.value? .frameArgs = some 16 :=
  (value?_listedLayout _ _).trans rfl

/-- The frame runs the function, whether or not the receiver was captured. -/
theorem runsFunction_callHeap {caller : List ℕ}
    (hcaller : caller = pushedWords ∨ caller = pushedWords.take 2) :
    RunsFunction (callHeap (smiWord 5) caller) ⟨0x7000⟩ ⟨0x2001⟩ ⟨0x1801⟩ 2 ∧
      (SharedInfo.properName ⟨0x1801⟩).Yields (callHeap (smiWord 5) caller) "f" ∧
      (SharedInfo.location ⟨0x1801⟩).Yields (callHeap (smiWord 5) caller) nativeCode := by
  rcases hcaller with rfl | rfl
  all_goals
    refine ⟨⟨?_, ⟨-16, ?_, ?_⟩, ⟨140, ?_⟩, ?_, ?_⟩, ?_, ?_⟩ <;> decide +kernel

theorem exists_shows {w : UInt64} (hword : h.image.word? slot = some w)
    (hnode : (inspect (.classify h.layout w) .default h).result.toOption.isSome) :
    ∃ n, Shows h slot w n := by
  obtain ⟨n, hn⟩ := Option.isSome_iff_exists.mp hnode
  exact ⟨n, hword, yields_iff_toOption.mpr hn⟩

/-- The call is read as it was made, and not at all if its receiver is lost. -/
theorem yields_call_of_pushed_two :
    (∃ c, (of ⟨0x7000⟩).Yields (callHeap (smiWord 5) pushedWords) (.call c) ∧ c.name = "f" ∧
        c.receiver.address = ⟨0x700000000⟩ ∧
        c.arguments.map Node.address = [⟨0x3101⟩, ⟨0x300000000⟩]) ∧
      ∃ e, (of ⟨0x7000⟩ (callHeap (smiWord 5) (pushedWords.take 2))).result = .error e := by
  constructor
  · obtain ⟨hframe, hname, hlocation⟩ := runsFunction_callHeap (.inl rfl)
    have hcall := (yields_call_of_pushed hframe (args_callHeap _ _) hname hlocation).1
    let slotOf := pushed (callHeap (smiWord 5) pushedWords).layout ⟨0x7000⟩ 16
    have hreceiver : ∃ n, Shows (callHeap (smiWord 5) pushedWords) (slotOf 2) 0x700000000 n :=
      exists_shows (by decide +kernel) (by decide +kernel)
    have hfirst : ∃ n, Shows (callHeap (smiWord 5) pushedWords) (slotOf 1) 0x3101 n :=
      exists_shows (by decide +kernel) (by decide +kernel)
    have hsecond : ∃ n, Shows (callHeap (smiWord 5) pushedWords) (slotOf 0) 0x300000000 n :=
      exists_shows (by decide +kernel) (by decide +kernel)
    obtain ⟨c, hc, -, hname, -, hreceiver, harguments⟩ :=
      hcall 0x700000000 [0x3101, 0x300000000] rfl hreceiver fun
        | 0, _ => hfirst
        | 1, _ => hsecond
    exact ⟨c, hc, hname, hreceiver, harguments⟩
  · obtain ⟨hframe, hname, hlocation⟩ := runsFunction_callHeap (.inr rfl)
    exact (yields_call_of_pushed hframe (args_callHeap _ _) hname hlocation).2
      ⟨2, Nat.le_refl 2, .unreadable (by decide +kernel)⟩

end ManagedFrame

end Postmortem
