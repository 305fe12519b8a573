/-
Postmortem/Proofs/Rope.lean

What a string means, and that resolving it finds just that.

A rope is a string with everything that it is made of: units in a row, two
ropes behind each other, a part of a rope, another name for one.  Its units are
defined by recursion on it.  A heap stores a rope if the headers of all its
strings can be read and say so; a string that occurs twice in a rope is stored
once.  Payloads are a matter of their own: of the rows of units only the ranges
are wanted that the slices around them leave over (`Rope.Readable`).

`codeUnits` works on a stack of segments.  Each stands for a range of the units
of some rope, and resolving one replaces it by segments that stand for the same
units, behind the ones that it found (`Segment.resolve_standsFor`).  So the units
found and the units that the stack stands for are together the units of the rope
at all times.

Main result: `codeUnits_yields_units`.
-/
import Postmortem.Proofs.Listing
import Postmortem.Proofs.Resolution

namespace Postmortem

open HeapM Relation

/-- The image captured `bytes` from an address on: any part of them can be fetched. -/
def Image.Holds (m : Image) (a : Address) (bytes : List UInt8) : Prop :=
  ∀ skipped n, 0 < n → skipped + n ≤ bytes.length →
    m.fetch (a.offset skipped) n = some ((bytes.drop skipped).take n)

namespace JsString

variable {h : Heap}

/-! ### Ropes -/

/-- A string and what it is made of. -/
inductive Rope where
  /-- Units in a row, from an address on. -/
  | flat (string payload : Address) (isNarrow : Bool) (units : List UInt16)
  | cons (string : Address) (first second : Rope)
  | slice (string : Address) (parent : Rope) (offset length : ℕ)
  | thin (string : Address) (actual : Rope)

/-- How many bytes a unit takes in a row. -/
def unitBytes (isNarrow : Bool) : ℕ := if isNarrow then 1 else 2

/-- The bytes of units in a row. -/
def rowBytes (isNarrow : Bool) (units : List UInt16) : List UInt8 :=
  if isNarrow then units.map fun u => UInt8.ofNat u.toNat
  else units.flatMap fun u => Word.toBytes 2 u.toNat

/-- The constant that says where the units of a row start. -/
def rowStart (isNarrow : Bool) : Constant :=
  if isNarrow then .stringOneByteChars else .stringTwoByteChars

namespace Rope

def address : Rope → Address
  | flat string _ _ _ => string
  | cons string _ _ => string
  | slice string _ _ _ => string
  | thin string _ => string

/-- The units that a rope stands for. -/
def units : Rope → List UInt16
  | flat _ _ _ units => units
  | cons _ first second => first.units ++ second.units
  | slice _ parent offset length => (parent.units.drop offset).take length
  | thin _ actual => actual.units

theorem units_cons (string : Address) (first second : Rope) :
    (cons string first second).units = first.units ++ second.units := rfl

theorem units_slice (string : Address) (parent : Rope) (offset length : ℕ) :
    (slice string parent offset length).units = (parent.units.drop offset).take length := rfl

theorem length_slice {string : Address} {parent : Rope} {offset length : ℕ}
    (hfits : offset + length ≤ parent.units.length) :
    (slice string parent offset length).units.length = length := by
  rw [units_slice, List.length_take, List.length_drop, Nat.min_eq_left (by omega)]

/-- The units of a rope from `start` to `stop`. -/
def part (r : Rope) (start stop : ℕ) : List UInt16 := (r.units.drop start).take (stop - start)

/-- A header that tells the representation of a string and how many units it has. -/
structure Header (h : Heap) (string : Address) (type : ℤ) (r : Representation) (length : ℕ) :
    Prop where
  typeId : (typeId string).Yields h type
  tag : ∃ mask, h.layout.value? .stringRepresentationMask = some mask ∧
    h.layout.value? r.tag = some (Word.maskBits type mask)
  length : (int string .stringLength).Yields h length

/-- The headers of all strings of a rope are there. -/
inductive Stored (h : Heap) : Rope → Prop
  | flat {string payload : Address} {isNarrow : Bool} {units : List UInt16} {type : ℤ} :
      Header h string type .sequential units.length → (isOneByte type).Yields h isNarrow →
      (isNarrow = true → ∀ u ∈ units, u.toNat < 256) →
      (fieldAt string (rowStart isNarrow)).Yields h payload →
      Stored h (.flat string payload isNarrow units)
  | cons {string : Address} {first second : Rope} {type : ℤ} :
      Header h string type .cons (first.units.length + second.units.length) →
      (pointer string .stringConsFirst).Yields h first.address →
      (pointer string .stringConsSecond).Yields h second.address →
      Stored h first → Stored h second → Stored h (.cons string first second)
  | slice {string : Address} {parent : Rope} {offset length : ℕ} {type : ℤ} :
      Header h string type .sliced length →
      (pointer string .stringSlicedParent).Yields h parent.address →
      (int string .stringSlicedOffset).Yields h offset →
      offset + length ≤ parent.units.length →
      Stored h parent → Stored h (.slice string parent offset length)
  | thin {string : Address} {actual : Rope} {type : ℤ} :
      Header h string type .thin actual.units.length →
      (pointer string .stringThinActual).Yields h actual.address →
      Stored h actual → Stored h (.thin string actual)

/-- The payloads of a rope are there where units from `start` to `stop` of it come from. -/
def Readable (h : Heap) : Rope → ℕ → ℕ → Prop
  | flat _ payload isNarrow units, start, stop =>
    start < stop →
      h.image.fetch (payload.offset (unitBytes isNarrow * start : ℕ))
          (unitBytes isNarrow * (stop - start)) =
        some (rowBytes isNarrow ((units.drop start).take (stop - start)))
  | cons _ first second, start, stop =>
    Readable h first start (min stop first.units.length) ∧
      Readable h second (start - first.units.length) (stop - first.units.length)
  | slice _ parent offset _, start, stop => Readable h parent (offset + start) (offset + stop)
  | thin _ actual, start, stop => Readable h actual start stop

/-- The payloads of a rope are all there. -/
def Intact (h : Heap) : Rope → Prop
  | flat _ payload isNarrow units => h.image.Holds payload (rowBytes isNarrow units)
  | cons _ first second => Intact h first ∧ Intact h second
  | slice _ parent _ _ => Intact h parent
  | thin _ actual => Intact h actual

end Rope

/-- The representations have different tags. -/
def TagsDistinct (l : Layout) : Prop :=
  ∀ (r s : Representation) (tag : ℤ), l.value? r.tag = some tag → l.value? s.tag = some tag → r = s

/-! ### Headers -/

namespace Rope

variable {r : Rope} {string : Address} {type : ℤ} {rep : Representation} {n start stop : ℕ}

theorem Header.yields_representation (hheader : Header h string type rep n)
    (htags : TagsDistinct h.layout) : (Representation.ofTypeId type).Yields h rep := by
  obtain ⟨mask, hmask, htag⟩ := hheader.tag
  -- The tags are different, so the first representation that agrees is the only one.
  have hagrees : (fun s : Representation => h.layout.agrees s.tag (Word.maskBits type mask)) =
      fun s => decide (s = rep) := by
    funext s
    rw [Bool.eq_iff_iff, decide_eq_true_iff, Layout.agrees, beq_iff_eq]
    exact ⟨fun hs => htags s rep _ hs htag, fun hs => hs ▸ htag⟩
  refine (yields_constant.mpr hmask).bind ((yields_layout.mpr rfl).bind ?_)
  rw [hagrees]
  cases rep <;> exact yields_pure.mpr rfl

theorem Header.yields_length (hheader : Header h string type rep n) :
    (JsString.length string).Yields h n :=
  yields_length_iff.mpr hheader.length

/-- Every string of a stored rope has its header. -/
theorem Stored.header (hr : r.Stored h) :
    ∃ type rep, Header h r.address type rep r.units.length := by
  cases hr with
  | flat hheader => exact ⟨_, _, hheader⟩
  | cons hheader => exact ⟨_, _, by rwa [units_cons, List.length_append]⟩
  | slice hheader _ _ hfits => exact ⟨_, _, (length_slice hfits).symm ▸ hheader⟩
  | thin hheader => exact ⟨_, _, hheader⟩

theorem Stored.yields_length (hr : r.Stored h) :
    (JsString.length r.address).Yields h r.units.length := by
  obtain ⟨type, rep, hheader⟩ := hr.header
  exact hheader.yields_length

/-! ### Parts of ropes -/

theorem Header.representation (hheader : Header h string type rep n)
    (htags : TagsDistinct h.layout) : (representation string).Yields h rep :=
  hheader.typeId.bind (hheader.yields_representation htags)

/-- A string that a stored rope's string is made of is the string of a smaller stored rope. -/
theorem Stored.exists_part (htags : TagsDistinct h.layout) (hr : r.Stored h) {b : Address}
    (hb : Part h r.address b) :
    ∃ r' : Rope, r'.Stored h ∧ r'.address = b ∧ sizeOf r' < sizeOf r := by
  cases hr with
  | flat hheader => exact absurd ((part_iff (hheader.representation htags)).mp hb) id
  | @cons _ first second _ hheader hfirst hsecond hsfirst hssecond =>
    rcases (part_iff (hheader.representation htags)).mp hb with hb | hb
    · exact ⟨first, hsfirst, hfirst.unique hb, by simp only [cons.sizeOf_spec]; omega⟩
    · exact ⟨second, hssecond, hsecond.unique hb, by simp only [cons.sizeOf_spec]; omega⟩
  | @slice _ parent _ _ _ hheader hparent _ _ hsparent =>
    have hb := (part_iff (hheader.representation htags)).mp hb
    exact ⟨parent, hsparent, hparent.unique hb, by simp only [slice.sizeOf_spec]; omega⟩
  | @thin _ actual _ hheader hactual hsactual =>
    have hb := (part_iff (hheader.representation htags)).mp hb
    exact ⟨actual, hsactual, hactual.unique hb, by simp only [thin.sizeOf_spec]; omega⟩

/-- No string of a stored rope is made of itself: it would be the string of ever smaller ropes. -/
theorem Stored.acyclic (htags : TagsDistinct h.layout) (hr : r.Stored h) :
    Acyclic h r.address := by
  refine acyclic_of_smaller (fun r : {r : Rope // r.Stored h} => r.1.address)
    (fun r => sizeOf r.1) (fun r b hb => ?_) ⟨r, hr⟩
  obtain ⟨r', hr', hb, hlt⟩ := r.2.exists_part htags hb
  exact ⟨⟨r', hr'⟩, hb, hlt⟩

end Rope

/-! ### Rows -/

theorem yields_bytes {a : Address} {n : ℕ} {found : List UInt8} (hlength : found.length = n)
    (hmax : n ≤ maxReadBytes) (hfetch : 0 < n → h.image.fetch a n = some found) :
    (bytes a n).Yields h found := by
  rcases Nat.eq_zero_or_pos n with rfl | hpos
  · rw [List.eq_nil_of_length_eq_zero hlength]
    exact yields_pure.mpr rfl
  · rw [bytes_eq_fetch hpos hmax]
    exact yields_fetch.mpr (hfetch hpos)

theorem pairUp_row (units : List UInt16) :
    pairUp (units.flatMap fun u => Word.toBytes 2 u.toNat) = units := by
  induction units with
  | nil => rfl
  | cons u units ih =>
    have hlt := u.toNat_lt
    have hword : UInt16.ofNat ((UInt8.ofNat u.toNat).toNat +
        256 * (UInt8.ofNat (u.toNat / 256)).toNat) = u := by
      rw [← UInt16.toNat_inj]
      simp only [UInt16.toNat_ofNat', UInt8.toNat_ofNat']
      omega
    show UInt16.ofNat _ :: pairUp (units.flatMap _) = u :: units
    rw [hword, ih]

theorem widen_row {units : List UInt16} (hunits : ∀ u ∈ units, u.toNat < 256) :
    (units.map fun u => UInt8.ofNat u.toNat).map (fun b => UInt16.ofNat b.toNat) = units := by
  rw [List.map_map]
  refine (List.map_congr_left fun u hu => ?_).trans (List.map_id units)
  have hlt := hunits u hu
  show UInt16.ofNat (UInt8.ofNat u.toNat).toNat = u
  rw [UInt8.toNat_ofNat_of_lt' hlt, UInt16.ofNat_toNat]

theorem length_rowBytes (isNarrow : Bool) (units : List UInt16) :
    (rowBytes isNarrow units).length = unitBytes isNarrow * units.length := by
  cases isNarrow with
  | false =>
    show (units.flatMap fun u => Word.toBytes 2 u.toNat).length = 2 * units.length
    simp [List.length_flatMap, Word.length_toBytes, Nat.mul_comm]
  | true => simp [rowBytes, unitBytes]

theorem rowBytes_append (isNarrow : Bool) (units units' : List UInt16) :
    rowBytes isNarrow (units ++ units') = rowBytes isNarrow units ++ rowBytes isNarrow units' := by
  cases isNarrow <;> simp [rowBytes]

theorem drop_rowBytes {isNarrow : Bool} {units : List UInt16} {start : ℕ}
    (hstart : start ≤ units.length) :
    (rowBytes isNarrow units).drop (unitBytes isNarrow * start) =
      rowBytes isNarrow (units.drop start) := by
  conv_lhs => rw [← List.take_append_drop start units, rowBytes_append]
  rw [List.drop_left']
  rw [length_rowBytes, List.length_take, Nat.min_eq_left hstart]

theorem take_rowBytes {isNarrow : Bool} {units : List UInt16} {n : ℕ} (hn : n ≤ units.length) :
    (rowBytes isNarrow units).take (unitBytes isNarrow * n) = rowBytes isNarrow (units.take n) := by
  conv_lhs => rw [← List.take_append_drop n units, rowBytes_append]
  rw [List.take_left']
  rw [length_rowBytes, List.length_take, Nat.min_eq_left hn]

/-- A range of a row whose payload is there is read as its units. -/
theorem yields_flatUnits {string payload : Address} {type : ℤ} {isNarrow : Bool}
    {units : List UInt16} {start stop : ℕ} (hwidth : (isOneByte type).Yields h isNarrow)
    (hunits : isNarrow = true → ∀ u ∈ units, u.toNat < 256)
    (hpayload : (fieldAt string (rowStart isNarrow)).Yields h payload)
    (hstop : stop ≤ units.length) (hmax : stop - start ≤ maxStringUnits)
    (hread : (Rope.flat string payload isNarrow units).Readable h start stop) :
    (flatUnits string type start stop).Yields h ((units.drop start).take (stop - start)) := by
  have hlength := length_rowBytes isNarrow ((units.drop start).take (stop - start))
  rw [List.length_take, List.length_drop, Nat.min_eq_left (by omega)] at hlength
  refine hwidth.bind ?_
  cases isNarrow with
  | true =>
    rw [unitBytes, if_pos rfl, Nat.one_mul] at hlength
    have hfetch : 0 < stop - start → h.image.fetch (payload.offset start) (stop - start) =
        some (rowBytes true ((units.drop start).take (stop - start))) := by
      intro hlt
      have := hread (by omega)
      rwa [unitBytes, if_pos rfl, Nat.one_mul, Nat.one_mul] at this
    refine hpayload.bind ((yields_bytes hlength (by unfold maxStringUnits at hmax; omega)
      hfetch).bind (yields_pure.mpr ?_))
    exact widen_row fun u hu => hunits rfl u (List.mem_of_mem_drop (List.mem_of_mem_take hu))
  | false =>
    rw [unitBytes, if_neg (by decide)] at hlength
    have hmax' : 2 * (stop - start) ≤ maxReadBytes := by
      unfold maxStringUnits at hmax
      omega
    refine hpayload.bind ?_
    unfold twoByteUnits
    rw [if_neg (by unfold maxReadBytes at hmax'; simp only [UInt64.size]; omega)]
    refine (yields_bytes hlength hmax' fun hlt => hread (by omega)).bind (yields_pure.mpr ?_)
    exact pairUp_row _

/-! ### Ranges -/

namespace Rope

variable {r first second parent actual : Rope} {string : Address} {start stop offset n : ℕ}

theorem part_all : r.part 0 r.units.length = r.units := by
  unfold part
  rw [List.drop_zero, Nat.sub_zero, List.take_length]

theorem part_of_le (hle : stop ≤ start) : r.part start stop = [] := by
  rw [part, Nat.sub_eq_zero_of_le hle, List.take_zero]

theorem length_part (hstop : stop ≤ r.units.length) :
    (r.part start stop).length = stop - start := by
  rw [part, List.length_take, List.length_drop]
  omega

theorem part_cons (hle : start ≤ stop) :
    (cons string first second).part start stop =
      first.part start (min stop first.units.length) ++
        second.part (start - first.units.length) (stop - first.units.length) := by
  have hsecond : stop - start - (first.units.length - start) =
      stop - first.units.length - (start - first.units.length) := by omega
  rw [part, part, part, units_cons, List.drop_append, List.take_append, List.length_drop, hsecond]
  congr 1
  rcases Nat.le_total stop first.units.length with hstop | hstop
  · rw [Nat.min_eq_left hstop]
  · rw [Nat.min_eq_right hstop, List.take_of_length_le (by rw [List.length_drop]; omega),
      List.take_of_length_le (by rw [List.length_drop])]

theorem part_slice (hstop : stop ≤ n) :
    (slice string parent offset n).part start stop =
      parent.part (offset + start) (offset + stop) := by
  rw [part, part, units_slice, List.drop_take, List.drop_drop, List.take_take]
  congr 1
  omega

end Rope

/-- Where the payloads are all there, every range can be read. -/
theorem Rope.Stored.readable {r : Rope} (hr : r.Stored h) (hintact : r.Intact h) {start stop : ℕ}
    (hstop : stop ≤ r.units.length) : r.Readable h start stop := by
  induction hr generalizing start stop with
  | @flat _ _ isNarrow units =>
    intro hlt
    replace hstop : stop ≤ units.length := hstop
    have hwidth : 0 < unitBytes isNarrow := by cases isNarrow <;> decide
    have hle : start ≤ units.length := (Nat.le_of_lt hlt).trans hstop
    have hn : stop - start ≤ (units.drop start).length := by
      rw [List.length_drop]
      exact Nat.sub_le_sub_right hstop start
    rw [hintact _ _ (Nat.mul_pos hwidth (by omega)), drop_rowBytes hle, take_rowBytes hn]
    rw [length_rowBytes, ← Nat.mul_add]
    exact Nat.mul_le_mul_left _ (by omega)
  | cons _ _ _ _ _ ih₁ ih₂ =>
    rw [units_cons, List.length_append] at hstop
    exact ⟨ih₁ hintact.1 (by omega), ih₂ hintact.2 (by omega)⟩
  | slice _ _ _ hfits _ ih =>
    have hstop' := hstop.trans_eq (length_slice hfits)
    exact ih hintact (by omega)
  | thin _ _ _ ih => exact ih hintact hstop

/-! ### Segments -/

namespace Segment

variable {s : Segment} {units : List UInt16} {r first second : Rope} {start stop : ℕ}

/-- A segment stands for a range of the units of a rope, of which it asks for nothing that cannot
be read. -/
def StandsFor (h : Heap) (s : Segment) (units : List UInt16) : Prop :=
  ∃ r : Rope, s.string = r.address ∧ r.Stored h ∧
    r.Readable h (s.startIn r.units.length) (s.stopIn r.units.length) ∧
    units = r.part (s.startIn r.units.length) (s.stopIn r.units.length)

theorem standsFor_range (hr : r.Stored h) (hle : start ≤ stop) (hstop : stop ≤ r.units.length)
    (hread : r.Readable h start stop) :
    StandsFor h ⟨r.address, start, some stop⟩ (r.part start stop) := by
  refine ⟨r, rfl, hr, ?_, ?_⟩ <;> rw [startIn_range hle hstop, stopIn_range hstop]
  exact hread

/-- A range of two ropes behind each other falls into a range of each. -/
theorem standsFor_across {string : Address} (hfirst : first.Stored h) (hsecond : second.Stored h)
    (hle : start ≤ stop) (hstop : stop ≤ (Rope.cons string first second).units.length)
    (hread : (Rope.cons string first second).Readable h start stop) :
    ∃ parts, List.Forall₂ (StandsFor h)
        (across first.address second.address first.units.length start stop) parts ∧
      parts.flatten = (Rope.cons string first second).part start stop := by
  rw [Rope.units_cons, List.length_append] at hstop
  -- A half of which nothing is wanted has no segment, and its part is empty.
  have hones : (start < first.units.length →
      StandsFor h ⟨first.address, start, some (min stop first.units.length)⟩
        (first.part start (min stop first.units.length))) := fun hlt =>
    standsFor_range hfirst (by omega) (by omega) hread.1
  have htwos : (first.units.length < stop →
      StandsFor h
        ⟨second.address, start - first.units.length, some (stop - first.units.length)⟩
        (second.part (start - first.units.length) (stop - first.units.length))) := fun hlt =>
    standsFor_range hsecond (by omega) (by omega) hread.2
  refine ⟨(if start < first.units.length then [first.part start (min stop first.units.length)]
      else []) ++ (if first.units.length < stop then
        [second.part (start - first.units.length) (stop - first.units.length)] else []), ?_, ?_⟩
  · refine List.rel_append ?_ ?_ <;> split
    · exact .cons (hones ‹_›) .nil
    · exact .nil
    · exact .cons (htwos ‹_›) .nil
    · exact .nil
  · rw [Rope.part_cons hle, List.flatten_append]
    congr 1 <;> split
    · exact List.append_nil _
    · exact (Rope.part_of_le (by omega)).symm
    · exact List.append_nil _
    · exact (Rope.part_of_le (by omega)).symm

/-- Resolving a segment finds some of the units that it stands for, and leaves segments that stand
for the rest. -/
theorem resolve_standsFor (htags : TagsDistinct h.layout) (hs : s.StandsFor h units)
    (hmax : units.length ≤ maxStringUnits) :
    ∃ found made parts, s.resolve.Yields h (found, made) ∧
      List.Forall₂ (StandsFor h) made parts ∧ found ++ parts.flatten = units := by
  obtain ⟨string, begins, ends⟩ := s
  obtain ⟨r, rfl, hr, hread, rfl⟩ := hs
  have hlength := hr.yields_length
  have hle := Nat.min_le_right begins (stopIn ⟨r.address, begins, ends⟩ r.units.length)
  have hstop : stopIn ⟨r.address, begins, ends⟩ r.units.length ≤ r.units.length :=
    Nat.min_le_right ..
  have hmax' := (Rope.length_part hstop).symm.trans_le hmax
  cases hr with
  | flat hheader hwidth hunits hpayload =>
    have hrep := hheader.yields_representation htags
    have hflat := yields_flatUnits hwidth hunits hpayload hstop hmax' hread
    refine ⟨_, [], [], ?_, .nil, List.append_nil _⟩
    exact hlength.bind (hheader.typeId.bind (hrep.bind (hflat.bind (yields_pure.mpr rfl))))
  | cons hheader hfirst hsecond hr₁ hr₂ =>
    have hrep := hheader.yields_representation htags
    obtain ⟨parts, hparts, hunits⟩ := standsFor_across hr₁ hr₂ hle hstop hread
    refine ⟨[], _, parts, ?_, hparts, hunits⟩
    exact hlength.bind (hheader.typeId.bind (hrep.bind (hfirst.bind (hsecond.bind
      (hr₁.yields_length.bind (yields_pure.mpr rfl))))))
  | @slice _ parent offset length type hheader hparent hoffset hfits hr =>
    have hrep := hheader.yields_representation htags
    have hcount : (count _ .stringSlicedOffset).Yields h offset :=
      hoffset.bind (yields_pure.mpr (Int.toNat_natCast offset))
    have hstop' := hstop.trans_eq (Rope.length_slice hfits)
    have hrange := standsFor_range hr (Nat.add_le_add_left hle offset)
      ((Nat.add_le_add_left hstop' offset).trans hfits) hread
    refine ⟨[], _, [_], ?_, .cons hrange .nil, ?_⟩
    · exact hlength.bind (hheader.typeId.bind (hrep.bind (hparent.bind (hcount.bind
        (yields_pure.mpr rfl)))))
    · exact (List.append_nil _).trans (Rope.part_slice hstop').symm
  | thin hheader hactual hr =>
    have hrep := hheader.yields_representation htags
    refine ⟨[], _, [_], ?_, .cons (standsFor_range hr hle hstop hread) .nil, List.append_nil _⟩
    exact hlength.bind (hheader.typeId.bind (hrep.bind (hactual.bind (yields_pure.mpr rfl))))

end Segment

/-! ### Runs -/

/-- What was found and what the segments stand for are together the units of the whole. -/
def Progress.Covers (h : Heap) (whole : List UInt16) (p : Progress) : Prop :=
  ∃ parts, List.Forall₂ (Segment.StandsFor h) p.segments parts ∧
    p.units.toList ++ parts.flatten = whole

/-- A round goes on, or it was the last one and found everything. -/
theorem Progress.advance_covers (htags : TagsDistinct h.layout) {whole : List UInt16}
    (hmax : whole.length ≤ maxStringUnits) (string : Address) {p : Progress}
    (hp : p.Covers h whole) :
    (∃ p', (p.advance string).Yields h (.inl p') ∧ p'.Covers h whole) ∨
      (p.advance string).Yields h (.inr whole) := by
  -- No more was found than the whole has, so nothing is refused.
  have hsize : p.units.size ≤ maxStringUnits := by
    obtain ⟨parts, -, hwhole⟩ := hp
    rw [← Array.length_toList]
    exact ((List.prefix_append _ _).length_le.trans_eq (congrArg _ hwhole)).trans hmax
  rcases advance_accounts
    (fun s units hs hle => Segment.resolve_standsFor htags hs (hle.trans hmax)) string hsize hp with ⟨p', hp', -, hcovers⟩ | hdone
  · exact .inl ⟨p', hp', hcovers⟩
  · rw [bounded, if_pos hmax] at hdone
    exact .inr hdone

/-- A rope that a heap stores is resolved into its units if the ranges that are wanted can be
read. -/
theorem Rope.Stored.yields_units (htags : TagsDistinct h.layout) {r : Rope} (hr : r.Stored h)
    (hmax : r.units.length ≤ maxStringUnits) (hread : r.Readable h 0 r.units.length) :
    (codeUnits r.address).Yields h r.units := by
  obtain ⟨rank, hrank, hfuel⟩ := (hr.acyclic htags).exists_cost
  -- The first segment has no end of its own and stands for all units.
  have hstart : Progress.Covers h r.units ⟨#[], [⟨r.address, 0, none⟩]⟩ := by
    refine ⟨[r.units], .cons ⟨r, rfl, hr, ?_, ?_⟩ .nil, List.append_nil _⟩ <;>
      rw [Segment.startIn_whole, Segment.stopIn_whole]
    · exact hread
    · exact Rope.part_all.symm
  refine yields_loop (fun p => p.Within h r.address ∧ p.Covers h r.units) (Progress.cost h rank)
    (fun p hp => ?_) ⟨Progress.within_start _, hstart⟩ hfuel
  rcases Progress.advance_covers htags hmax r.address hp.2 with ⟨p', hp', hcovers⟩ | hdone
  · obtain ⟨hwithin', hlt⟩ := Progress.cost_lt hrank hp.1 hp'
    exact .inl ⟨p', hp', ⟨hwithin', hcovers⟩, hlt⟩
  · exact .inr hdone

/-- What `codeUnits` finds in a rope that a heap stores: the units that it stands for, if all
payloads are there, and even if they are there only where units of it come from. -/
theorem codeUnits_yields_units (htags : TagsDistinct h.layout) {r : Rope} (hr : r.Stored h)
    (hmax : r.units.length ≤ maxStringUnits) :
    (r.Intact h → (codeUnits r.address h).result = .ok r.units) ∧
      (r.Readable h 0 r.units.length → (codeUnits r.address h).result = .ok r.units) :=
  ⟨fun hintact => hr.yields_units htags hmax (hr.readable hintact le_rfl),
    fun hread => hr.yields_units htags hmax hread⟩

/-! ### A slice across two rows -/

open Synthetic

/-- The constants that strings are read by, as one build has them. -/
def stringLayout : Layout := listedLayout (flatConstants ++ [
  (.stringConsTag, 1), (.stringExternalTag, 2), (.stringSlicedTag, 3), (.stringThinTag, 5),
  (.stringTwoByteChars, 16), (.stringConsFirst, 16), (.stringConsSecond, 24),
  (.stringSlicedParent, 16), (.stringSlicedOffset, 24), (.stringThinActual, 16)])

theorem tagsDistinct_stringLayout : TagsDistinct stringLayout := by
  intro r s tag hr hs
  rw [stringLayout, value?_listedLayout] at hr hs
  cases r <;> cases s <;> first | rfl | cases hr.trans hs.symm

/-- Five maps of strings, and another name for three units from the middle of `abc` and `αβ`.  Of
the payloads only the units that come from there were captured. -/
def slicedHeap : Heap where
  layout := stringLayout
  image := listedImage [
    (⟨0x100c⟩, Word.toBytes 2 8), (⟨0x110c⟩, Word.toBytes 2 0), (⟨0x120c⟩, Word.toBytes 2 1),
    (⟨0x130c⟩, Word.toBytes 2 3), (⟨0x140c⟩, Word.toBytes 2 5),
    (⟨0x2000⟩, headerBytes 0x1001 3), (⟨0x2011⟩, [0x62, 0x63]),
    (⟨0x3000⟩, headerBytes 0x1101 2), (⟨0x3010⟩, [0xb1, 0x03]),
    (⟨0x4000⟩, headerBytes 0x1201 5 ++ Word.toBytes 8 0x2001 ++ Word.toBytes 8 0x3001),
    (⟨0x5000⟩, headerBytes 0x1301 3 ++ Word.toBytes 8 0x4001 ++ Word.toBytes 8 (2 ^ 32)),
    (⟨0x6000⟩, headerBytes 0x1401 3 ++ Word.toBytes 8 0x5001)]

def slicedRope : Rope :=
  .thin ⟨0x6001⟩
    (.slice ⟨0x5001⟩
      (.cons ⟨0x4001⟩
        (.flat ⟨0x2001⟩ ⟨0x2010⟩ true [0x61, 0x62, 0x63])
        (.flat ⟨0x3001⟩ ⟨0x3010⟩ false [0x3b1, 0x3b2]))
      1 3)

theorem header_stringLayout {m : Image} {string : Address} {type : ℤ} {r : Representation}
    {length : ℕ} (htype : (typeId string).Yields ⟨m, stringLayout⟩ type)
    (htag : stringLayout.value? r.tag = some (Word.maskBits type 7))
    (hlength : (int string .stringLength).Yields ⟨m, stringLayout⟩ length) :
    Rope.Header ⟨m, stringLayout⟩ string type r length := by
  have hmask : stringLayout.value? .stringRepresentationMask = some 7 := by decide +kernel
  exact ⟨htype, ⟨7, hmask, htag⟩, hlength⟩

theorem slicedRope_stored : slicedRope.Stored slicedHeap := by
  have hnarrow : Rope.Header slicedHeap ⟨0x2001⟩ 8 .sequential 3 :=
    header_stringLayout (by decide +kernel) (by decide +kernel) (by decide +kernel)
  have hwide : Rope.Header slicedHeap ⟨0x3001⟩ 0 .sequential 2 :=
    header_stringLayout (by decide +kernel) (by decide +kernel) (by decide +kernel)
  have hcons : Rope.Header slicedHeap ⟨0x4001⟩ 1 .cons 5 :=
    header_stringLayout (by decide +kernel) (by decide +kernel) (by decide +kernel)
  have hslice : Rope.Header slicedHeap ⟨0x5001⟩ 3 .sliced 3 :=
    header_stringLayout (by decide +kernel) (by decide +kernel) (by decide +kernel)
  have hthin : Rope.Header slicedHeap ⟨0x6001⟩ 5 .thin 3 :=
    header_stringLayout (by decide +kernel) (by decide +kernel) (by decide +kernel)
  exact .thin hthin (by decide +kernel) (.slice hslice (by decide +kernel) (by decide +kernel)
    (by decide) (.cons hcons (by decide +kernel) (by decide +kernel)
      (.flat hnarrow (by decide +kernel) (fun _ => by simp) (by decide +kernel))
      (.flat hwide (by decide +kernel) nofun (by decide +kernel))))

theorem codeUnits_yields_units_sliced :
    TagsDistinct slicedHeap.layout ∧ slicedRope.Stored slicedHeap ∧
      slicedRope.units.length ≤ maxStringUnits ∧
      slicedRope.Readable slicedHeap 0 slicedRope.units.length ∧
      slicedRope.units = [0x62, 0x63, 0x3b1] ∧
      (codeUnits slicedRope.address slicedHeap).result = .ok slicedRope.units := by
  have hmax : slicedRope.units.length ≤ maxStringUnits := by decide +kernel
  have hread : slicedRope.Readable slicedHeap 0 slicedRope.units.length := by
    refine ⟨fun _ => ?_, fun _ => ?_⟩ <;> decide +kernel
  have hunits := codeUnits_yields_units (h := slicedHeap) tagsDistinct_stringLayout
    slicedRope_stored hmax
  exact ⟨tagsDistinct_stringLayout, slicedRope_stored, hmax, hread, rfl, hunits.2 hread⟩

end JsString

end Postmortem
