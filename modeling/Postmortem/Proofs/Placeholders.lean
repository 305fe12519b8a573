/-
Postmortem/Proofs/Placeholders.lean

Texts with strings outside the heap in them.

The heap has the header of such a string and not its units.  In a text it is shown by
a placeholder, always the same one.  What comes of that for the text of a string that
has others outside the heap in it, however deep, is told in terms of pieces: a range
of a rope falls into pieces of the rows that the rope is made of (`Rope.pieces`), cut
as the slices and halves around them say.  Units of the pieces are units of the string,
and pieces outside the heap are shown by the placeholder, whatever their units are.

So positions in the narrow text of a string are positions in the string as long as no
piece of it is outside.  The placeholder is not cut to the piece that it stands for: the
text has as many characters as the string has units if and only if the pieces outside
have together as many units as their placeholders.  For a single piece these are ten.

The account of segments is the one of ropes in the heap, with what is shown in place of
units: a segment shows a range of a rope (`Segment.Shows`).

Main result: `narrowText_pieces`.
-/
import Postmortem.Proofs.Rope

namespace Postmortem.JsString

open HeapM

variable {h : Heap}

/-! ### Pieces -/

/-- A piece of a row: some of the units of a string. -/
structure Piece where
  string : Address
  units : List UInt16

namespace Piece

/-- The string is outside the heap, so its units are not known. -/
def IsOutside (h : Heap) (p : Piece) : Prop := (representation p.string).Yields h .external

instance (h : Heap) (p : Piece) : Decidable (p.IsOutside h) :=
  inferInstanceAs (Decidable ((representation p.string).Yields h .external))

/-- What is shown for a piece: its units, or the placeholder. -/
def shown (h : Heap) (p : Piece) : List UInt16 := if p.IsOutside h then external else p.units

end Piece

namespace Rope

/-- The pieces of rows that the units of a rope from `start` to `stop` come from, in order. A part
of a rope from which nothing comes has none. -/
def pieces : Rope → ℕ → ℕ → List Piece
  | flat string _ _ units, start, stop => [⟨string, (units.drop start).take (stop - start)⟩]
  | cons _ first second, start, stop =>
    (if start < first.units.length then first.pieces start (min stop first.units.length) else [])
      ++ if first.units.length < stop then
        second.pieces (start - first.units.length) (stop - first.units.length) else []
  | slice _ parent offset _, start, stop => parent.pieces (offset + start) (offset + stop)
  | thin _ actual, start, stop => actual.pieces start stop

/-- What is shown of a rope from `start` to `stop`. -/
def shown (h : Heap) (r : Rope) (start stop : ℕ) : List UInt16 :=
  (r.pieces start stop).flatMap (Piece.shown h)

/-- The headers of all strings of a rope are there, and the units of its rows unless they are
outside the heap. Of a row outside nothing is told but how many units it has. -/
inductive Told (h : Heap) : Rope → Prop
  | within {string payload : Address} {isNarrow : Bool} {units : List UInt16} :
      Stored h (.flat string payload isNarrow units) →
      Intact h (.flat string payload isNarrow units) → Told h (.flat string payload isNarrow units)
  | outside {string payload : Address} {isNarrow : Bool} {units : List UInt16} {type : ℤ} :
      Header h string type .external units.length → Told h (.flat string payload isNarrow units)
  | cons {string : Address} {first second : Rope} {type : ℤ} :
      Header h string type .cons (first.units.length + second.units.length) →
      (pointer string .stringConsFirst).Yields h first.address →
      (pointer string .stringConsSecond).Yields h second.address →
      Told h first → Told h second → Told h (.cons string first second)
  | slice {string : Address} {parent : Rope} {offset length : ℕ} {type : ℤ} :
      Header h string type .sliced length →
      (pointer string .stringSlicedParent).Yields h parent.address →
      (int string .stringSlicedOffset).Yields h offset →
      offset + length ≤ parent.units.length →
      Told h parent → Told h (.slice string parent offset length)
  | thin {string : Address} {actual : Rope} {type : ℤ} :
      Header h string type .thin actual.units.length →
      (pointer string .stringThinActual).Yields h actual.address →
      Told h actual → Told h (.thin string actual)

variable {r first second : Rope} {start stop : ℕ}

/-- A row in the heap is shown as it is. -/
theorem shown_within {string payload : Address} {isNarrow : Bool} {units : List UInt16} {type : ℤ}
    {n : ℕ} (htags : TagsDistinct h.layout) (hheader : Header h string type .sequential n) :
    (flat string payload isNarrow units).shown h start stop =
      (units.drop start).take (stop - start) := by
  have hnot : ¬ Piece.IsOutside h ⟨string, (units.drop start).take (stop - start)⟩ := by
    intro hout
    cases (hheader.representation htags).unique hout
  show Piece.shown h _ ++ [] = _
  rw [List.append_nil, Piece.shown, if_neg hnot]

/-- Of a row outside the heap only the placeholder is shown. -/
theorem shown_outside {string payload : Address} {isNarrow : Bool} {units : List UInt16} {type : ℤ}
    {n : ℕ} (htags : TagsDistinct h.layout) (hheader : Header h string type .external n) :
    (flat string payload isNarrow units).shown h start stop = external := by
  have hout : Piece.IsOutside h ⟨string, (units.drop start).take (stop - start)⟩ :=
    hheader.representation htags
  show Piece.shown h _ ++ [] = _
  rw [List.append_nil, Piece.shown, if_pos hout]

theorem shown_cons (string : Address) (first second : Rope) (start stop : ℕ) :
    (cons string first second).shown h start stop =
      (if start < first.units.length then first.shown h start (min stop first.units.length) else [])
        ++ if first.units.length < stop then
          second.shown h (start - first.units.length) (stop - first.units.length) else [] := by
  show List.flatMap _ (_ ++ _) = _
  rw [List.flatMap_append]
  congr 1 <;> split <;> rfl

/-- The pieces of a range have the units of it. -/
theorem flatMap_units_pieces (hr : r.Told h) (hle : start ≤ stop) (hstop : stop ≤ r.units.length) :
    (r.pieces start stop).flatMap Piece.units = r.part start stop := by
  induction hr generalizing start stop with
  | within => exact List.append_nil _
  | outside => exact List.append_nil _
  | @cons _ first second _ _ _ _ _ _ ih₁ ih₂ =>
    rw [units_cons, List.length_append] at hstop
    rw [pieces, List.flatMap_append, part_cons hle]
    congr 1
    · split
      case isTrue hlt => exact ih₁ (by omega) (by omega)
      case isFalse => exact (part_of_le (by omega)).symm
    · split
      case isTrue hlt => exact ih₂ (by omega) (by omega)
      case isFalse => exact (part_of_le (by omega)).symm
  | slice _ _ _ hfits _ ih =>
    have hstop' := hstop.trans_eq (length_slice hfits)
    rw [part_slice hstop']
    exact ih (by omega) (by omega)
  | thin _ _ _ ih => exact ih hle hstop

/-! ### Headers -/

/-- Every string of a rope has its header. -/
theorem Told.yields_length (hr : r.Told h) :
    (JsString.length r.address).Yields h r.units.length := by
  cases hr with
  | within hstored => exact hstored.yields_length
  | outside hheader => exact hheader.yields_length
  | cons hheader =>
    rw [units_cons, List.length_append]
    exact hheader.yields_length
  | slice hheader _ _ hfits =>
    rw [length_slice hfits]
    exact hheader.yields_length
  | thin hheader => exact hheader.yields_length

theorem Told.exists_part (htags : TagsDistinct h.layout) (hr : r.Told h) {b : Address}
    (hb : Part h r.address b) :
    ∃ r' : Rope, r'.Told h ∧ r'.address = b ∧ sizeOf r' < sizeOf r := by
  cases hr with
  | within hstored =>
    cases hstored with
    | flat hheader => exact absurd ((part_iff (hheader.representation htags)).mp hb) id
  | outside hheader => exact absurd ((part_iff (hheader.representation htags)).mp hb) id
  | @cons _ first second _ hheader hfirst hsecond htfirst htsecond =>
    rcases (part_iff (hheader.representation htags)).mp hb with hb | hb
    · exact ⟨first, htfirst, hfirst.unique hb, by simp only [cons.sizeOf_spec]; omega⟩
    · exact ⟨second, htsecond, hsecond.unique hb, by simp only [cons.sizeOf_spec]; omega⟩
  | @slice _ parent _ _ _ hheader hparent _ _ htparent =>
    have hb := (part_iff (hheader.representation htags)).mp hb
    exact ⟨parent, htparent, hparent.unique hb, by simp only [slice.sizeOf_spec]; omega⟩
  | @thin _ actual _ hheader hactual htactual =>
    have hb := (part_iff (hheader.representation htags)).mp hb
    exact ⟨actual, htactual, hactual.unique hb, by simp only [thin.sizeOf_spec]; omega⟩

theorem Told.acyclic (htags : TagsDistinct h.layout) (hr : r.Told h) : Acyclic h r.address := by
  refine acyclic_of_smaller (fun r : {r : Rope // r.Told h} => r.1.address)
    (fun r => sizeOf r.1) (fun r b hb => ?_) ⟨r, hr⟩
  obtain ⟨r', hr', hb, hlt⟩ := r.2.exists_part htags hb
  exact ⟨⟨r', hr'⟩, hb, hlt⟩

end Rope

/-! ### Segments -/

namespace Segment

variable {s : Segment} {units : List UInt16} {r first second : Rope} {start stop : ℕ}

/-- A segment shows a range of a rope, which is not too long to be read. -/
def Shows (h : Heap) (s : Segment) (units : List UInt16) : Prop :=
  ∃ r : Rope, s.string = r.address ∧ r.Told h ∧
    s.stopIn r.units.length - s.startIn r.units.length ≤ maxStringUnits ∧
    units = r.shown h (s.startIn r.units.length) (s.stopIn r.units.length)

theorem shows_range (hr : r.Told h) (hle : start ≤ stop) (hstop : stop ≤ r.units.length)
    (hmax : stop - start ≤ maxStringUnits) :
    Shows h ⟨r.address, start, some stop⟩ (r.shown h start stop) := by
  refine ⟨r, rfl, hr, ?_, ?_⟩ <;> rw [startIn_range hle hstop, stopIn_range hstop]
  exact hmax

/-- A range of two ropes behind each other is shown by the segments that it falls into. -/
theorem shows_across {string : Address} (hfirst : first.Told h) (hsecond : second.Told h)
    (hle : start ≤ stop) (hstop : stop ≤ (Rope.cons string first second).units.length)
    (hmax : stop - start ≤ maxStringUnits) :
    ∃ parts, List.Forall₂ (Shows h)
        (across first.address second.address first.units.length start stop) parts ∧
      parts.flatten = (Rope.cons string first second).shown h start stop := by
  rw [Rope.units_cons, List.length_append] at hstop
  refine ⟨(if start < first.units.length then
      [first.shown h start (min stop first.units.length)] else []) ++
    (if first.units.length < stop then
      [second.shown h (start - first.units.length) (stop - first.units.length)] else []), ?_, ?_⟩
  · refine List.rel_append ?_ ?_ <;> split
    · exact .cons (shows_range hfirst (by omega) (by omega) (by omega)) .nil
    · exact .nil
    · exact .cons (shows_range hsecond (by omega) (by omega) (by omega)) .nil
    · exact .nil
  · rw [Rope.shown_cons, List.flatten_append]
    congr 1 <;> split
    · exact List.append_nil _
    · rfl
    · exact List.append_nil _
    · rfl

/-- Resolving a segment finds some of what it shows, and leaves segments that show the rest. -/
theorem resolve_shows (htags : TagsDistinct h.layout) (hs : s.Shows h units) :
    ∃ found made parts, s.resolve.Yields h (found, made) ∧
      List.Forall₂ (Shows h) made parts ∧ found ++ parts.flatten = units := by
  obtain ⟨string, begins, ends⟩ := s
  obtain ⟨r, rfl, hr, hmax, rfl⟩ := hs
  have hlength := hr.yields_length
  have hle := Nat.min_le_right begins (stopIn ⟨r.address, begins, ends⟩ r.units.length)
  have hstop : stopIn ⟨r.address, begins, ends⟩ r.units.length ≤ r.units.length :=
    Nat.min_le_right ..
  cases hr with
  | @within string payload isNarrow row hstored hintact =>
    have hread : (Rope.flat string payload isNarrow row).Readable h
        (startIn ⟨string, begins, ends⟩ row.length) (stopIn ⟨string, begins, ends⟩ row.length) :=
      hstored.readable hintact hstop
    cases hstored with
    | flat hheader hwidth hunits hpayload =>
      have hrep := hheader.yields_representation htags
      have hflat := yields_flatUnits hwidth hunits hpayload hstop hmax hread
      rw [Rope.shown_within htags hheader]
      refine ⟨_, [], [], ?_, .nil, List.append_nil _⟩
      exact hlength.bind (hheader.typeId.bind (hrep.bind (hflat.bind (yields_pure.mpr rfl))))
  | outside hheader =>
    have hrep := hheader.yields_representation htags
    rw [Rope.shown_outside htags hheader]
    refine ⟨external, [], [], ?_, .nil, List.append_nil _⟩
    exact hlength.bind (hheader.typeId.bind (hrep.bind (yields_pure.mpr rfl)))
  | cons hheader hfirst hsecond hr₁ hr₂ =>
    have hrep := hheader.yields_representation htags
    obtain ⟨parts, hparts, hunits⟩ := shows_across hr₁ hr₂ hle hstop hmax
    refine ⟨[], _, parts, ?_, hparts, hunits⟩
    exact hlength.bind (hheader.typeId.bind (hrep.bind (hfirst.bind (hsecond.bind
      (hr₁.yields_length.bind (yields_pure.mpr rfl))))))
  | @slice _ parent offset length type hheader hparent hoffset hfits hr =>
    have hrep := hheader.yields_representation htags
    have hcount : (count _ .stringSlicedOffset).Yields h offset :=
      hoffset.bind (yields_pure.mpr (Int.toNat_natCast offset))
    have hstop' := hstop.trans_eq (Rope.length_slice hfits)
    have hrange := shows_range hr (Nat.add_le_add_left hle offset)
      ((Nat.add_le_add_left hstop' offset).trans hfits) (by rwa [Nat.add_sub_add_left])
    refine ⟨[], _, [_], ?_, .cons hrange .nil, List.append_nil _⟩
    exact hlength.bind (hheader.typeId.bind (hrep.bind (hparent.bind (hcount.bind
      (yields_pure.mpr rfl)))))
  | thin hheader hactual hr =>
    have hrep := hheader.yields_representation htags
    refine ⟨[], _, [_], ?_, .cons (shows_range hr hle hstop hmax) .nil, List.append_nil _⟩
    exact hlength.bind (hheader.typeId.bind (hrep.bind (hactual.bind (yields_pure.mpr rfl))))

end Segment

/-! ### Runs -/

/-- A string is resolved into what is shown of all of it, unless that is too much. -/
theorem Rope.Told.result_codeUnits (htags : TagsDistinct h.layout) {r : Rope} (hr : r.Told h)
    (hmax : r.units.length ≤ maxStringUnits) :
    (codeUnits r.address h).result = bounded r.address (r.shown h 0 r.units.length) := by
  obtain ⟨rank, hrank, hfuel⟩ := (hr.acyclic htags).exists_cost
  have hresolve (s : Segment) (units : List UInt16) (hs : s.Shows h units)
      (_ : units.length ≤ (r.shown h 0 r.units.length).length) :=
    Segment.resolve_shows htags hs
  -- The first segment has no end of its own and shows the whole.
  have hstart : Progress.Accounts (Segment.Shows h) (r.shown h 0 r.units.length)
      ⟨#[], [⟨r.address, 0, none⟩]⟩ := by
    refine ⟨[_], .cons ⟨r, rfl, hr, ?_, ?_⟩ .nil, List.append_nil _⟩ <;>
      rw [Segment.startIn_whole, Segment.stopIn_whole]
    exact hmax
  refine result_loop (fun p => p.Within h r.address ∧ p.units.size ≤ maxStringUnits ∧
    p.Accounts (Segment.Shows h) (r.shown h 0 r.units.length)) (Progress.cost h rank)
    (fun p ⟨hp, hsize, haccounts⟩ => ?_) ⟨Progress.within_start _, Nat.zero_le _, hstart⟩
    hfuel
  rcases Progress.advance_accounts hresolve r.address hsize haccounts with
    ⟨p', hp', hnext⟩ | hdone
  · obtain ⟨hwithin', hlt⟩ := Progress.cost_lt hrank hp hp'
    exact .inl ⟨p', hp', ⟨hwithin', hnext⟩, hlt⟩
  · exact .inr hdone

/-! ### Positions -/

/-- The pieces of a rope that are outside the heap. -/
def Rope.outside (h : Heap) (r : Rope) : List Piece :=
  (r.pieces 0 r.units.length).filter (·.IsOutside h)

/-- Pieces outside the heap make the difference between what is shown and what is there. -/
theorem length_shown_add (ps : List Piece) :
    (ps.flatMap (Piece.shown h)).length + ((ps.filter (·.IsOutside h)).map (·.units.length)).sum =
      (ps.flatMap Piece.units).length + (ps.filter (·.IsOutside h)).length * external.length := by
  induction ps with
  | nil => rfl
  | cons p ps ih =>
    by_cases hout : p.IsOutside h
    · simp only [List.flatMap_cons, List.length_append, Piece.shown, List.filter_cons, hout,
        decide_true, if_true, List.map_cons, List.sum_cons, List.length_cons, Nat.succ_mul]
      omega
    · simp only [List.flatMap_cons, List.length_append, Piece.shown, List.filter_cons, hout,
        decide_false, if_false, Bool.false_eq_true]
      omega

namespace Rope

variable {r : Rope}

theorem Told.flatMap_units (hr : r.Told h) :
    (r.pieces 0 r.units.length).flatMap Piece.units = r.units :=
  (flatMap_units_pieces hr (Nat.zero_le _) le_rfl).trans part_all

/-- Where nothing is outside the heap, what is shown is what is there. -/
theorem Told.shown_eq (hr : r.Told h) (hnone : r.outside h = []) :
    r.shown h 0 r.units.length = r.units := by
  refine (List.flatMap_congr fun p hp => if_neg fun hout => ?_).trans hr.flatMap_units
  exact List.filter_eq_nil_iff.mp hnone p hp (decide_eq_true hout)

/-- As much is shown as is there if the pieces outside make as much as their placeholders. -/
theorem Told.length_shown_iff (hr : r.Told h) :
    (r.shown h 0 r.units.length).length = r.units.length ↔
      ((r.outside h).map (·.units.length)).sum = (r.outside h).length * external.length := by
  have hbalance := length_shown_add (h := h) (r.pieces 0 r.units.length)
  rw [hr.flatMap_units] at hbalance
  unfold Rope.shown Rope.outside
  omega

end Rope

theorem result_narrowText (string : Address) :
    (narrowText string h).result = (codeUnits string h).result.map Utf16.narrow := by
  rcases hunits : (codeUnits string h).result with e | units
  · rw [narrowText, bind_error hunits]
    rfl
  · rw [narrowText, bind_ok hunits]
    rfl

/-- The narrow text of a string has one character for each unit that is shown of it. So if no piece
is outside the heap, position `k` in the text is that of unit `k`; and the text has as many
characters as the string has units if and only if the pieces outside have, between them, as many
units as the placeholders that are shown for them. -/
theorem narrowText_pieces (htags : TagsDistinct h.layout) {r : Rope} (hr : r.Told h)
    (hmax : r.units.length ≤ maxStringUnits) :
    (JsString.length r.address).Yields h r.units.length ∧
      (r.pieces 0 r.units.length).flatMap Piece.units = r.units ∧
      (narrowText r.address h).result =
        (bounded r.address (r.shown h 0 r.units.length)).map Utf16.narrow ∧
      (r.outside h = [] → (narrowText r.address).Yields h (Utf16.narrow r.units)) ∧
      ((∃ text, (narrowText r.address).Yields h text ∧ text.length = r.units.length) ↔
        ((r.outside h).map (·.units.length)).sum = (r.outside h).length * external.length) := by
  have htext : (narrowText r.address h).result =
      (bounded r.address (r.shown h 0 r.units.length)).map Utf16.narrow := by
    rw [result_narrowText, hr.result_codeUnits htags hmax]
  -- Too much is shown, and there is no text, only where more is shown than there is.
  have hyields (hlength : (r.shown h 0 r.units.length).length = r.units.length) :
      (narrowText r.address).Yields h (Utf16.narrow (r.shown h 0 r.units.length)) := by
    rw [Yields, htext, bounded, if_pos (hlength.trans_le hmax)]
    rfl
  refine ⟨hr.yields_length, hr.flatMap_units, htext, fun hnone => ?_, ?_⟩
  · have hshown := hr.shown_eq hnone
    have hnarrow := hyields (congrArg List.length hshown)
    rwa [hshown] at hnarrow
  · rw [← hr.length_shown_iff]
    constructor
    · rintro ⟨text, hfound, hlength⟩
      rw [Yields, htext, bounded] at hfound
      split at hfound
      case isTrue =>
        cases hfound
        rwa [Utf16.length_narrow] at hlength
      case isFalse => cases hfound
    · intro hlength
      exact ⟨_, hyields hlength, (Utf16.length_narrow _).trans hlength⟩

/-! ### A slice of a string outside -/

open Synthetic

/-- A string of ten units outside the heap, a slice of three from the middle of it, and the slice
behind `ab`. -/
def outsideHeap : Heap where
  layout := stringLayout
  image := listedImage [
    (⟨0x100c⟩, Word.toBytes 2 8), (⟨0x110c⟩, Word.toBytes 2 10), (⟨0x120c⟩, Word.toBytes 2 1),
    (⟨0x130c⟩, Word.toBytes 2 3),
    (⟨0x2000⟩, headerBytes 0x1101 10),
    (⟨0x3000⟩, headerBytes 0x1301 3 ++ wordsBytes [0x2001, smiWord 2]),
    (⟨0x4000⟩, headerBytes 0x1001 2 ++ [0x61, 0x62]),
    (⟨0x5000⟩, headerBytes 0x1201 5 ++ wordsBytes [0x4001, 0x3001])]

/-- What is outside might be the digits from zero to nine. -/
def outsideSlice : Rope :=
  .slice ⟨0x3001⟩
    (.flat ⟨0x2001⟩ ⟨0x2010⟩ true [0x30, 0x31, 0x32, 0x33, 0x34, 0x35, 0x36, 0x37, 0x38, 0x39])
    2 3

def mixedRope : Rope :=
  .cons ⟨0x5001⟩ (.flat ⟨0x4001⟩ ⟨0x4010⟩ true [0x61, 0x62]) outsideSlice

theorem outsideSlice_told : outsideSlice.Told outsideHeap := by
  have houtside : Rope.Header outsideHeap ⟨0x2001⟩ 10 .external 10 :=
    header_stringLayout (by decide +kernel) (by decide +kernel) (by decide +kernel)
  have hslice : Rope.Header outsideHeap ⟨0x3001⟩ 3 .sliced 3 :=
    header_stringLayout (by decide +kernel) (by decide +kernel) (by decide +kernel)
  exact .slice hslice (by decide +kernel) (by decide +kernel) (by decide) (.outside houtside)

theorem holds_outsideHeap : outsideHeap.image.Holds ⟨0x4010⟩ [0x61, 0x62] := by
  intro skipped n hpos hle
  have hcases : skipped = 0 ∧ n = 1 ∨ skipped = 0 ∧ n = 2 ∨ skipped = 1 ∧ n = 1 := by
    rw [show ([0x61, 0x62] : List UInt8).length = 2 from rfl] at hle
    omega
  rcases hcases with ⟨rfl, rfl⟩ | ⟨rfl, rfl⟩ | ⟨rfl, rfl⟩ <;> decide +kernel

theorem mixedRope_told : mixedRope.Told outsideHeap := by
  have hnarrow : Rope.Header outsideHeap ⟨0x4001⟩ 8 .sequential 2 :=
    header_stringLayout (by decide +kernel) (by decide +kernel) (by decide +kernel)
  have hcons : Rope.Header outsideHeap ⟨0x5001⟩ 1 .cons 5 :=
    header_stringLayout (by decide +kernel) (by decide +kernel) (by decide +kernel)
  have hrow : Rope.Stored outsideHeap (.flat ⟨0x4001⟩ ⟨0x4010⟩ true [0x61, 0x62]) :=
    .flat hnarrow (by decide +kernel) (fun _ => by simp) (by decide +kernel)
  exact .cons hcons (by decide +kernel) (by decide +kernel) (.within hrow holds_outsideHeap)
    outsideSlice_told

/-- Of five units two are in the heap; for the other three ten characters are shown. -/
theorem narrowText_pieces_mixed :
    TagsDistinct outsideHeap.layout ∧ mixedRope.Told outsideHeap ∧
      mixedRope.units.length ≤ maxStringUnits ∧
      (JsString.length ⟨0x5001⟩).Yields outsideHeap 5 ∧
      (narrowText ⟨0x5001⟩ outsideHeap).result = .ok "ab(external)".toList ∧
      ¬ ∃ text, (narrowText ⟨0x5001⟩).Yields outsideHeap text ∧ text.length = 5 := by
  have hmax : mixedRope.units.length ≤ maxStringUnits := by decide +kernel
  obtain ⟨hlength, -, htext, -, hsame⟩ :=
    narrowText_pieces (h := outsideHeap) tagsDistinct_stringLayout mixedRope_told hmax
  have hshown : (bounded ⟨0x5001⟩ (mixedRope.shown outsideHeap 0 5)).map Utf16.narrow =
      .ok "ab(external)".toList := by decide +kernel
  have hsum : ((mixedRope.outside outsideHeap).map (·.units.length)).sum ≠
      (mixedRope.outside outsideHeap).length * external.length := by decide +kernel
  exact ⟨tagsDistinct_stringLayout, mixedRope_told, hmax, hlength, htext.trans hshown,
    fun hex => hsum (hsame.mp hex)⟩

/-- A slice of three units has a narrow text of ten characters. -/
theorem length_narrowText_ne :
    TagsDistinct outsideHeap.layout ∧ outsideSlice.Told outsideHeap ∧
      outsideSlice.address = ⟨0x3001⟩ ∧ outsideSlice.units.length = 3 ∧
      (JsString.length ⟨0x3001⟩).Yields outsideHeap 3 ∧
      (narrowText ⟨0x3001⟩).Yields outsideHeap "(external)".toList ∧
      "(external)".toList.length ≠ 3 :=
  ⟨tagsDistinct_stringLayout, outsideSlice_told, rfl, rfl, by decide +kernel, by decide +kernel,
    by decide⟩

end Postmortem.JsString
