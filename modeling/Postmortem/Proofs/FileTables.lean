/-
Postmortem/Proofs/FileTables.lean

The table of mapped files, whatever the bytes are.

The table says itself how many rows it has, and that may be any number.  It is held
against the bytes there are before a row is looked at, in numbers that do not wrap, so
every row is found whole, and each of its words stands in the note (`noteField?_row`).

Behind the rows stand the paths, with zeros between them, so there is one more of them
than there are zeros (`length_splitOn`).  Rows and paths are gone through together, and
that ends well where the paths last as long as the rows (`mappingsOf_eq`); whatever is
behind the last path that is asked for does not matter.

Main result: `mappings?_iff`.
-/
import Mathlib.Algebra.GroupWithZero.Nat
import Mathlib.Data.List.Forall2
import Postmortem.Elf.Core
import Postmortem.Proofs.Collections

namespace Postmortem

/-! ### Pieces -/

namespace Elf

theorem afterZero?_cons_of_ne {b : UInt8} {bytes : List UInt8} (hb : b ≠ 0) :
    afterZero? (b :: bytes) = afterZero? bytes := by
  rw [afterZero?, afterZero?, List.dropWhile_cons_of_pos (by simpa using hb)]

/-- The first piece ends before the first zero, and the others are those of what follows it. -/
theorem splitOn_zero (bytes : List UInt8) :
    bytes.splitOn 0 = bytes.takeWhile (· != 0) :: (afterZero? bytes).elim [] (List.splitOn 0) := by
  induction bytes with
  | nil => rfl
  | cons b bytes ih =>
    rw [List.splitOn_cons_eq_if_modifyHead]
    by_cases hb : b = 0
    · subst hb
      rfl
    · rw [if_neg (by simpa using hb), ih, List.modifyHead_cons, afterZero?_cons_of_ne hb,
        List.takeWhile_cons_of_pos (by simpa using hb)]

/-! ### Rows -/

/-- Rows and paths are gone through together; there have to be as many paths as rows. -/
theorem mappingsOf_eq (pageSize : ℕ) (rows : List (List UInt8)) (names : Option (List UInt8)) :
    mappingsOf pageSize rows names =
      if rows.length ≤ (names.elim [] (List.splitOn 0)).length then
        some (rows.zipWith (Mapping.ofRow pageSize) (names.elim [] (List.splitOn 0)))
      else none := by
  induction rows generalizing names with
  | nil =>
    rw [List.length_nil, if_pos (Nat.zero_le _)]
    rfl
  | cons row rows ih =>
    cases names with
    | none => rfl
    | some names =>
      rw [mappingsOf, ih, Option.elim_some, splitOn_zero, List.zipWith_cons_cons]
      simp only [List.length_cons, Nat.add_le_add_iff_right]
      split <;> rfl

end Elf

section

variable {size count i : ℕ} {bytes : List UInt8}

theorem length_records : (records size count bytes).length = count := by
  induction count generalizing bytes with
  | zero => rfl
  | succ count ih => rw [records, List.length_cons, ih]

theorem getElem?_records (hi : i < count) :
    (records size count bytes)[i]? = some ((bytes.drop (size * i)).take size) := by
  induction count generalizing bytes i with
  | zero => cases hi
  | succ count ih =>
    cases i with
    | zero => rfl
    | succ i =>
      rw [records, List.getElem?_cons_succ, ih (by omega), List.drop_drop, Nat.mul_succ,
        Nat.add_comm size]

end

namespace Elf

variable {d : List UInt8} {i offset width : ℕ}

/-- How many rows the table says it has. -/
def rowCount (d : List UInt8) : ℕ := ByteOrder.little.field d 0 8

/-- What stands behind the rows. -/
def pathBytes (d : List UInt8) : List UInt8 := d.drop (16 + 24 * rowCount d)

/-- There are both numbers, all rows, and a path for each of them. -/
structure IsFileTable (d : List UInt8) : Prop where
  numbers : 16 ≤ d.length
  rows : 16 + 24 * rowCount d ≤ d.length
  paths : rowCount d - 1 ≤ (pathBytes d).count 0

/-- The mapping that row `i` and path `i` tell of; all words are in the note. -/
structure IsRow (d : List UInt8) (i : ℕ) (m : Mapping) : Prop where
  start : noteField? d (16 + 24 * i) 8 = some m.start.word.toNat
  stop : noteField? d (16 + 24 * i + 8) 8 = some m.stop.word.toNat
  offset : ∃ pages pageSize, noteField? d (16 + 24 * i + 16) 8 = some pages ∧
    noteField? d 8 8 = some pageSize ∧ m.offset = min (pages * pageSize) (2 ^ 64 - 1)
  path : ∃ path, ((pathBytes d).splitOn 0)[i]? = some path ∧ m.path = Utf8.decodeLossy path

/-- The rows of a table. -/
def rowsOf (d : List UInt8) : List (List UInt8) :=
  recordsOf 24 ((d.drop 16).take (24 * rowCount d))

theorem noteField?_eq_some (hle : offset + width ≤ d.length) :
    noteField? d offset width = some (ByteOrder.little.field d offset width) :=
  if_pos hle

theorem noteField?_eq_none (hlt : d.length < offset + width) : noteField? d offset width = none :=
  if_neg (Nat.not_le.mpr hlt)

theorem rowsOf_eq (hrows : 16 + 24 * rowCount d ≤ d.length) :
    rowsOf d = records 24 (rowCount d) ((d.drop 16).take (24 * rowCount d)) := by
  have hlength : ((d.drop 16).take (24 * rowCount d)).length = 24 * rowCount d := by
    rw [List.length_take, List.length_drop]
    omega
  rw [rowsOf, recordsOf, hlength, Nat.mul_div_cancel_left _ (by decide)]

/-- A word of a row is a word of the note. -/
theorem noteField?_row (hrows : 16 + 24 * rowCount d ≤ d.length) (hi : i < rowCount d)
    (hoffset : offset + 8 ≤ 24) {row : List UInt8} (hrow : (rowsOf d)[i]? = some row) :
    noteField? d (16 + 24 * i + offset) 8 = some (ByteOrder.little.field row offset 8) := by
  rw [rowsOf_eq hrows, getElem?_records hi] at hrow
  obtain rfl := Option.some.inj hrow
  -- The word is cut out of a row, and the row out of all of them, so these ends do not matter.
  rw [noteField?_eq_some (by omega), ByteOrder.field, ByteOrder.field,
    take_drop_take hoffset, List.drop_drop, take_drop_take (by omega), List.drop_drop,
    Nat.add_assoc]

theorem toNat_ofNat_field (row : List UInt8) (offset : ℕ) :
    (UInt64.ofNat (ByteOrder.little.field row offset 8)).toNat =
      ByteOrder.little.field row offset 8 := by
  have hlength : ((row.drop offset).take 8).length ≤ 8 := List.length_take_le ..
  have hpow : 256 ^ ((row.drop offset).take 8).length ≤ 256 ^ 8 :=
    Nat.pow_le_pow_right (by decide) hlength
  exact UInt64.toNat_ofNat_of_lt' (Nat.lt_of_lt_of_le (Word.ofBytes_lt _) hpow)

/-- A row and the path that goes with it tell of a mapping. -/
theorem isRow_ofRow (htable : IsFileTable d) (hi : i < rowCount d) {row path : List UInt8}
    (hrow : (rowsOf d)[i]? = some row) (hpath : ((pathBytes d).splitOn 0)[i]? = some path) :
    IsRow d i (Mapping.ofRow (ByteOrder.little.field d 8 8) row path) where
  start := by
    show noteField? d (16 + 24 * i + 0) 8 = _
    rw [noteField?_row htable.rows hi (by decide) hrow]
    exact congrArg some (toNat_ofNat_field row 0).symm
  stop := by
    rw [noteField?_row htable.rows hi (by decide) hrow]
    exact congrArg some (toNat_ofNat_field row 8).symm
  offset := ⟨_, _, noteField?_row htable.rows hi (by decide) hrow,
    noteField?_eq_some htable.numbers, rfl⟩
  path := ⟨path, hpath, rfl⟩

/-- Nothing else is told by them. -/
theorem IsRow.unique {m m' : Mapping} (hm : IsRow d i m) (hm' : IsRow d i m') : m = m' := by
  have hstart : m.start.word = m'.start.word :=
    UInt64.toNat_inj.mp (Option.some.inj (hm.start.symm.trans hm'.start))
  have hstop : m.stop.word = m'.stop.word :=
    UInt64.toNat_inj.mp (Option.some.inj (hm.stop.symm.trans hm'.stop))
  obtain ⟨pages, pageSize, hpages, hsize, hoffset⟩ := hm.offset
  obtain ⟨pages', pageSize', hpages', hsize', hoffset'⟩ := hm'.offset
  obtain ⟨piece, hpiece, hpath⟩ := hm.path
  obtain ⟨piece', hpiece', hpath'⟩ := hm'.path
  obtain rfl := Option.some.inj (hpages.symm.trans hpages')
  obtain rfl := Option.some.inj (hsize.symm.trans hsize')
  obtain rfl := Option.some.inj (hpiece.symm.trans hpiece')
  obtain ⟨⟨start⟩, ⟨stop⟩, offset, path⟩ := m
  obtain ⟨⟨start'⟩, ⟨stop'⟩, offset', path'⟩ := m'
  congr 1
  · exact congrArg Address.mk hstart
  · exact congrArg Address.mk hstop
  · exact hoffset.trans hoffset'.symm
  · exact hpath.trans hpath'.symm

/-- The mappings that the rows and the paths of a note tell of. -/
def mappingRows (d : List UInt8) : List Mapping :=
  (rowsOf d).zipWith (Mapping.ofRow (ByteOrder.little.field d 8 8)) ((pathBytes d).splitOn 0)

theorem forall₂_mappingRows (htable : IsFileTable d) :
    List.Forall₂ (IsRow d) (List.range (rowCount d)) (mappingRows d) := by
  have hrows : (rowsOf d).length = rowCount d := by
    rw [rowsOf_eq htable.rows, length_records]
  have hpaths : rowCount d ≤ ((pathBytes d).splitOn 0).length := by
    rw [length_splitOn]
    exact Nat.le_add_of_sub_le htable.paths
  have hlength : (mappingRows d).length = rowCount d := by
    rw [mappingRows, List.length_zipWith, hrows, Nat.min_eq_left hpaths]
  refine List.forall₂_iff_get.mpr ⟨by rw [List.length_range, hlength], fun i hi _ => ?_⟩
  rw [List.length_range] at hi
  simp only [List.get_eq_getElem, List.getElem_range, mappingRows, List.getElem_zipWith]
  exact isRow_ofRow htable hi (List.getElem?_eq_getElem (by omega))
    (List.getElem?_eq_getElem (by omega))

theorem mappings?_of_isFileTable (htable : IsFileTable d) :
    mappings? d = some (mappingRows d) := by
  have hpaths : (rowsOf d).length ≤ ((pathBytes d).splitOn 0).length := by
    rw [rowsOf_eq htable.rows, length_records, length_splitOn]
    exact Nat.le_add_of_sub_le htable.paths
  have hnumbers := htable.numbers
  rw [mappings?, noteField?_eq_some (by omega), noteField?_eq_some (by omega)]
  show (if d.length < 16 + 24 * rowCount d then none
    else mappingsOf _ (rowsOf d) (some (pathBytes d))) = _
  rw [if_neg (Nat.not_lt.mpr htable.rows), mappingsOf_eq, Option.elim_some, if_pos hpaths,
    mappingRows]

theorem isFileTable_of_mappings? {ms : List Mapping} (hms : mappings? d = some ms) :
    IsFileTable d := by
  obtain ⟨count, hcount, hms⟩ := Option.bind_eq_some_iff.mp hms
  obtain ⟨pageSize, hsize, hms⟩ := Option.bind_eq_some_iff.mp hms
  have hnumbers : 16 ≤ d.length := by
    by_contra hlt
    rw [noteField?_eq_none (by omega)] at hsize
    cases hsize
  rw [noteField?_eq_some (by omega)] at hcount
  obtain rfl := Option.some.inj hcount
  dsimp only at hms
  split at hms
  case isTrue => cases hms
  case isFalse hrows =>
    have hrows : 16 + 24 * rowCount d ≤ d.length := Nat.not_lt.mp hrows
    refine ⟨hnumbers, hrows, ?_⟩
    replace hms : mappingsOf pageSize (rowsOf d) (some (pathBytes d)) = some ms := hms
    rw [mappingsOf_eq, Option.elim_some] at hms
    split at hms
    case isTrue hpaths =>
      rw [rowsOf_eq hrows, length_records, length_splitOn] at hpaths
      exact Nat.sub_le_of_le_add hpaths
    case isFalse => cases hms

/-- **Which bytes are a table of mapped files, and of which files it tells.** -/
theorem mappings?_iff (d : List UInt8) :
    ((mappings? d).isSome = true ↔ IsFileTable d) ∧
      ∀ ms, mappings? d = some ms ↔
        IsFileTable d ∧ List.Forall₂ (IsRow d) (List.range (rowCount d)) ms := by
  refine ⟨⟨fun hsome => ?_, fun htable => ?_⟩, fun ms => ⟨fun hms => ?_, ?_⟩⟩
  · obtain ⟨ms, hms⟩ := Option.isSome_iff_exists.mp hsome
    exact isFileTable_of_mappings? hms
  · rw [mappings?_of_isFileTable htable]
    rfl
  · have htable := isFileTable_of_mappings? hms
    rw [mappings?_of_isFileTable htable] at hms
    obtain rfl := Option.some.inj hms
    exact ⟨htable, forall₂_mappingRows htable⟩
  · rintro ⟨htable, hms⟩
    have hunique : Relator.RightUnique (IsRow d) := fun _ _ _ => IsRow.unique
    rw [mappings?_of_isFileTable htable,
      hunique.forall₂ (forall₂_mappingRows htable) hms]

/-- Two paths need one zero, so the last of them may be cut short. -/
example : (mappings? ([2, 4096, 1, 2, 3, 4, 5, 6].flatMap (Word.toBytes 8) ++ [0x61, 0, 0x62])).map
    (List.map Mapping.path) = some ["a", "b"] := by decide +kernel

end Elf

end Postmortem
