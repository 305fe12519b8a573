/-
Postmortem/Proofs/Records.lean

Writing records.

A record is a list of fields, each a number and the bytes it takes, low byte first.
A reader asks for a number at an offset, and finds the field that starts there
(`Record.field_bytes_append`); which one that is, is computed (`Record.at?`).  A file
that is put together from parts has each part at the length of what is before it
(`slice?_append`), and a table of records of one size is cut into them again
(`recordsOf_flatMap`).
-/
import Mathlib.Algebra.GroupWithZero.Nat
import Postmortem.Elf.Data

namespace Postmortem

/-! ### Fields -/

/-- A number, and how many bytes it takes. -/
structure Record.Field where
  width : ℕ
  value : ℕ

/-- Fields that follow each other. -/
abbrev Record := List Record.Field

namespace Record

/-- The bytes of a record, the low byte of each field first. -/
def bytes (r : Record) : List UInt8 := r.flatMap fun f => Word.toBytes f.width f.value

/-- How many bytes a record takes. -/
def size (r : Record) : ℕ := (r.map Field.width).sum

/-- The field that starts at an offset. -/
def at? : Record → ℕ → Option Field
  | [], _ => none
  | f :: r, offset =>
    if offset = 0 then some f else if offset < f.width then none else at? r (offset - f.width)

variable {r : Record} {f : Field} {offset width value : ℕ} {rest : List UInt8}

@[simp] theorem bytes_cons (f : Field) (r : Record) :
    bytes (f :: r) = Word.toBytes f.width f.value ++ bytes r := rfl

theorem length_bytes (r : Record) : r.bytes.length = r.size := by
  induction r with
  | nil => rfl
  | cons f r ih => simp [size, Word.length_toBytes, ih]

theorem size_cons (f : Field) (r : Record) : size (f :: r) = f.width + size r := by
  simp [size]

theorem le_size_of_at? (hat : r.at? offset = some f) : offset + f.width ≤ r.size := by
  induction r generalizing offset with
  | nil => cases hat
  | cons g r ih =>
    rw [at?] at hat
    rw [size_cons]
    split at hat
    case isTrue hzero =>
      cases hat
      omega
    case isFalse hpos =>
      split at hat
      case isTrue => cases hat
      case isFalse hle =>
        have hrest := ih hat
        omega

/-- Behind a record, the fields are those of the next one. -/
theorem at?_append {s : Record} (hpos : ∀ f ∈ r, 0 < f.width) (hle : r.size ≤ offset) :
    (r ++ s).at? offset = s.at? (offset - r.size) := by
  induction r generalizing offset with
  | nil => rfl
  | cons f r ih =>
    have hwidth := hpos f List.mem_cons_self
    rw [size_cons] at hle
    rw [List.cons_append, at?, if_neg (by omega), if_neg (by omega),
      ih (fun g hg => hpos g (List.mem_cons_of_mem _ hg)) (by omega), size_cons, Nat.sub_add_eq]

/-- Fields of one width stand at its multiples. -/
theorem at?_map_range' {write : ℕ → ℕ} {start count i : ℕ} (hwidth : 0 < width) (hi : i < count) :
    at? ((List.range' start count).map fun n => ⟨width, write n⟩) (width * i) =
      some ⟨width, write (start + i)⟩ := by
  induction i generalizing start count with
  | zero =>
    rw [← Nat.sub_add_cancel (Nat.one_le_of_lt hi), List.range'_succ]
    rfl
  | succ i ih =>
    have hnext : width * (i + 1) = width * i + width := Nat.mul_succ width i
    rw [← Nat.sub_add_cancel (Nat.one_le_of_lt hi), List.range'_succ, List.map_cons, at?,
      if_neg (by omega), if_neg (by dsimp only; omega), hnext, Nat.add_sub_cancel, ih (by omega),
      Nat.add_assoc, Nat.add_comm 1 i]

/-- The number at the offset of a field is its value. -/
theorem field_bytes_append (hat : r.at? offset = some ⟨width, value⟩)
    (hvalue : value < 256 ^ width) :
    ByteOrder.little.field (r.bytes ++ rest) offset width = value := by
  induction r generalizing offset with
  | nil => cases hat
  | cons f r ih =>
    rw [at?] at hat
    split at hat
    case isTrue hzero =>
      cases hat
      show Word.ofBytes ((List.drop offset _).take width) = value
      rw [hzero, List.drop_zero, bytes_cons, List.append_assoc,
        List.take_left' (Word.length_toBytes ..), Word.ofBytes_toBytes]
      exact Nat.mod_eq_of_lt hvalue
    case isFalse hpos =>
      split at hat
      case isTrue => cases hat
      case isFalse hle =>
        have hrest := ih hat
        rw [ByteOrder.field] at hrest ⊢
        rw [bytes_cons, List.append_assoc, List.drop_append, Word.length_toBytes,
          List.drop_of_length_le (by rw [Word.length_toBytes]; omega), List.nil_append]
        exact hrest

theorem field?_bytes_append (hat : r.at? offset = some ⟨width, value⟩)
    (hvalue : value < 256 ^ width) :
    ByteOrder.little.field? (r.bytes ++ rest) offset width = some value := by
  have hle : offset + width ≤ r.size := le_size_of_at? hat
  rw [ByteOrder.field?, if_pos, field_bytes_append hat hvalue]
  rw [List.length_append, length_bytes]
  omega

theorem field_bytes (hat : r.at? offset = some ⟨width, value⟩) (hvalue : value < 256 ^ width) :
    ByteOrder.little.field r.bytes offset width = value := by
  rw [← List.append_nil r.bytes]
  exact field_bytes_append hat hvalue

theorem field?_bytes (hat : r.at? offset = some ⟨width, value⟩) (hvalue : value < 256 ^ width) :
    ByteOrder.little.field? r.bytes offset width = some value := by
  rw [← List.append_nil r.bytes]
  exact field?_bytes_append hat hvalue

end Record

/-! ### Parts -/

/-- A part of a file is where what is before it ends. -/
theorem slice?_append (before part after : List UInt8) :
    FileData.slice? (before ++ part ++ after).toArray before.length part.length = some part := by
  have hextract : ((before ++ part ++ after).toArray.extract before.length
      (before.length + part.length)).toList = part := by
    simp [List.extract_eq_take_drop]
  rw [FileData.slice?, if_pos, hextract]
  simp

section

variable {α : Type} {size : ℕ} {write : α → List UInt8} (hwrite : ∀ a, (write a).length = size)
include hwrite

theorem length_table (items : List α) : (items.flatMap write).length = items.length * size := by
  rw [List.length_flatMap]
  simp only [hwrite, List.map_const', List.sum_replicate_nat]

theorem recordsOf_flatMap (hsize : 0 < size) (items : List α) :
    recordsOf size (items.flatMap write) = items.map write := by
  rw [recordsOf, length_table hwrite, Nat.mul_div_cancel _ hsize]
  induction items with
  | nil => rfl
  | cons item items ih =>
    rw [List.length_cons, records, List.flatMap_cons, List.take_left' (hwrite item),
      List.drop_left' (hwrite item), ih, List.map_cons]

end

end Postmortem
