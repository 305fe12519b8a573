/-
Postmortem/Elf/Note.lean

Notes.

A note is a name, a type and a descriptor; name and descriptor are padded to
the alignment of the segment.  Notes follow each other to the end of the
segment, and the padding of the last one may be missing.
-/
import Postmortem.Elf.Header

namespace Postmortem.Elf

structure Note where
  /-- The name without the zeros at its end. -/
  name : List UInt8
  type : Nat
  descriptor : List UInt8

/-- The least multiple of `align` that is not less than `n`. -/
def padded (align n : Nat) : Nat := (n + (align - 1)) / align * align

/-- Takes the zeros off the end of `bytes`. -/
def withoutZeros (bytes : List UInt8) : List UInt8 :=
  (bytes.reverse.dropWhile (· == 0)).reverse

/-- The alignment of notes in a segment. -/
def noteAlignment (align : Nat) : Except ElfFault { n : Nat // 0 < n } :=
  if align ≤ 4 then .ok ⟨4, by decide⟩
  else if align = 8 then .ok ⟨8, by decide⟩
  else .error .noteAlignment

/-- The first note, and where the next one starts. -/
def Note.first (order : ByteOrder) (align : Nat) (bytes : List UInt8) :
    Except ElfFault (Note × Nat) :=
  if bytes.length < 12 then .error .noteHeader
  else
    let nameSize := order.field bytes 0 4
    let size := order.field bytes 4 4
    if bytes.length < 12 + nameSize then .error .noteName
    else
      let start := padded align (12 + nameSize)
      if bytes.length < start + size then .error .noteDescriptor
      else
        .ok (⟨withoutZeros ((bytes.drop 12).take nameSize), order.field bytes 8 4,
          (bytes.drop start).take size⟩, padded align (start + size))

theorem Note.first_pos {order : ByteOrder} {align : Nat} {bytes : List UInt8} {n : Note}
    {next : Nat} (ha : 0 < align) (h : Note.first order align bytes = .ok (n, next)) :
    0 < next := by
  have le_padded : ∀ m, m ≤ padded align m := by
    intro m
    have := Nat.div_add_mod (m + (align - 1)) align
    have := Nat.mod_lt (m + (align - 1)) ha
    have := Nat.mul_comm align ((m + (align - 1)) / align)
    unfold padded
    omega
  unfold Note.first at h
  simp only at h
  split at h
  · cases h
  · split at h
    · cases h
    · split at h
      · cases h
      · simp only [Except.ok.injEq, Prod.mk.injEq] at h
        have := le_padded (padded align (12 + order.field bytes 0 4) + order.field bytes 4 4)
        have := le_padded (12 + order.field bytes 0 4)
        omega

/-- The notes of a segment, up to the first fault. -/
def notes (order : ByteOrder) (align : Nat) (ha : 0 < align) (bytes : List UInt8) :
    List (Except ElfFault Note) :=
  if _hb : bytes = [] then []
  else
    match _h : Note.first order align bytes with
    | .error e => [.error e]
    | .ok (n, next) => .ok n :: notes order align ha (bytes.drop next)
termination_by bytes.length
decreasing_by
  have := Note.first_pos ha _h
  have := List.length_pos_iff.2 _hb
  simp only [List.length_drop]
  omega

end Postmortem.Elf
