/-
Postmortem/Proofs/CoreMemory.lean

The memory of a core file, byte by byte.

A read takes the longest run that one segment and the request allow, and goes on
behind it.  What it means is simpler: a core file holds a byte at an address if a
segment captures the address and the file has the place that belongs to it
(`Core.Holds`).  Where no two segments capture the same address, a read gathers
what is held at each address of its range, whatever the runs are
(`read_eq_some_iff`).  A run is a part of the file (`slice?_eq_some_iff`) that
belongs, byte for byte, to addresses of one segment (`forall₂_holds_iff`).

So a read can be cut anywhere, and it does not matter which segment comes first.

Main result: `fetch_bytewise`.
-/
import Mathlib.Data.List.Forall2
import Mathlib.Data.List.Pairwise
import Mathlib.Tactic.IntervalCases
import Postmortem.Elf.Core
import Postmortem.Proofs.Collections

namespace Postmortem

/-! ### Parts of a file -/

theorem FileData.slice?_eq_some_iff {d : FileData} {start length : ℕ} {bytes : List UInt8}
    (hpos : 0 < length) :
    d.slice? start length = some bytes ↔
      List.Forall₂ (fun i b => d[i]? = some b) (List.range' start length) bytes := by
  have hpart (hle : start + length ≤ d.size) :
      List.Forall₂ (fun i b => d[i]? = some b) (List.range' start length)
        (d.extract start (start + length)).toList := by
    rw [List.forall₂_iff_get]
    refine ⟨by simp; omega, ?_⟩
    intro i hi hi'
    rw [List.length_range'] at hi
    simp only [List.get_eq_getElem, List.getElem_range', Nat.one_mul, Array.getElem_toList,
      Array.getElem_extract]
    exact Array.getElem?_eq_getElem (by omega)
  unfold slice?
  constructor
  · intro h
    split at h
    case isTrue hle =>
      cases h
      exact hpart hle
    case isFalse => cases h
  · intro hall
    -- The last byte is in the file, and so are all before it.
    have hlength := hall.length_eq
    rw [List.length_range'] at hlength
    have hlast := (List.forall₂_iff_get.mp hall).2 (length - 1)
      (by rw [List.length_range']; omega) (by omega)
    simp only [List.get_eq_getElem, List.getElem_range', Nat.one_mul] at hlast
    obtain ⟨hlt, -⟩ := Array.getElem?_eq_some_iff.mp hlast
    have hle : start + length ≤ d.size := by omega
    have hunique : Relator.RightUnique fun (i : ℕ) (b : UInt8) => d[i]? = some b := by
      intro i b b' hb hb'
      exact Option.some.inj (hb.symm.trans hb')
    rw [if_pos hle, List.right_unique_forall₂' hunique (hpart hle) hall]

/-! ### Captured bytes -/

/-- Whether no address is captured by both of two segments. -/
def Elf.Segment.Apart (s t : Segment) : Prop :=
  ∀ a, ¬ (s.captures a = true ∧ t.captures a = true)

namespace Core

open Elf

/-- A byte that a core file holds at an address. -/
def Holds (c : Core) (a : ℕ) (b : UInt8) : Prop :=
  ∃ s ∈ c.segments, s.captures a = true ∧ c.data[s.offset + (a - s.address)]? = some b

variable {c : Core} {s : Segment} {a cursor count length : ℕ} {b : UInt8} {bytes : List UInt8}

section

variable (hapart : c.segments.Pairwise Segment.Apart)
include hapart

/-- Only one segment captures an address. -/
theorem eq_of_captures {t : Segment} (hs : s ∈ c.segments) (ht : t ∈ c.segments)
    (hsa : s.captures a = true) (hta : t.captures a = true) : s = t := by
  by_contra hne
  have hsymm : Std.Symm Segment.Apart := ⟨fun _ _ h a' hboth => h a' hboth.symm⟩
  exact hapart.forall hs ht hne a ⟨hsa, hta⟩

theorem holds_iff (hs : s ∈ c.segments) (hsa : s.captures a = true) :
    c.Holds a b ↔ c.data[s.offset + (a - s.address)]? = some b := by
  constructor
  · rintro ⟨t, ht, hta, hb⟩
    rw [eq_of_captures hapart hs ht hsa hta]
    exact hb
  · intro hb
    exact ⟨s, hs, hsa, hb⟩

/-- What is held at the addresses of a run is a part of the file. -/
theorem forall₂_holds_iff (hs : s ∈ c.segments) (hcursor : s.captures cursor = true)
    (hcount : count ≤ s.fileSize - (cursor - s.address)) :
    List.Forall₂ c.Holds (List.range' cursor count) bytes ↔
      List.Forall₂ (fun i b => c.data[i]? = some b)
        (List.range' (s.offset + (cursor - s.address)) count) bytes := by
  have hle : s.address ≤ cursor := by
    simp only [Segment.captures, Bool.and_eq_true, decide_eq_true_eq] at hcursor
    exact hcursor.1
  have hplace : List.range' (s.offset + (cursor - s.address)) count =
      (List.range' cursor count).map fun a => s.offset + (a - s.address) := by
    apply List.ext_getElem
    · simp
    · intro i hi hi'
      simp only [List.getElem_map, List.getElem_range', Nat.one_mul]
      omega
  rw [hplace, List.forall₂_map_left_iff]
  apply forall₂_congr_left
  intro a ha b
  rw [List.mem_range'_1] at ha
  apply holds_iff hapart hs
  simp only [Segment.captures, Bool.and_eq_true, decide_eq_true_eq]
  omega

/-- A read gathers the bytes that are held at its addresses. -/
theorem read_eq_some_iff :
    c.read cursor length = some bytes ↔
      List.Forall₂ c.Holds (List.range' cursor length) bytes := by
  fun_induction c.read cursor length generalizing bytes with
  | case1 cursor => simp [eq_comm]
  | case2 cursor length hpos hnone =>
    -- The first address is not captured.
    have hrange : List.range' cursor length = cursor :: List.range' (cursor + 1) (length - 1) := by
      rw [← List.range'_succ, Nat.sub_add_cancel (Nat.pos_of_ne_zero hpos)]
    rw [hrange, List.forall₂_cons_left_iff]
    refine ⟨fun hread => absurd hread (Option.some_ne_none _).symm, ?_⟩
    rintro ⟨b, rest, ⟨s, hs, hsa, -⟩, -⟩
    exact absurd hsa (by simpa using List.find?_eq_none.mp hnone s hs)
  | case3 cursor length hpos s hfind start count =>
    rename_i ih
    have hs := List.mem_of_find?_eq_some hfind
    have hcursor : s.captures cursor = true := by simpa using List.find?_some hfind
    have hlt := Segment.lt_of_captures hcursor
    have hrange : List.range' cursor length =
        List.range' cursor count ++ List.range' (cursor + count) (length - count) := by
      rw [List.range'_append_1, Nat.add_sub_cancel' (Nat.min_le_right ..)]
    have hcount : 0 < count := by
      simp only [count, start]
      omega
    have hrun : ∀ xs, c.data.slice? (s.offset + start) count = some xs ↔
        List.Forall₂ c.Holds (List.range' cursor count) xs := by
      intro xs
      rw [FileData.slice?_eq_some_iff hcount,
        forall₂_holds_iff hapart hs hcursor (Nat.min_le_left ..)]
    rw [hrange, forall₂_append_left_iff]
    simp only [Option.bind_eq_bind, Option.bind_eq_some_iff, Option.pure_def, Option.some.injEq,
      hrun, ih]
    constructor
    · rintro ⟨xs, hxs, ys, hys, rfl⟩
      exact ⟨xs, ys, rfl, hxs, hys⟩
    · rintro ⟨xs, ys, rfl, hxs, hys⟩
      exact ⟨xs, hxs, ys, hys, rfl⟩

/-- A read can be cut anywhere. -/
theorem read_add (n k : ℕ) :
    c.read cursor (n + k) = (c.read cursor n).bind fun before =>
      (c.read (cursor + n) k).map (before ++ ·) := by
  apply Option.ext
  intro bytes
  simp only [Option.bind_eq_some_iff, Option.map_eq_some_iff, read_eq_some_iff hapart]
  rw [← List.range'_append_1, forall₂_append_left_iff]
  constructor
  · rintro ⟨xs, ys, rfl, hxs, hys⟩
    exact ⟨xs, hxs, ys, hys, rfl⟩
  · rintro ⟨xs, hxs, ys, hys, rfl⟩
    exact ⟨xs, ys, rfl, hxs, hys⟩

end

/-! ### Requests -/

/-- Where the segments are apart, a request for bytes is answered if and only if each of its
addresses is captured and the place that belongs to it is in the file; the answer is what stands
at these places; and it is the answers to two requests, one for what comes before an address and
one for the rest. -/
theorem fetch_bytewise {start : Address} (hapart : c.segments.Pairwise Segment.Apart)
    (hlength : length ≤ maxReadBytes) (hstart : start.word.toNat + length < UInt64.size) :
    ((∃ bytes, c.fetch start length = some bytes) ↔
      ∀ i < length, ∃ s ∈ c.segments, s.captures (start.word.toNat + i) = true ∧
        s.offset + (start.word.toNat + i - s.address) < c.data.size) ∧
    (∀ bytes, c.fetch start length = some bytes → bytes.length = length ∧
      ∀ i < length, ∀ s ∈ c.segments, s.captures (start.word.toNat + i) = true →
        bytes[i]? = c.data[s.offset + (start.word.toNat + i - s.address)]?) ∧
    ∀ n k, n + k = length →
      c.fetch start length = (c.fetch start n).bind fun before =>
        (c.fetch (start.add (.ofNat n)) k).map (before ++ ·) := by
  have hfetch {a : Address} {n : ℕ} (hn : n ≤ maxReadBytes) : c.fetch a n = c.read a.word.toNat n :=
    if_neg (Nat.not_lt.mpr hn)
  rw [hfetch hlength]
  refine ⟨?_, ?_, ?_⟩
  · simp only [read_eq_some_iff hapart]
    rw [exists_forall₂_iff]
    constructor
    · intro hall i hi
      obtain ⟨b, s, hs, hsa, hb⟩ := hall (start.word.toNat + i) (by rw [List.mem_range'_1]; omega)
      exact ⟨s, hs, hsa, (Array.getElem?_eq_some_iff.mp hb).1⟩
    · intro hall a ha
      rw [List.mem_range'_1] at ha
      obtain ⟨s, hs, hsa, hplace⟩ := hall (a - start.word.toNat) (by omega)
      rw [Nat.add_sub_cancel' ha.1] at hsa hplace
      exact ⟨_, s, hs, hsa, Array.getElem?_eq_getElem hplace⟩
  · intro bytes hbytes
    have hall := (read_eq_some_iff hapart).mp hbytes
    refine ⟨length_read c _ _ hbytes, ?_⟩
    intro i hi s hs hsa
    have hget := (List.forall₂_iff_get.mp hall).2 i (by rwa [List.length_range'])
      (by rwa [length_read c _ _ hbytes])
    simp only [List.get_eq_getElem, List.getElem_range', Nat.one_mul] at hget
    rw [(holds_iff hapart hs hsa).mp hget]
    exact List.getElem?_eq_getElem _
  · rintro n k rfl
    have hnext : (start.add (.ofNat n)).word.toNat = start.word.toNat + n := by
      have hn : n < UInt64.size := by omega
      rw [Address.add, UInt64.toNat_add, UInt64.toNat_ofNat_of_lt' hn, Nat.mod_eq_of_lt]
      exact (by omega : start.word.toNat + n < UInt64.size)
    rw [hfetch (by omega), hfetch (by omega), hnext, read_add hapart]

/-- Two segments that meet, the later one first in the table, and a file that ends inside it. -/
def meetingCore : Core where
  path := "core"
  architecture := .x86_64
  threads := []
  mappings := []
  data := #[1, 2, 3, 4, 5, 6, 7]
  segments := [⟨1, 4, 0x14, 4, 0x1000⟩, ⟨1, 0, 0x10, 4, 0x1000⟩]

theorem fetch_bytewise_meeting :
    meetingCore.segments.Pairwise Segment.Apart ∧ 5 ≤ maxReadBytes ∧ 0x12 + 5 < UInt64.size ∧
      meetingCore.fetch ⟨0x12⟩ 5 = some [3, 4, 5, 6, 7] ∧
      meetingCore.fetch ⟨0x12⟩ 5 = (meetingCore.fetch ⟨0x12⟩ 2).bind fun before =>
        (meetingCore.fetch ⟨0x14⟩ 3).map (before ++ ·) := by
  have hapart : meetingCore.segments.Pairwise Segment.Apart := by
    refine .cons ?_ (List.pairwise_singleton _ _)
    intro t ht a
    cases List.mem_singleton.mp ht
    simp only [Segment.captures, Bool.and_eq_true, decide_eq_true_eq]
    omega
  have hstart : (⟨0x12⟩ : Address).word.toNat + 5 < UInt64.size := by decide
  obtain ⟨hsucceeds, hbytes, hcut⟩ := fetch_bytewise hapart (show 5 ≤ maxReadBytes by decide) hstart
  refine ⟨hapart, by decide, by decide, ?_, hcut 2 3 rfl⟩
  obtain ⟨bytes, hfetch⟩ := hsucceeds.mpr (by decide)
  obtain ⟨hlength, hget⟩ := hbytes bytes hfetch
  rw [hfetch]
  congr 1
  apply List.ext_getElem?
  intro i
  by_cases hi : i < 5
  · interval_cases i
    · exact hget 0 (by decide) _ (.tail _ (.head _)) rfl
    · exact hget 1 (by decide) _ (.tail _ (.head _)) rfl
    · exact hget 2 (by decide) _ (.head _) rfl
    · exact hget 3 (by decide) _ (.head _) rfl
    · exact hget 4 (by decide) _ (.head _) rfl
  · rw [List.getElem?_eq_none (by omega), List.getElem?_eq_none (by simpa using hi)]

end Core

end Postmortem
