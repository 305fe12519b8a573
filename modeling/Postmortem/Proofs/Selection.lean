/-
Postmortem/Proofs/Selection.lean

Listing a window, and listing everything.

Asking for the properties of a window is a different computation from asking for all
of them.  A window over descriptors starts at its own number.  A window over a
dictionary counts the live entries that it passes over, reads the values of the wanted
ones only, and stops behind the last of them.  But wherever everything can be listed,
a window lists its slice of that, however the dead entries lie.

A dictionary that can be listed has a list of live entries, which are what is counted,
none of them under the key of a dead one (`exists_live_of_entries`); the full listing
reads each of them, and a window reads a slice.  The properties of an object are read
by position either way, or not at all (`yields_properties_some`).

Main result: `windows_select`.
-/
import Postmortem.Proofs.Paging

namespace Postmortem

open HeapM

/-! ### Slices -/

namespace Window

variable {α β : Type} {R : α → β → Prop} {w : Window} {as : List α} {bs : List β}

/-- The items at the positions of a window, as far as there are any. -/
def select (w : Window) (items : List α) : List α :=
  items.extract w.start (min w.stop items.length)

theorem select_eq_take_drop (w : Window) (items : List α) :
    w.select items = (items.drop w.start).take w.length := by
  rw [select, List.extract_eq_take_drop, length, List.take_eq_take_iff, List.length_drop]
  omega

theorem forall₂_select (hall : List.Forall₂ R as bs) :
    List.Forall₂ R ((as.drop w.start).take w.length) (w.select bs) := by
  rw [select_eq_take_drop]
  exact List.forall₂_take _ (List.forall₂_drop _ hall)

end Window

/-! ### Dictionaries -/

namespace NameDictionary

variable {h : Heap} {dictionary : Address} {all : List (Value × Value)}

/-- Who lists all entries has read the key of each. -/
theorem exists_keys_of_entriesFrom {left entry live : ℕ}
    (hall : (entriesFrom dictionary none left entry live).Yields h all) :
    ∃ keys, List.Forall₂ (fun i key => (liveKey? dictionary i).Yields h key)
      (List.range' entry left) keys := by
  induction left generalizing entry live all with
  | zero => exact ⟨[], .nil⟩
  | succ left ih =>
    obtain ⟨key, hkey, hall⟩ := yields_bind.mp hall
    cases key with
    | none =>
      obtain ⟨keys, hkeys⟩ := ih hall
      exact ⟨none :: keys, .cons hkey hkeys⟩
    | some key =>
      -- Without a window the entry is wanted, and never the last.
      dsimp only at hall
      rw [if_pos (show isWanted none live = true from rfl)] at hall
      obtain ⟨value, -, hall⟩ := yields_bind.mp hall
      obtain ⟨found, -, hall⟩ := yields_bind.mp hall
      rw [if_neg (show ¬ isLast none live = true from nofun)] at hall
      obtain ⟨rest, hrest, -⟩ := yields_bind.mp hall
      obtain ⟨keys, hkeys⟩ := ih hrest
      exact ⟨some key :: keys, .cons hkey hkeys⟩

/-- A live entry is one whose key was read. -/
theorem yields_of_mem_liveAmong {entry left : ℕ} {keys : List (Option Value)} {live : ℕ × Value}
    (hkeys : List.Forall₂ (fun i key => (liveKey? dictionary i).Yields h key)
      (List.range' entry left) keys)
    (hlive : live ∈ liveAmong entry keys) :
    (liveKey? dictionary live.1).Yields h (some live.2) := by
  induction left generalizing entry keys with
  | zero =>
    cases hkeys
    cases hlive
  | succ left ih =>
    rw [List.range'_succ] at hkeys
    obtain ⟨key, keys, hkey, hrest, rfl⟩ := List.forall₂_cons_left_iff.mp hkeys
    cases key with
    | none => exact ih hrest hlive
    | some key =>
      rcases List.mem_cons.mp hlive with rfl | hlive
      · exact hkey
      · exact ih hrest hlive

theorem isHoleOrUndefined_of_liveKey? {entry : ℕ} {key : Value}
    (hkey : (liveKey? dictionary entry).Yields h (some key)) :
    (isHoleOrUndefined key).Yields h false := by
  obtain ⟨found, -, hkey⟩ := yields_bind.mp hkey
  obtain ⟨isDead, hdead, hkey⟩ := yields_bind.mp hkey
  cases isDead with
  | true => cases yields_pure.mp hkey
  | false =>
    cases yields_pure.mp hkey
    exact hdead

/-- The full listing of a dictionary reads all its live entries, and a window those it covers. -/
theorem exists_live_of_entries (hall : (entries dictionary none).Yields h all) :
    ∃ live, (liveCount dictionary).Yields h live.length ∧
      (∀ entry ∈ live, (isHoleOrUndefined entry.2).Yields h false) ∧
      List.Forall₂ (fun entry found => (readEntry dictionary entry).Yields h found) live all ∧
      ∀ w found, (entries dictionary (some w)).Yields h found ↔
        List.Forall₂ (fun entry found => (readEntry dictionary entry).Yields h found)
          ((live.drop w.start).take w.length) found := by
  obtain ⟨capacity, hcapacity, hall⟩ := yields_bind.mp hall
  obtain ⟨keys, hkeys⟩ := exists_keys_of_entriesFrom hall
  refine ⟨liveAmong 0 keys, ?_, ?_, ?_, ?_⟩
  · rw [length_liveAmong]
    exact hcapacity.bind ((yields_forRange.mpr hkeys).bind (yields_pure.mpr rfl))
  · intro entry hentry
    exact isHoleOrUndefined_of_liveKey? (yields_of_mem_liveAmong hkeys hentry)
  · rw [yields_entriesFrom hkeys] at hall
    exact yields_mapM.mp hall
  · intro w found
    rw [entries, hcapacity.bind_iff, yields_entriesFrom hkeys, wanted_some, yields_mapM]

end NameDictionary

/-! ### Objects -/

namespace JsObject

variable {h : Heap} {object : Address} {all : List (Value × PropertySlot)} {w : Window}

/-- A window lists its slice of all properties. -/
theorem yields_properties_some (hall : (properties object none).Yields h all)
    (hcount : (propertiesLength object).Yields h w.total) :
    (properties object (some w)).Yields h (w.select all) := by
  by_cases hlacks : LacksDescriptors h object
  · obtain ⟨hready, rfl⟩ := (yields_properties_lacking hlacks).mp hall
    exact (yields_properties_lacking hlacks).mpr ⟨hready, by simp [Window.select]⟩
  · obtain ⟨ready, IsRead, hreads⟩ := exists_readsProperties hcount hlacks
    obtain ⟨hready, hread⟩ := hreads.yields_all.mp hall
    rw [hreads.yields_window w.stop_le_total]
    refine ⟨hready, ?_⟩
    have hrange : ((List.range' 0 w.total).drop w.start).take w.length =
        List.range' w.start w.length := by
      have hstart := w.start_le_stop
      have hstop := w.stop_le_total
      have hle : w.length ≤ w.total - w.start := by
        unfold Window.length
        omega
      rw [List.drop_range', List.take_range'_of_length_ge hle, Nat.zero_add, Nat.mul_one]
    rw [← hrange]
    exact Window.forall₂_select hread

end JsObject

/-- Where all properties of an object can be listed, a window over as many as are counted lists its
slice of them.  Where all entries of a dictionary can be listed, they are as many as are counted as
live, none has the key of a dead one, and any window lists its slice of them. -/
theorem windows_select (h : Heap) :
    (∀ object all w, (JsObject.properties object none).Yields h all →
      (JsObject.propertiesLength object).Yields h w.total →
      (JsObject.properties object (some w)).Yields h
        (all.extract w.start (min w.stop all.length))) ∧
    ∀ dictionary all, (NameDictionary.entries dictionary none).Yields h all →
      (NameDictionary.liveCount dictionary).Yields h all.length ∧
      (∀ entry ∈ all, (isHoleOrUndefined entry.1).Yields h false) ∧
      ∀ w, (NameDictionary.entries dictionary (some w)).Yields h
        (all.extract w.start (min w.stop all.length)) := by
  constructor
  · intro object all w hall hcount
    exact JsObject.yields_properties_some hall hcount
  · intro dictionary all hall
    obtain ⟨live, hcount, hkeys, hread, hwindow⟩ := NameDictionary.exists_live_of_entries hall
    refine ⟨hread.length_eq ▸ hcount, ?_, ?_⟩
    · intro entry hentry
      obtain ⟨i, hi, rfl⟩ := List.getElem_of_mem hentry
      have hi' : i < live.length := by rwa [hread.length_eq]
      have hfound := (List.forall₂_iff_get.mp hread).2 i hi' hi
      obtain ⟨value, -, hfound⟩ := yields_bind.mp hfound
      have hkey : live[i].2 = all[i].1 := congrArg Prod.fst (yields_pure.mp hfound)
      rw [← hkey]
      exact hkeys _ (List.getElem_mem hi')
    · intro w
      rw [hwindow]
      exact Window.forall₂_select hread

open Inspection in
/-- A dictionary of three entries of which the second is dead, and an object that keeps its
properties there. -/
theorem windows_select_deadEntry :
    (∃ all, (JsObject.properties ⟨0x6001⟩ none).Yields pagedHeap all ∧
      (JsObject.propertiesLength ⟨0x6001⟩).Yields pagedHeap 2 ∧
      (JsObject.properties ⟨0x6001⟩ (some (.of 1 1 2))).Yields pagedHeap
        (all.extract 1 (min 2 all.length))) ∧
    ∃ all, (NameDictionary.entries ⟨0x4001⟩ none).Yields pagedHeap all ∧
      all = [(.smi 0x500000000 5, .smi 0x100000000 1), (.heap ⟨0x5001⟩, .heap ⟨0x5001⟩)] ∧
      (NameDictionary.liveCount ⟨0x4001⟩).Yields pagedHeap 2 ∧
      (isHoleOrUndefined (.heap ⟨0x5001⟩)).Yields pagedHeap false ∧
      (NameDictionary.entries ⟨0x4001⟩ (some (.of 1 5 9))).Yields pagedHeap
        [(.heap ⟨0x5001⟩, .heap ⟨0x5001⟩)] := by
  constructor
  · have hsome : (JsObject.properties ⟨0x6001⟩ none pagedHeap).result.toOption.isSome = true := by
      decide +kernel
    have hcount : (JsObject.propertiesLength ⟨0x6001⟩).Yields pagedHeap 2 := by decide +kernel
    obtain ⟨all, hall⟩ := Option.isSome_iff_exists.mp hsome
    have hyields := yields_iff_toOption.mpr hall
    exact ⟨all, hyields, hcount, (windows_select pagedHeap).1 _ all (.of 1 1 2) hyields hcount⟩
  · have hall : (NameDictionary.entries ⟨0x4001⟩ none).Yields pagedHeap
        [(.smi 0x500000000 5, .smi 0x100000000 1), (.heap ⟨0x5001⟩, .heap ⟨0x5001⟩)] := by
      decide +kernel
    obtain ⟨hcount, hkeys, hwindow⟩ := (windows_select pagedHeap).2 _ _ hall
    exact ⟨_, hall, rfl, hcount,
      hkeys (.heap ⟨0x5001⟩, .heap ⟨0x5001⟩) (.tail _ (.head _)), hwindow (.of 1 5 9)⟩

end Postmortem
