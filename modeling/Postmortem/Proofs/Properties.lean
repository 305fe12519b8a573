/-
Postmortem/Proofs/Properties.lean

The properties of an object, by position.

Descriptors are read by their number.  The entries of a dictionary are not: dead
ones are passed over, so the position of a property is its place among the live
ones, and a window over positions is a slice of these (`yields_entries`).

Either way there is one reading for each position, and asking for a window is
asking for these readings one after the other (`exists_readsProperties`).  There
is one exception.  A map that tells of descriptors but has no array of them
(`LacksDescriptors`) counts properties of which none can be read.
-/
import Postmortem.Heap.Object
import Postmortem.Proofs.Collections
import Postmortem.Proofs.Yield

namespace Postmortem

open HeapM

namespace NameDictionary

variable {h : Heap} {dictionary : Address} {window : Option Window} {α : Type}

/-! ### Live entries -/

/-- The live ones among entries from `entry` on, by number and key. -/
def liveAmong : ℕ → List (Option Value) → List (ℕ × Value)
  | _, [] => []
  | entry, none :: keys => liveAmong (entry + 1) keys
  | entry, some key :: keys => (entry, key) :: liveAmong (entry + 1) keys

theorem length_liveAmong (entry : ℕ) (keys : List (Option Value)) :
    (liveAmong entry keys).length = keys.countP (·.isSome) := by
  induction keys generalizing entry with
  | nil => rfl
  | cons key keys ih => cases key <;> simp [liveAmong, ih]

/-- Reads a live entry, of which the number and the key are known. -/
def readEntry (dictionary : Address) (live : ℕ × Value) : HeapM (Value × Value) := do
  pure (live.2, ← value dictionary live.1)

/-- The items at the positions of a window, where the first item is at `position`. -/
def wanted (window : Option Window) (position : ℕ) (items : List α) : List α :=
  match window with
  | none => items
  | some w => (items.drop (w.start - position)).take (w.stop - max w.start position)

theorem wanted_nil (position : ℕ) : wanted window position ([] : List α) = [] := by
  cases window <;> simp [wanted]

theorem wanted_cons (position : ℕ) (item : α) (items : List α) :
    wanted window position (item :: items) =
      (if isWanted window position then [item] else []) ++
        if isLast window position then [] else wanted window (position + 1) items := by
  rcases window with - | w
  · rfl
  simp only [wanted, isWanted, isLast, Option.all_some, Option.any_some, Bool.and_eq_true,
    decide_eq_true_eq]
  by_cases hstart : w.start ≤ position
  · have hdrop : w.start - position = 0 := by omega
    have hdrop' : w.start - (position + 1) = 0 := by omega
    rw [hdrop, hdrop', List.drop_zero, List.drop_zero, Nat.max_eq_right hstart,
      Nat.max_eq_right (by omega)]
    by_cases hstop : position < w.stop
    · -- The item is wanted, and what is wanted behind it comes next.
      have htake : w.stop - position = (w.stop - (position + 1)) + 1 := by omega
      rw [if_pos ⟨hstart, hstop⟩, htake, List.take_succ_cons]
      split
      · have hzero : w.stop - (position + 1) = 0 := by omega
        rw [hzero, List.take_zero]
        rfl
      · rfl
    · have hzero : w.stop - position = 0 := by omega
      rw [if_neg (by omega), if_pos (by omega), hzero]
      rfl
  · -- The window starts further behind.
    have hdrop : w.start - position = (w.start - (position + 1)) + 1 := by omega
    rw [if_neg (by omega), List.nil_append, hdrop, List.drop_succ_cons,
      Nat.max_eq_left (by omega), Nat.max_eq_left (by omega)]
    split
    · have hzero : w.stop - w.start = 0 := by omega
      rw [hzero, List.take_zero]
    · rfl

/-- From some position on: what is found are the wanted ones among the live entries. -/
theorem yields_entriesFrom {left entry position : ℕ} {keys : List (Option Value)}
    {found : List (Value × Value)}
    (hkeys : List.Forall₂ (fun i key => (liveKey? dictionary i).Yields h key)
      (List.range' entry left) keys) :
    (entriesFrom dictionary window left entry position).Yields h found ↔
      ((wanted window position (liveAmong entry keys)).mapM (readEntry dictionary)).Yields h
        found := by
  induction left generalizing entry position keys found with
  | zero =>
    cases hkeys
    rw [liveAmong, wanted_nil]
    rfl
  | succ left ih =>
    rw [List.range'_succ] at hkeys
    obtain ⟨key, keys, hkey, hrest, rfl⟩ := List.forall₂_cons_left_iff.mp hkeys
    rw [entriesFrom, hkey.bind_iff]
    cases key with
    | none => exact ih hrest
    | some key =>
      rw [liveAmong, wanted_cons, List.mapM_append]
      -- The value is read if the position is wanted, and it goes on unless it is the last.
      cases isWanted window position <;> cases isLast window position <;>
        simp [readEntry, yields_bind, yields_map, ih hrest]

/-- The live entries are counted, and those at the positions of a window are listed. -/
theorem yields_entries {n : ℕ} (hcount : (liveCount dictionary).Yields h n) :
    ∃ live : List (ℕ × Value), live.length = n ∧ ∀ window found,
      (entries dictionary window).Yields h found ↔
        ((wanted window 0 live).mapM (readEntry dictionary)).Yields h found := by
  obtain ⟨capacity, hcapacity, hcount⟩ := yields_bind.mp hcount
  obtain ⟨keys, hkeys, hcount⟩ := yields_bind.mp hcount
  refine ⟨liveAmong 0 keys, (length_liveAmong 0 keys).trans (yields_pure.mp hcount), ?_⟩
  intro window found
  rw [entries, hcapacity.bind_iff, yields_entriesFrom (yields_forRange.mp hkeys)]

theorem wanted_some (w : Window) (items : List α) :
    wanted (some w) 0 items = (items.drop w.start).take w.length := by
  simp [wanted, Window.length]

end NameDictionary

namespace JsObject

variable {h : Heap} {object map : Address} {n : ℕ} {window : Option Window}
  {entries : List (Value × PropertySlot)}

/-- The map of an object tells of descriptors, but has no array of them. -/
def LacksDescriptors (h : Heap) (object : Address) : Prop :=
  ∃ map, (Map.of object).Yields h map ∧ (Map.isDictionary map).Yields h false ∧
    (Map.descriptors map).Yields h none

/-- There is a reading for each of `n` positions. If the object is ready to be read, asking for a
window is asking for the readings at its positions, and without a window all are asked for. -/
structure ReadsProperties (h : Heap) (object : Address) (n : ℕ) (ready : Prop)
    (IsProperty : ℕ → Value × PropertySlot → Prop) : Prop where
  yields_window : ∀ {w : Window} {entries}, w.stop ≤ n →
    ((properties object (some w)).Yields h entries ↔
      ready ∧ List.Forall₂ IsProperty (List.range' w.start w.length) entries)
  yields_all : ∀ {entries}, (properties object none).Yields h entries ↔
    ready ∧ List.Forall₂ IsProperty (List.range' 0 n) entries

/-! ### Dictionaries -/

/-- A property as a dictionary holds it. -/
def ofEntry (entry : Value × Value) : Value × PropertySlot := (entry.1, .value entry.2)

theorem yields_properties_dictionary {dictionary : Address} (hmap : (Map.of object).Yields h map)
    (hmode : (Map.isDictionary map).Yields h true)
    (hdictionary : (JsObject.dictionary object).Yields h dictionary) :
    (properties object window).Yields h entries ↔
      (Map.checkInObjectRegion map).Yields h () ∧
        ∃ found, (NameDictionary.entries dictionary window).Yields h found ∧
          found.map ofEntry = entries := by
  rw [properties, hmap.bind_iff]
  constructor
  · intro hy
    obtain ⟨⟨⟩, hcheck, hy⟩ := yields_bind.mp hy
    rw [hmode.bind_iff, if_pos rfl, hdictionary.bind_iff] at hy
    obtain ⟨found, hfound, hy⟩ := yields_bind.mp hy
    exact ⟨hcheck, found, hfound, yields_pure.mp hy⟩
  · rintro ⟨hcheck, found, hfound, rfl⟩
    rw [hcheck.bind_iff, hmode.bind_iff, if_pos rfl, hdictionary.bind_iff]
    exact hfound.bind (yields_pure.mpr rfl)

theorem exists_readsProperties_dictionary {dictionary : Address}
    (hmap : (Map.of object).Yields h map) (hmode : (Map.isDictionary map).Yields h true)
    (hdictionary : (JsObject.dictionary object).Yields h dictionary)
    (hcount : (NameDictionary.liveCount dictionary).Yields h n) :
    ∃ ready IsProperty, ReadsProperties h object n ready IsProperty := by
  obtain ⟨live, rfl, hentries⟩ := NameDictionary.yields_entries hcount
  let IsRead (l : ℕ × Value) (property : Value × PropertySlot) : Prop :=
    ∃ found, (NameDictionary.readEntry dictionary l).Yields h found ∧ ofEntry found = property
  have hyields (window : Option Window) (entries : List (Value × PropertySlot)) :
      (properties object window).Yields h entries ↔ (Map.checkInObjectRegion map).Yields h () ∧
        List.Forall₂ IsRead (NameDictionary.wanted window 0 live) entries := by
    rw [yields_properties_dictionary hmap hmode hdictionary, forall₂_exists_iff]
    simp only [hentries, yields_mapM, forall₂_image_iff]
  refine ⟨(Map.checkInObjectRegion map).Yields h (),
    fun i property => ∃ l, live[i]? = some l ∧ IsRead l property, fun {w _} hstop => ?_, ?_⟩
  · have hlength : w.start + w.length ≤ live.length := by
      have hle := w.start_le_stop
      rw [Window.length]
      omega
    rw [hyields, NameDictionary.wanted_some, forall₂_range'_iff hlength]
  · intro entries
    rw [hyields, forall₂_range'_iff (by omega), List.drop_zero, List.take_length]
    rfl

/-! ### Descriptors -/

/-- Reads the property that descriptor `index` tells of, and all that is needed for it. -/
def readDescribed (object map descriptors : Address) (index : ℕ) :
    HeapM (Value × PropertySlot) := do
  let inObject ← Map.inObjectProperties map
  let size ← Map.instanceSize map
  let outside ← properties? object
  describedProperty object descriptors inObject size outside index

/-- The descriptors that a window asks for. -/
def wantedDescriptors (n : ℕ) : Option Window → List ℕ
  | none => List.range' 0 n
  | some w => List.range' w.start w.length

theorem yields_properties_described {descriptors : Address}
    (hmap : (Map.of object).Yields h map) (hmode : (Map.isDictionary map).Yields h false)
    (hdescriptors : (Map.descriptors map).Yields h (some descriptors))
    (hown : (Map.ownDescriptors map).Yields h n) :
    (properties object window).Yields h entries ↔
      ((Map.checkInObjectRegion map).Yields h () ∧
        (∃ inObject, (Map.inObjectProperties map).Yields h inObject) ∧
        (∃ size, (Map.instanceSize map).Yields h size) ∧
        ∃ outside, (properties? object).Yields h outside) ∧
      List.Forall₂ (fun i property => (readDescribed object map descriptors i).Yields h property)
        (wantedDescriptors n window) entries := by
  rw [properties, hmap.bind_iff]
  -- Once all that is needed is read, a property is read as its descriptor tells.
  have hread {inObject size : Int} {outside : Option Address}
      (hinObject : (Map.inObjectProperties map).Yields h inObject)
      (hsize : (Map.instanceSize map).Yields h size)
      (houtside : (properties? object).Yields h outside) :
      (match window with
        | none => forRange 0 (describedProperty object descriptors inObject size outside) n
        | some w => forRange w.start (describedProperty object descriptors inObject size outside)
            w.length).Yields h entries ↔
      List.Forall₂ (fun i property => (readDescribed object map descriptors i).Yields h property)
        (wantedDescriptors n window) entries := by
    simp only [readDescribed, hinObject.bind_iff, hsize.bind_iff, houtside.bind_iff]
    cases window <;> exact yields_forRange
  constructor
  · intro hy
    obtain ⟨⟨⟩, hcheck, hy⟩ := yields_bind.mp hy
    rw [hmode.bind_iff, if_neg (by decide), hdescriptors.bind_iff] at hy
    dsimp only at hy
    rw [hown.bind_iff] at hy
    obtain ⟨inObject, hinObject, hy⟩ := yields_bind.mp hy
    obtain ⟨size, hsize, hy⟩ := yields_bind.mp hy
    obtain ⟨outside, houtside, hy⟩ := yields_bind.mp hy
    exact ⟨⟨hcheck, ⟨_, hinObject⟩, ⟨_, hsize⟩, ⟨_, houtside⟩⟩,
      (hread hinObject hsize houtside).mp hy⟩
  · rintro ⟨⟨hcheck, ⟨inObject, hinObject⟩, ⟨size, hsize⟩, outside, houtside⟩, hall⟩
    rw [hcheck.bind_iff, hmode.bind_iff, if_neg (by decide), hdescriptors.bind_iff]
    dsimp only
    rw [hown.bind_iff, hinObject.bind_iff, hsize.bind_iff, houtside.bind_iff]
    exact (hread hinObject hsize houtside).mpr hall

/-- Where descriptors are lacking no property is read. -/
theorem yields_properties_lacking (hlacks : LacksDescriptors h object) :
    (properties object window).Yields h entries ↔
      (∃ map, (Map.of object).Yields h map ∧ (Map.checkInObjectRegion map).Yields h ()) ∧
        entries = [] := by
  obtain ⟨map, hmap, hmode, hnone⟩ := hlacks
  rw [properties, hmap.bind_iff]
  constructor
  · intro hy
    obtain ⟨⟨⟩, hcheck, hy⟩ := yields_bind.mp hy
    rw [hmode.bind_iff, if_neg (by decide), hnone.bind_iff] at hy
    exact ⟨⟨map, hmap, hcheck⟩, (yields_pure.mp hy).symm⟩
  · rintro ⟨⟨map', hmap', hcheck⟩, rfl⟩
    cases hmap.unique hmap'
    rw [hcheck.bind_iff, hmode.bind_iff, if_neg (by decide), hnone.bind_iff]
    exact yields_pure.mpr rfl

/-! ### Either way -/

/-- Unless an object lacks descriptors, there is a reading for each property that is counted. -/
theorem exists_readsProperties (hcount : (propertiesLength object).Yields h n)
    (hstore : ¬ LacksDescriptors h object) :
    ∃ ready IsProperty, ReadsProperties h object n ready IsProperty := by
  obtain ⟨map, hmap, hcount⟩ := yields_bind.mp hcount
  obtain ⟨isDictionary, hmode, hcount⟩ := yields_bind.mp hcount
  cases isDictionary with
  | true =>
    obtain ⟨dictionary, hdictionary, hcount⟩ := yields_bind.mp hcount
    exact exists_readsProperties_dictionary hmap hmode hdictionary hcount
  | false =>
    by_cases hdescriptors : ∃ descriptors, (Map.descriptors map).Yields h (some descriptors)
    · obtain ⟨descriptors, hdescriptors⟩ := hdescriptors
      exact ⟨_, _, fun _ => yields_properties_described hmap hmode hdescriptors hcount,
        yields_properties_described hmap hmode hdescriptors hcount⟩
    · -- Where the slot for the descriptors cannot be read, no property can.
      have hnone (window : Option Window) (entries : List (Value × PropertySlot)) :
          ¬ (properties object window).Yields h entries := by
        intro hy
        rw [properties, hmap.bind_iff] at hy
        obtain ⟨⟨⟩, -, hy⟩ := yields_bind.mp hy
        rw [hmode.bind_iff, if_neg (by decide)] at hy
        obtain ⟨found, hfound, -⟩ := yields_bind.mp hy
        cases found with
        | none => exact hstore ⟨map, hmap, hmode, hfound⟩
        | some descriptors => exact hdescriptors ⟨descriptors, hfound⟩
      exact ⟨False, fun _ _ => False, fun _ => by simp [hnone], by simp [hnone]⟩

end JsObject

end Postmortem
