/-
Postmortem/Proofs/Absences.lean

What a layout knows of its constants, and what it says is missing.

A build is asked for the names of a constant one after the other, and the first that
resolves tells the value, and how a field is stored (`Exports.Tells`).  Where none
does, a number may stand in: a default, or the slot behind another field
(`Layout.StandsIn`).  Where nothing stands in either, the constant is unavailable, and
that it is gets recorded.  There is no fourth way (`Layout.Accounts`), and the record
has no names but those of constants that were looked for in vain.

Of the two constants that tell where in-object properties are, the second is not
looked for if the first is known; it is then no part of the layout.

Main result: `Layout.load_accounts`.
-/
import Mathlib.Data.Int.Notation
import Mathlib.Data.List.TakeWhile
import Mathlib.Tactic.FinCases
import Postmortem.Layout

namespace Postmortem

/-! ### Names -/

/-- No two constants are known by the same name. -/
theorem Constant.nodup_names : (all.map name).Nodup := by
  decide +kernel

namespace Exports

variable {x y : Exports} {c : Constant} {s : Spelling} {stored : Option Storage} {value : ℤ}

/-- No name of the constant resolves. -/
def Lacks (x : Exports) (c : Constant) : Prop :=
  ∀ s ∈ c.spellings, x.resolve (exportedName s.name) = none

/-- The first name of the constant that resolves is `s`, and its value is `value`. -/
def Tells (x : Exports) (c : Constant) (s : Spelling) (value : ℤ) : Prop :=
  ∃ earlier later, c.spellings = earlier ++ s :: later ∧
    (∀ t ∈ earlier, x.resolve (exportedName t.name) = none) ∧
    x.resolve (exportedName s.name) = some value

/-- Both builds say the same of all names that constants have. -/
def AgreeOnNames (x y : Exports) : Prop :=
  ∀ c : Constant, ∀ s ∈ c.spellings,
    x.resolve (exportedName s.name) = y.resolve (exportedName s.name)

theorem find?_eq_none_iff : x.find? c = none ↔ x.Lacks c := by
  rw [find?, List.findSome?_eq_none_iff]
  exact forall₂_congr fun s _ => Option.map_eq_none_iff

theorem find?_eq_some_iff :
    x.find? c = some (value, stored) ↔ ∃ s, x.Tells c s value ∧ s.storage = stored := by
  rw [find?, List.findSome?_eq_some_iff]
  simp only [Option.map_eq_some_iff, Option.map_eq_none_iff, Prod.mk.injEq]
  constructor
  · rintro ⟨earlier, s, later, hsplit, ⟨_, hresolves, rfl, hstored⟩, hearlier⟩
    exact ⟨s, ⟨earlier, later, hsplit, hearlier, hresolves⟩, hstored⟩
  · rintro ⟨s, ⟨earlier, later, hsplit, hearlier, hresolves⟩, hstored⟩
    exact ⟨earlier, s, later, hsplit, ⟨value, hresolves, rfl, hstored⟩, hearlier⟩

theorem AgreeOnNames.symm (hagree : AgreeOnNames x y) : AgreeOnNames y x :=
  fun c s hs => (hagree c s hs).symm

theorem AgreeOnNames.tells (hagree : AgreeOnNames x y) (hx : x.Tells c s value) :
    y.Tells c s value := by
  obtain ⟨earlier, later, hsplit, hearlier, hresolves⟩ := hx
  refine ⟨earlier, later, hsplit, fun t ht => ?_, ?_⟩
  · rw [← hagree c t (hsplit ▸ List.mem_append_left _ ht)]
    exact hearlier t ht
  · rw [← hagree c s (hsplit ▸ List.mem_append_right _ (.head later))]
    exact hresolves

theorem AgreeOnNames.find?_eq (hagree : AgreeOnNames x y) (c : Constant) :
    x.find? c = y.find? c := by
  refine Option.ext fun ⟨value, stored⟩ => ?_
  rw [find?_eq_some_iff, find?_eq_some_iff]
  exact exists_congr fun s => and_congr_left' ⟨hagree.tells, hagree.symm.tells⟩

theorem AgreeOnNames.entry_eq (hagree : AgreeOnNames x y) (c : Constant) :
    x.entry c = y.entry c := by
  have hfind : x.find? = y.find? := funext hagree.find?_eq
  have hfallback : x.fallback c = y.fallback c := by
    unfold fallback
    rw [hfind]
  unfold entry supersedes
  rw [hfind, hfallback]

theorem AgreeOnNames.load_eq (hagree : AgreeOnNames x y) : Layout.load x = Layout.load y := by
  have hentry : x.entry = y.entry := funext hagree.entry_eq
  rw [Layout.load, Layout.load, hentry]

/-- A constant is asked for under all its names before it is given up. -/
theorem mem_lookups (hneeded : x.supersedes c = false) (hlacks : x.Lacks c)
    (hs : s ∈ c.spellings) : exportedName s.name ∈ x.lookups := by
  refine List.mem_flatMap.mpr ⟨c, Constant.mem_all c, ?_⟩
  have hname : exportedName s.name ∈ c.spellings.map fun s => exportedName s.name :=
    List.mem_map_of_mem hs
  -- No name resolves, so looking does not stop before the last one.
  have hunresolved : (c.spellings.map fun s => exportedName s.name).takeWhile
      (fun name => (x.resolve name).isNone) = c.spellings.map fun s => exportedName s.name := by
    refine List.takeWhile_eq_self_iff.mpr fun name hname => ?_
    obtain ⟨t, ht, rfl⟩ := List.mem_map.mp hname
    rw [hlacks t ht]
    rfl
  rw [lookupsOf, hneeded, if_neg Bool.false_ne_true]
  dsimp only
  rw [hunresolved]
  exact List.mem_append_left _ hname

end Exports

namespace Layout

open Exports

variable {x : Exports} {c base : Constant} {value : ℤ}

/-- The constants that have a default, which is what builds for wide words use. -/
def defaults : List (Constant × ℤ) := [(.smiTag, 0), (.smiTagMask, 1), (.smiShiftSize, 31),
  (.heapObjectTag, 1), (.heapObjectTagMask, 3), (.sharedStartPositionShift, 0),
  (.bufferWasNeuteredShift, 0), (.descriptorLocationShift, 0), (.dictionaryPrefixStart, 0)]

/-- The fields that follow another one, with the one in front. -/
def followers : List (Constant × Constant) :=
  [(.fixedArrayData, .fixedArrayLength), (.objectInternalFields, .objectElements)]

/-- A number that stands in for a constant of which no name resolves: its default, or the slot
behind the field in front of it.  Offsets are words. -/
inductive StandsIn (l : Layout) (c : Constant) : ℤ → Prop
  | default {value : ℤ} : (c, value) ∈ defaults → StandsIn l c value
  | slotAfter {base : Constant} {offset : ℤ} : (c, base) ∈ followers →
      l.value? base = some offset →
      StandsIn l c (Word.signed (Word.ofInt (offset + l.pointerSize)))

/-- The layout has a place for the constant: of the two that tell where in-object properties are,
only the better one that is known has a place. -/
def HasPlace (l : Layout) (c : Constant) : Prop :=
  c = .mapInObjectCount → l.inObjectConstant = .mapInObjectCount

/-- What a layout that `x` exports knows of a constant, and where it has it from. -/
inductive Accounts (x : Exports) (l : Layout) (c : Constant) : Prop
  /-- The first name that resolves tells the value, and how the field is stored. -/
  | told {s : Spelling} {value : ℤ} : x.Tells c s value → l.value? c = some value →
      l.raw c = value → (∀ stored, s.storage = some stored → l.storage c = stored) →
      Accounts x l c
  | standsIn {value : ℤ} : x.Lacks c → StandsIn l c value → l.value? c = some value →
      l.raw c = value → Accounts x l c
  | missing : x.Lacks c → (∀ value, ¬ StandsIn l c value) → l.value? c = none → l.raw c = -1 →
      c.name ∈ l.missing.map Constant.name → Accounts x l c

/-! ### Loading -/

theorem value?_load (hneeded : x.supersedes c = false) :
    (load x).value? c = ((x.find? c).map Prod.fst).or (x.fallback c) := by
  rw [value?, entry_load, Exports.entry, hneeded, if_neg Bool.false_ne_true]
  cases x.find? c <;> rfl

theorem supersedes_eq_false (hneeded : c.supersededBy = none) : x.supersedes c = false := by
  rw [supersedes, hneeded]
  rfl

/-- A constant that nothing makes superfluous and nothing stands in for is known by its names
alone. -/
theorem value?_load_of_missing (hneeded : c.supersededBy = none)
    (hfallback : c.fallback = .missing) : (load x).value? c = (x.find? c).map Prod.fst := by
  rw [value?_load (supersedes_eq_false hneeded), Exports.fallback, hfallback, Option.or_none]

theorem supersededBy_eq_some (hbetter : c.supersededBy = some base) :
    c = .mapInObjectCount ∧ base = .mapInObjectStart := by
  unfold Constant.supersededBy at hbetter
  split at hbetter
  · cases hbetter
    exact ⟨rfl, rfl⟩
  · cases hbetter

theorem fallback_eq_number_iff : c.fallback = .number value ↔ (c, value) ∈ defaults := by
  constructor
  · intro hfallback
    unfold Constant.fallback at hfallback
    split at hfallback <;> cases hfallback <;> decide
  · intro hmem
    fin_cases hmem <;> rfl

theorem fallback_eq_slotAfter_iff : c.fallback = .slotAfter base ↔ (c, base) ∈ followers := by
  constructor
  · intro hfallback
    unfold Constant.fallback at hfallback
    split at hfallback <;> cases hfallback <;> decide
  · intro hmem
    fin_cases hmem <;> rfl

/-- A field that another one follows is known by its names alone. -/
theorem value?_load_of_follower (hbase : (c, base) ∈ followers) :
    (load x).value? base = (x.find? base).map Prod.fst := by
  fin_cases hbase <;> exact value?_load_of_missing rfl rfl

theorem pointerSize_load :
    (load x).pointerSize = slotBytes ((x.find? .pointerSizeLog2).map Prod.fst) := by
  rw [pointerSize, value?_load_of_missing rfl rfl]

theorem fallback_eq_some_iff : x.fallback c = some value ↔ StandsIn (load x) c value := by
  unfold Exports.fallback
  constructor
  · intro hvalue
    split at hvalue
    case h_1 => cases hvalue
    case h_2 number hfallback =>
      cases hvalue
      exact .default (fallback_eq_number_iff.mp hfallback)
    case h_3 base hfallback =>
      obtain ⟨found, hfound, rfl⟩ := Option.map_eq_some_iff.mp hvalue
      have hfollows := fallback_eq_slotAfter_iff.mp hfallback
      have hbase : (load x).value? base = some found.1 := by
        rw [value?_load_of_follower hfollows, hfound, Option.map_some]
      have hstands := StandsIn.slotAfter hfollows hbase
      rwa [pointerSize_load] at hstands
  · rintro (hdefault | ⟨hfollows, hbase⟩)
    · rw [fallback_eq_number_iff.mpr hdefault]
    · rw [value?_load_of_follower hfollows] at hbase
      obtain ⟨found, hfound, rfl⟩ := Option.map_eq_some_iff.mp hbase
      rw [fallback_eq_slotAfter_iff.mpr hfollows, pointerSize_load]
      dsimp only
      rw [hfound, Option.map_some]

/-- What the catalogue calls superfluous is what the layout has no place for. -/
theorem isSuperseded_load (c : Constant) : (load x).isSuperseded c = x.supersedes c := by
  unfold isSuperseded supersedes
  cases hbetter : c.supersededBy with
  | none => rfl
  | some base =>
    obtain ⟨-, rfl⟩ := supersededBy_eq_some hbetter
    show (load x).has .mapInObjectStart = (x.find? .mapInObjectStart).isSome
    rw [has, value?_load_of_missing rfl rfl, Option.isSome_map]

theorem supersedes_of_hasPlace (hplace : (load x).HasPlace c) : x.supersedes c = false := by
  rw [← isSuperseded_load]
  unfold isSuperseded
  cases hbetter : c.supersededBy with
  | none => rfl
  | some base =>
    obtain ⟨rfl, rfl⟩ := supersededBy_eq_some hbetter
    have hcount := hplace rfl
    unfold inObjectConstant at hcount
    show (load x).has .mapInObjectStart = false
    split at hcount
    case isTrue => cases hcount
    case isFalse hstart => exact Bool.not_eq_true _ ▸ hstart

theorem mem_missing_iff :
    c ∈ (load x).missing ↔ (load x).value? c = none ∧ x.supersedes c = false := by
  rw [missing, List.mem_filter, Bool.and_eq_true, Bool.not_eq_true', Bool.not_eq_true',
    isSuperseded_load, has, Option.isSome_eq_false_iff, Option.isNone_iff_eq_none]
  exact and_iff_right (Constant.mem_all c)

/-- A constant without a value was looked for in vain. -/
theorem lacks_of_mem_missing (hmissing : c ∈ (load x).missing) :
    x.Lacks c ∧ ∀ value, ¬ StandsIn (load x) c value := by
  obtain ⟨hnone, hneeded⟩ := mem_missing_iff.mp hmissing
  rw [value?_load hneeded, Option.or_eq_none_iff, Option.map_eq_none_iff] at hnone
  refine ⟨find?_eq_none_iff.mp hnone.1, fun value hstands => ?_⟩
  rw [← fallback_eq_some_iff, hnone.2] at hstands
  cases hstands

theorem nodup_missing (l : Layout) : (l.missing.map Constant.name).Nodup :=
  Constant.nodup_names.sublist (List.filter_sublist.map _)

theorem accounts_load (hplace : (load x).HasPlace c) : Accounts x (load x) c := by
  have hneeded := supersedes_of_hasPlace hplace
  have hvalue := value?_load hneeded
  cases hfound : x.find? c with
  | some found =>
    obtain ⟨value, stored⟩ := found
    obtain ⟨s, htells, rfl⟩ := find?_eq_some_iff.mp hfound
    rw [hfound] at hvalue
    refine .told htells hvalue (by rw [raw, hvalue]; rfl) fun stored hstored => ?_
    rw [storage, entry_load, Exports.entry, hneeded, if_neg Bool.false_ne_true, hfound]
    show s.storage.getD .tagged = stored
    rw [hstored, Option.getD_some]
  | none =>
    have hlacks := find?_eq_none_iff.mp hfound
    rw [hfound, Option.map_none, Option.none_or] at hvalue
    cases hfallback : x.fallback c with
    | some value =>
      rw [hfallback] at hvalue
      exact .standsIn hlacks (fallback_eq_some_iff.mp hfallback) hvalue (by rw [raw, hvalue]; rfl)
    | none =>
      rw [hfallback] at hvalue
      have hmissing := mem_missing_iff.mpr ⟨hvalue, hneeded⟩
      exact .missing hlacks (lacks_of_mem_missing hmissing).2 hvalue (by rw [raw, hvalue]; rfl)
        (List.mem_map_of_mem hmissing)

/-- **A layout accounts for every constant.**  Whatever a build exports, each constant that the
layout has a place for has the value of its first name that resolves, or a number stands in for it,
or it is unavailable and recorded as missing.  What is recorded was asked for under all its names in
vain, and is recorded once.  Names that no constant has make no difference. -/
theorem load_accounts (x : Exports) :
    (∀ c, (load x).HasPlace c → Accounts x (load x) c) ∧
      (∀ name ∈ (load x).missing.map Constant.name, ∃ c : Constant, c.name = name ∧ x.Lacks c ∧
        ∀ s ∈ c.spellings, exportedName s.name ∈ x.lookups) ∧
      ((load x).missing.map Constant.name).Nodup ∧
      ∀ y, AgreeOnNames x y → load y = load x := by
  refine ⟨fun c hplace => accounts_load hplace, fun name hname => ?_, nodup_missing _,
    fun y hagree => hagree.load_eq.symm⟩
  obtain ⟨c, hc, rfl⟩ := List.mem_map.mp hname
  have hlacks := (lacks_of_mem_missing hc).1
  exact ⟨c, rfl, hlacks, fun s hs => mem_lookups (mem_missing_iff.mp hc).2 hlacks hs⟩

/-- A build that exports a field under its old name only, a field that another follows, and where
in-object properties start. -/
def oldBuild : Exports where
  target := 1
  resolve name := [("v8dbg_class_Map__bit_field3__SMI", 12),
    ("v8dbg_class_FixedArrayBase__length__SMI", 8),
    ("v8dbg_class_Map__inobject_properties_start_or_constructor_function_index__char", 9)].lookup
      name

/-- The same, and a name that no constant has. -/
def chattyBuild : Exports where
  target := 2
  resolve name :=
    if name = "v8dbg_class_Map__bit_field4__SMI" then some 0 else oldBuild.resolve name

theorem load_accounts_oldBuild :
    (load oldBuild).HasPlace .mapBitField3 ∧ Accounts oldBuild (load oldBuild) .mapBitField3 ∧
      (load oldBuild).storage .mapBitField3 = .smi ∧
      (load oldBuild).value? .fixedArrayData = some 16 ∧
      (load oldBuild).HasPlace .regExpSource ∧ Accounts oldBuild (load oldBuild) .regExpSource ∧
      (load oldBuild).raw .regExpSource = -1 ∧
      ¬ (load oldBuild).HasPlace .mapInObjectCount ∧
      AgreeOnNames oldBuild chattyBuild ∧ load chattyBuild = load oldBuild := by
  have haccounts := load_accounts oldBuild
  have hagree : AgreeOnNames oldBuild chattyBuild := by
    have hnames : ∀ c ∈ Constant.all, ∀ s ∈ c.spellings,
        exportedName s.name ≠ "v8dbg_class_Map__bit_field4__SMI" := by decide +kernel
    exact fun c s hs => (if_neg (hnames c (Constant.mem_all c) s hs)).symm
  have hstart : (load oldBuild).inObjectConstant = .mapInObjectStart := by decide +kernel
  refine ⟨nofun, haccounts.1 _ nofun, ?_, ?_, nofun, haccounts.1 _ nofun, ?_, ?_, hagree,
    haccounts.2.2.2 _ hagree⟩
  · decide +kernel
  · decide +kernel
  · decide +kernel
  · exact fun hplace => nomatch hstart.symm.trans (hplace rfl)

end Layout

end Postmortem
