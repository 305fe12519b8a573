/-
Postmortem/Proofs/SharedLayouts.lean

Layouts of targets that are attached one after the other.

The cache remembers one layout and the target that it belongs to.  What it remembers
is what the load before gave (`Keeps.current`), and that is the layout of the exports
that were loaded before, as if there were no cache (`Keeps.layout`).  So a load shares
the layout of the load before it if both are for one target, and asks the exports for
nothing; in all other cases it asks for every name again, also for those of a target
that was attached earlier.  A layout that is loaded afresh has a serial number that no
layout before it has.

All this needs that the exports of one target say the same, whenever they are asked.

Main result: `loadAll_coherent`.
-/
import Mathlib.Data.List.Induction
import Postmortem.Layout.Cache
import Postmortem.Proofs.Absences

namespace Postmortem

open Exports

/-- The size of slots is asked for first, whatever resolves. -/
theorem Exports.lookups_ne_nil (x : Exports) : x.lookups ≠ [] := by
  have hnames : (Constant.pointerSizeLog2.spellings.map fun s => exportedName s.name) =
      [exportedName "PointerSizeLog2"] := rfl
  have hasked : exportedName "PointerSizeLog2" ∈ x.lookupsOf .pointerSizeLog2 := by
    rw [lookupsOf, Layout.supersedes_eq_false rfl, if_neg Bool.false_ne_true, hnames]
    dsimp only
    rw [List.takeWhile_cons]
    split
    · exact List.mem_append_left _ (List.mem_singleton_self _)
    · exact List.mem_append_right _ (List.mem_singleton_self _)
  exact List.ne_nil_of_mem (List.mem_flatMap.mpr ⟨_, Constant.mem_all _, hasked⟩)

namespace LayoutCache

variable {cache : LayoutCache} {history xs : List Exports} {x y : Exports} {loaded : LoadedLayout}

/-! ### Loads -/

/-- What one load gives, the names that it asks for, and the layout at hand afterwards. -/
structure Loading where
  loaded : LoadedLayout
  lookups : List String
  current : Option LoadedLayout

/-- The next load. -/
def loading (cache : LayoutCache) (x : Exports) : Loading :=
  ⟨(cache.load x).1, (cache.load x).2.1, (cache.load x).2.2.current⟩

/-- The cache after some loads. -/
def after (cache : LayoutCache) (xs : List Exports) : LayoutCache :=
  xs.foldl (fun cache x => (cache.load x).2.2) cache

/-- Loads one layout after the other. -/
def loadAll (cache : LayoutCache) : List Exports → List Loading
  | [] => []
  | x :: xs => cache.loading x :: loadAll (cache.load x).2.2 xs

/-- Exports of one target agree. -/
def Consistent (xs : List Exports) : Prop :=
  ∀ x ∈ xs, ∀ y ∈ xs, x.target = y.target → AgreeOnNames x y

theorem load_shared (hcurrent : cache.current = some loaded) (htarget : loaded.target = x.target) :
    cache.load x = (loaded, [], cache) := by
  have hfilter : cache.current.filter (·.target == x.target) = some loaded := by
    rw [hcurrent, Option.filter_some, if_pos (beq_iff_eq.mpr htarget)]
  rw [load, hfilter]

theorem load_afresh (hcurrent : ∀ loaded ∈ cache.current, loaded.target ≠ x.target) :
    cache.load x = (⟨x.target, cache.fresh, Layout.load x⟩, x.lookups,
      ⟨some ⟨x.target, cache.fresh, Layout.load x⟩, cache.fresh + 1⟩) := by
  have hfilter : cache.current.filter (·.target == x.target) = none :=
    Option.filter_eq_none_iff.mpr fun loaded hloaded => mt beq_iff_eq.mp (hcurrent loaded hloaded)
  rw [load, hfilter]

theorem after_concat (cache : LayoutCache) (xs : List Exports) (x : Exports) :
    cache.after (xs ++ [x]) = ((cache.after xs).load x).2.2 := by
  rw [after, List.foldl_append, List.foldl_cons, List.foldl_nil, after]

theorem loadAll_append (cache : LayoutCache) (xs ys : List Exports) :
    cache.loadAll (xs ++ ys) = cache.loadAll xs ++ (cache.after xs).loadAll ys := by
  induction xs generalizing cache with
  | nil => rfl
  | cons x xs ih => exact congrArg _ (ih _)

theorem length_loadAll (cache : LayoutCache) (xs : List Exports) :
    (cache.loadAll xs).length = xs.length := by
  induction xs generalizing cache with
  | nil => rfl
  | cons x xs ih => exact congrArg _ (ih _)

/-! ### What is kept -/

/-- What the cache keeps of the loads that it went through. -/
structure Keeps (history : List Exports) : Prop where
  /-- The layout at hand is what the last load gave. -/
  current : (after {} history).current = (loadAll {} history).getLast?.map Loading.loaded
  target : (after {} history).current.map LoadedLayout.target =
    history.getLast?.map Exports.target
  layout : ∀ loaded ∈ (after {} history).current, ∀ y ∈ history.getLast?,
    loaded.layout = Layout.load y
  /-- Serial numbers go up. -/
  serial : ∀ l ∈ loadAll {} history, l.loaded.serial < (after {} history).fresh

/-- A load for the target of the load before. -/
def Repeats (history : List Exports) (x : Exports) : Prop :=
  history.getLast?.map Exports.target = some x.target

/-- What a load gives that comes after others. -/
structure FollowsFrom (history : List Exports) (x : Exports) (l : Loading) : Prop where
  layout : l.loaded.layout = Layout.load x
  target : l.loaded.target = x.target
  current : l.current = some l.loaded
  asks_iff : l.lookups = [] ↔ Repeats history x
  /-- The layout of the load before, and not another one that is equal to it. -/
  shared : Repeats history x → (loadAll {} history).getLast?.map Loading.loaded = some l.loaded
  /-- Otherwise all names are asked for, and the layout is none of those before. -/
  afresh : ¬ Repeats history x → l.lookups = x.lookups ∧
    ∀ earlier ∈ loadAll {} history, earlier.loaded.serial < l.loaded.serial

section

variable (hkeeps : Keeps history)
include hkeeps

theorem Keeps.load_of_repeats (hrepeats : Repeats history x) :
    ∃ loaded, (after {} history).current = some loaded ∧ loaded.target = x.target ∧
      (after {} history).load x = (loaded, [], after {} history) := by
  obtain ⟨loaded, hcurrent, htarget⟩ := Option.map_eq_some_iff.mp (hkeeps.target.trans hrepeats)
  exact ⟨loaded, hcurrent, htarget, load_shared hcurrent htarget⟩

theorem Keeps.load_of_not_repeats (hrepeats : ¬ Repeats history x) :
    (after {} history).load x =
      (⟨x.target, (after {} history).fresh, Layout.load x⟩, x.lookups,
        ⟨some ⟨x.target, (after {} history).fresh, Layout.load x⟩,
          (after {} history).fresh + 1⟩) := by
  refine load_afresh fun loaded hcurrent htarget => hrepeats ?_
  exact hkeeps.target.symm.trans (Option.map_eq_some_iff.mpr ⟨loaded, hcurrent, htarget⟩)

variable (hagree : ∀ y ∈ history.getLast?, y.target = x.target → AgreeOnNames y x)
include hagree

/-- What the next load gives. -/
theorem Keeps.followsFrom : FollowsFrom history x ((after {} history).loading x) := by
  by_cases hrepeats : Repeats history x
  case pos =>
    obtain ⟨loaded, hcurrent, htarget, hload⟩ := hkeeps.load_of_repeats hrepeats
    obtain ⟨y, hy, hsame⟩ := Option.map_eq_some_iff.mp hrepeats
    rw [loading, hload]
    exact {
      layout := (hkeeps.layout loaded hcurrent y hy).trans (hagree y hy hsame).load_eq
      target := htarget
      current := hcurrent
      asks_iff := iff_of_true rfl hrepeats
      shared := fun _ => hkeeps.current.symm.trans hcurrent
      afresh := fun hnot => absurd hrepeats hnot }
  case neg =>
    rw [loading, hkeeps.load_of_not_repeats hrepeats]
    exact {
      layout := rfl
      target := rfl
      current := rfl
      asks_iff := iff_of_false x.lookups_ne_nil hrepeats
      shared := fun h => absurd h hrepeats
      afresh := fun _ => ⟨rfl, hkeeps.serial⟩ }

/-- What the cache keeps of the next load. -/
theorem Keeps.concat : Keeps (history ++ [x]) := by
  have hlast := hkeeps.followsFrom hagree
  have hafter : after {} (history ++ [x]) = ((after {} history).load x).2.2 := after_concat ..
  have hall : loadAll {} (history ++ [x]) = loadAll {} history ++ [(after {} history).loading x] :=
    loadAll_append ..
  have hcurrent : (after {} (history ++ [x])).current =
      some ((after {} history).loading x).loaded := by
    rw [hafter]
    exact hlast.current
  constructor
  case current => rw [hcurrent, hall, List.getLast?_concat, Option.map_some]
  case target =>
    rw [hcurrent, List.getLast?_concat, Option.map_some, Option.map_some, hlast.target]
  case layout =>
    rintro loaded hloaded y hy
    rw [hcurrent] at hloaded
    rw [List.getLast?_concat] at hy
    cases hloaded
    cases hy
    exact hlast.layout
  case serial =>
    rw [hall, hafter, List.forall_mem_append, List.forall_mem_singleton]
    by_cases hrepeats : Repeats history x
    · -- The shared layout is one of those before.
      obtain ⟨last, hlast', hloaded⟩ := Option.map_eq_some_iff.mp (hlast.shared hrepeats)
      obtain ⟨loaded, -, -, hload⟩ := hkeeps.load_of_repeats hrepeats
      rw [hload, ← hloaded]
      exact ⟨hkeeps.serial, hkeeps.serial last (List.mem_of_getLast? hlast')⟩
    · rw [loading, hkeeps.load_of_not_repeats hrepeats]
      exact ⟨fun l hl => Nat.lt_succ_of_lt (hkeeps.serial l hl), Nat.lt_succ_self _⟩

end

/-! ### Runs -/

theorem Consistent.keeps (hxs : Consistent xs) : Keeps xs := by
  induction xs using List.reverseRecOn with
  | nil => exact ⟨rfl, rfl, nofun, nofun⟩
  | append_singleton history x ih =>
    refine (ih fun y hy z hz => ?_).concat fun y hy htarget => ?_
    · exact hxs y (List.mem_append_left _ hy) z (List.mem_append_left _ hz)
    · exact hxs y (List.mem_append_left _ (List.mem_of_getLast? hy)) x
        (List.mem_append_right _ (List.mem_singleton_self x)) htarget

/-- **A run of loads is coherent.**  Where exports of one target agree, each load gives the layout
of its exports, and that is the layout at hand until the next load; before the first there is none.
A load asks for no names if, and only if, the load before was for the same target, and then it gives
the very layout that the load before gave.  Any other load asks for all names and gives a layout
that was not given before, whether or not the target was attached earlier. -/
theorem loadAll_coherent (hxs : Consistent xs) :
    ({} : LayoutCache).current = none ∧
      ∀ history x rest, xs = history ++ x :: rest →
        ∃ l later, loadAll {} xs = loadAll {} history ++ l :: later ∧
          (loadAll {} history).length = history.length ∧ FollowsFrom history x l := by
  refine ⟨rfl, fun history x rest hsplit => ?_⟩
  subst hsplit
  have hhistory : Consistent history := fun y hy z hz =>
    hxs y (List.mem_append_left _ hy) z (List.mem_append_left _ hz)
  refine ⟨(after {} history).loading x, _, loadAll_append _ history (x :: rest),
    length_loadAll _ history, hhistory.keeps.followsFrom fun y hy htarget => ?_⟩
  exact hxs y (List.mem_append_left _ (List.mem_of_getLast? hy)) x
    (List.mem_append_right _ (.head rest)) htarget

open Layout (oldBuild chattyBuild)

/-- Two targets, one of which is attached twice in a row, and again after the other one. -/
def attachments : List Exports := [oldBuild, oldBuild, chattyBuild, oldBuild]

theorem loadAll_coherent_returning :
    Consistent attachments ∧
      ((loadAll {} attachments).map fun l => l.loaded.serial) = [0, 0, 1, 2] ∧
      ∃ l, (loadAll {} attachments)[3]? = some l ∧
        FollowsFrom [oldBuild, oldBuild, chattyBuild] oldBuild l ∧ l.lookups ≠ [] := by
  have hbuild : ∀ x ∈ attachments, x = oldBuild ∨ x = chattyBuild := by
    simp [attachments]
  have hconsistent : Consistent attachments := by
    intro x hx y hy htarget
    rcases hbuild x hx with rfl | rfl <;> rcases hbuild y hy with rfl | rfl
    · exact fun _ _ _ => rfl
    · exact nomatch (htarget : (1 : UInt64) = 2)
    · exact nomatch (htarget : (2 : UInt64) = 1)
    · exact fun _ _ _ => rfl
  obtain ⟨l, later, hall, hlength, hfollows⟩ := (loadAll_coherent hconsistent).2
    [oldBuild, oldBuild, chattyBuild] oldBuild [] rfl
  refine ⟨hconsistent, rfl, l, ?_, hfollows, ?_⟩
  · have hthree : [oldBuild, oldBuild, chattyBuild].length = 3 := rfl
    rw [hall, List.getElem?_append_right (Nat.le_of_eq (hlength.trans hthree)), hlength]
    rfl
  · exact fun hnil => nomatch (hfollows.asks_iff.mp hnil : some (2 : UInt64) = some 1)

end LayoutCache

end Postmortem
