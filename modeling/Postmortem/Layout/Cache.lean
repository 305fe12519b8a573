/-
Postmortem/Layout/Cache.lean

The layout of the target attached last.

Loading again for the same target gives back the layout at hand and asks the
exports for nothing.  Each fresh layout has a serial number, so that a shared
layout can be told from an equal one.
-/
import Postmortem.Layout

namespace Postmortem

/-- A layout, the target it was loaded for, and which load produced it. -/
structure LoadedLayout where
  target : UInt64
  serial : Nat
  layout : Layout

/-- The most recent layout, if any, and how many have been loaded afresh. -/
structure LayoutCache where
  current : Option LoadedLayout := none
  fresh : Nat := 0

namespace LayoutCache

/-- The layout of `x`, the names that had to be looked up for it, and the cache afterwards. -/
def load (cache : LayoutCache) (x : Exports) : LoadedLayout × List String × LayoutCache :=
  match cache.current.filter (·.target == x.target) with
  | some loaded => (loaded, [], cache)
  | none =>
    let loaded := ⟨x.target, cache.fresh, Layout.load x⟩
    (loaded, x.lookups, ⟨some loaded, cache.fresh + 1⟩)

end LayoutCache

end Postmortem
