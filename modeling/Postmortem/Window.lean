/-
Postmortem/Window.lean

Windows over a collection, and pages of items.

A caller asks for `limit` items from `current` on; a window is that request
clamped to a collection of `total` items, where a zero limit runs to the end.
A collection made of several domains, one behind the other, shares one window
among them: `Window.split` is the part that falls into one domain.  A page
holds the items of a window and says where the next window starts.
-/

namespace Postmortem

/-- The items `start`, …, `stop - 1` of a collection of `total` items. -/
structure Window where
  start : Nat
  stop : Nat
  total : Nat
  start_le_stop : start ≤ stop := by omega
  stop_le_total : stop ≤ total := by omega
  deriving DecidableEq

namespace Window

/-- The request for `limit` items from `current` on, clamped; a zero limit runs to the end. -/
def of (current limit total : Nat) : Window where
  start := min current total
  stop := max (min current total) (if limit = 0 then total else min (current + limit) total)
  total := total
  start_le_stop := Nat.le_max_left ..
  stop_le_total := by split <;> omega

/-- How many items the window covers. -/
def length (w : Window) : Nat := w.stop - w.start

def isEmpty (w : Window) : Bool := w.start == w.stop

/-- Whether items remain behind the window. -/
def hasMore (w : Window) : Bool := w.stop < w.total

/-- How many items remain behind the window. -/
def remaining (w : Window) : Nat := w.total - w.stop

/-- The part of the window in the domain of `length` items that starts at `offset`, counted from
the domain's own start; none if they do not meet. -/
def split (w : Window) (offset length : Nat) : Option Window :=
  if h : max w.start offset < min w.stop (offset + length) then
    some ⟨max w.start offset - offset, min w.stop (offset + length) - offset, length,
      by omega, by omega⟩
  else none

/-- The items of a list that the window covers. -/
def slice {α : Type} (w : Window) (items : List α) : List α :=
  (items.drop w.start).take w.length

end Window

/-- The items found for a window. -/
structure Page (α : Type) where
  items : List α
  window : Window
  deriving DecidableEq

namespace Page

variable {α : Type}

/-- How many items the page holds. -/
def count (p : Page α) : Nat := p.items.length

/-- The cursor of the next page. -/
def next (p : Page α) : Nat := p.window.stop

end Page

end Postmortem
