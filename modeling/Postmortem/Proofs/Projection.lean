/-
Postmortem/Proofs/Projection.lean

One computation projects onto another.

`Projects h f x y` says that whatever `x` yields on `h`, `y` yields as well, with
`f` applied to it.  So `y` succeeds wherever `x` does, though it may do less: it
leaves out steps that `x` takes (`Projects.skip`), and it never takes one that `x`
does not.

The two are gone through at once, from the first step to the last.  A step that
both take comes off both (`Projects.read`); one that projects onto another is gone
on with for what that one yields (`Projects.bind`).
-/
import Postmortem.Proofs.Yield

namespace Postmortem.HeapM

variable {α α' β β' : Type} {h : Heap} {f : β → β'} {g : α → α'}

/-- Whatever `x` yields, `y` yields what `f` makes of it. -/
def Projects (h : Heap) (f : β → β') (x : HeapM β) (y : HeapM β') : Prop :=
  ∀ b, x.Yields h b → y.Yields h (f b)

namespace Projects

variable {x : HeapM α} {x' : HeapM α'} {y : HeapM β'} {F : α → HeapM β}

protected theorem pure {b : β} {b' : β'} (hb : f b = b') : Projects h f (pure b) (pure b') := by
  intro a ha
  rw [yields_pure] at ha ⊢
  rw [← ha, hb]

/-- The right side is less by a step. -/
theorem skip (hF : ∀ a, Projects h f (F a) y) : Projects h f (x >>= F) y := by
  intro b hb
  obtain ⟨a, -, hb⟩ := yields_bind.mp hb
  exact hF a b hb

/-- The first step projects onto the first step. -/
theorem bind {G : α' → HeapM β'} (hx : Projects h g x x')
    (hF : ∀ a, Projects h f (F a) (G (g a))) : Projects h f (x >>= F) (x' >>= G) := by
  intro b hb
  obtain ⟨a, ha, hb⟩ := yields_bind.mp hb
  exact (hx a ha).bind (hF a b hb)

/-- Both sides take the same first step. -/
theorem read {G : α → HeapM β'} (hF : ∀ a, Projects h f (F a) (G a)) :
    Projects h f (x >>= F) (x >>= G) := by
  have hx : Projects h id x x := fun _ ha => ha
  exact bind hx hF

/-- The right side is done once it has taken this step. -/
theorem last {f : β → α} (hF : ∀ a, Projects h f (F a) (pure a)) :
    Projects h f (x >>= F) x := by
  intro b hb
  obtain ⟨a, ha, hb⟩ := yields_bind.mp hb
  have heq : a = f b := yields_pure.mp (hF a b hb)
  exact heq ▸ ha

/-- The right side takes a step of its own, and what comes of it is known. -/
theorem settled {G : α → HeapM β'} {a : α} {y : HeapM β} (ha : x.Yields h a)
    (hG : Projects h f y (G a)) : Projects h f y (x >>= G) :=
  fun b hb => ha.bind (hG b hb)

/-- A value that is already there is gone on with. -/
theorem given {G : α → HeapM β'} {a : α} {y : HeapM β} (hG : Projects h f y (G a)) :
    Projects h f y (pure a >>= G) :=
  settled (yields_pure.mpr rfl) hG

/-- The right side is the same whatever becomes of the condition. -/
theorem ite {c : Prop} [Decidable c] {X Y : HeapM β} (hX : Projects h f X y)
    (hY : Projects h f Y y) : Projects h f (if c then X else Y) y := by
  split
  · exact hX
  · exact hY

/-- Both sides ask for the same condition. -/
theorem branch {c : Prop} [Decidable c] {X Y : HeapM β} {X' Y' : HeapM β'}
    (hX : Projects h f X X') (hY : Projects h f Y Y') :
    Projects h f (if c then X else Y) (if c then X' else Y') := by
  split
  · exact hX
  · exact hY

end Projects

end Postmortem.HeapM
