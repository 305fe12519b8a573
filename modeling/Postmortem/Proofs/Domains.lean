/-
Postmortem/Proofs/Domains.lean

The domains of an object, and what a window finds in them.

A window goes over elements, properties and internal fields as if they stood
behind each other.  In each domain it covers the positions from where its start is
to where its stop is (`Window.within`), where both are taken to the next border if
they lie outside; a domain that the window does not meet has no page, which is
the same as covering nothing (`covers_split`).  So what two windows find that
follow each other is what one window finds over both (`Covers.append`).

`Lists` takes the detailed body of an object apart into the pages of its domains.
-/
import Mathlib.Data.Option.Basic
import Mathlib.Data.List.Forall2
import Postmortem.Proofs.Collections
import Postmortem.Proofs.Division
import Postmortem.Proofs.Level

namespace Postmortem

open HeapM

/-! ### Positions -/

section

variable {β : Type} {IsItem : ℕ → β → Prop} {start mid stop : ℕ} {xs ys : List β}

/-- The items are those at the positions from `start` to `stop`. -/
def Covers (IsItem : ℕ → β → Prop) (start stop : ℕ) (items : List β) : Prop :=
  List.Forall₂ IsItem (List.range' start (stop - start)) items

theorem Covers.nil (hle : stop ≤ start) : Covers IsItem start stop [] := by
  rw [Covers, Nat.sub_eq_zero_of_le hle]
  exact .nil

theorem Covers.append (hstart : start ≤ mid) (hstop : mid ≤ stop)
    (hxs : Covers IsItem start mid xs) (hys : Covers IsItem mid stop ys) :
    Covers IsItem start stop (xs ++ ys) := by
  show List.Forall₂ IsItem (between start stop) (xs ++ ys)
  rw [← between_append hstart hstop]
  exact List.rel_append hxs hys

theorem Covers.length (hxs : Covers IsItem start stop xs) : xs.length = stop - start := by
  rw [← List.Forall₂.length_eq hxs, List.length_range']

theorem Covers.imp {IsOther : ℕ → β → Prop} (himp : ∀ i x, IsItem i x → IsOther i x)
    (hxs : Covers IsItem start stop xs) : Covers IsOther start stop xs :=
  List.Forall₂.imp himp hxs

end

namespace Window

variable {w : Window} {offset length position : ℕ}

/-- Where a position is in the domain of `length` items that starts at `offset`; positions outside
are at the next border. -/
def within (offset length position : ℕ) : ℕ := min (position - offset) length

theorem within_zero : within offset length 0 = 0 := by
  rw [within, Nat.zero_sub, Nat.zero_min]

theorem within_of_le (hle : offset + length ≤ position) : within offset length position = length :=
  Nat.min_eq_right (by omega)

theorem within_mono {position' : ℕ} (hle : position ≤ position') :
    within offset length position ≤ within offset length position' := by
  unfold within
  omega

/-- Where something is covered the window has come to the domain, and was not behind it. -/
theorem lt_of_covers_within {β : Type} {IsItem : ℕ → β → Prop} {start stop : ℕ} {items : List β}
    (hitems : Covers IsItem (within offset length start) (within offset length stop) items)
    (hne : items ≠ []) : offset < stop ∧ start < offset + length := by
  have hpos := List.length_pos_of_ne_nil hne
  rw [hitems.length] at hpos
  unfold within at hpos
  omega

/-- The page of a domain covers the positions between the borders of the window. -/
theorem covers_split {β : Type} {IsItem : ℕ → β → Prop} {page : Option (Page β)}
    (hpage : Option.Rel (fun part found => Covers IsItem part.start part.stop found.items)
      (w.split offset length) page) :
    Covers IsItem (within offset length w.start) (within offset length w.stop)
      (page.elim [] Page.items) := by
  have hle := w.start_le_stop
  unfold split at hpage
  split at hpage
  case isTrue hmeet =>
    cases hpage with
    | @some _ found hfound =>
      have hstart : max w.start offset - offset = within offset length w.start := by
        unfold within
        omega
      have hstop : min w.stop (offset + length) - offset = within offset length w.stop := by
        unfold within
        omega
      rw [← hstart, ← hstop]
      exact hfound
  case isFalse hmeet =>
    cases hpage
    refine .nil ?_
    unfold within
    omega

end Window

/-! ### Bodies -/

namespace ObjectBody

variable {ν : Type}

/-- How many items an object has in all its domains. -/
def total (b : ObjectBody ν) : ℕ := b.elementsLength + b.propertiesLength + b.fieldsLength

def elementItems (b : ObjectBody ν) : List (Element ν) := b.elements.elim [] Page.items

def propertyItems (b : ObjectBody ν) : List (Property ν) := b.properties.elim [] Page.items

def fieldItems (b : ObjectBody ν) : List Address := b.internalFields.elim [] Page.items

end ObjectBody

namespace Inspection

variable {α : Type} {h : Heap} {inner : Inspector} {object : Address} {o : Options}
  {body : ObjectBody Node}

theorem rel_domainPage {w : Option Window} {x : Window → HeapM (Page α)}
    {page : Option (Page α)} (hpage : (domainPage w x).Yields h page) :
    Option.Rel (fun part found => (x part).Yields h found) w page := by
  cases w with
  | none =>
    cases yields_pure.mp hpage
    exact .none
  | some part =>
    obtain ⟨found, hfound, hpage⟩ := yields_bind.mp hpage
    cases yields_pure.mp hpage
    exact .some hfound

/-- What the body of an object lists for a window over its domains. -/
structure Lists (h : Heap) (inner : Inspector) (object : Address) (o : Options) (w : Window)
    (body : ObjectBody Node) : Prop where
  elementsLength : (JsObject.elementsLength object).Yields h body.elementsLength
  propertiesLength : (JsObject.propertiesLength object).Yields h body.propertiesLength
  fieldsLength : (JsObject.internalFieldsLength object).Yields h body.fieldsLength
  elements : Option.Rel (fun part page => page.window = part ∧ ∃ array,
      Covers (fun i e => (element inner array o i).Yields h e) part.start part.stop page.items)
    (w.split 0 body.elementsLength) body.elements
  properties : Option.Rel (fun part page => page.window = part ∧ ∃ entries,
      (JsObject.properties object (some part)).Yields h entries ∧
      List.Forall₂ (fun entry p => (property inner o entry).Yields h p) entries page.items)
    (w.split body.elementsLength body.propertiesLength) body.properties
  internalFields : Option.Rel (fun part page => page.window = part ∧
      (JsObject.internalFields object part).Yields h page.items)
    (w.split (body.elementsLength + body.propertiesLength) body.fieldsLength) body.internalFields
  next : body.next = w.stop
  hasMore : body.hasMore = w.hasMore

theorem lists_of_yields (hdetailed : o.detailed = true)
    (hbody : (objectBody inner object o).Yields h body) :
    Lists h inner object o (.of o.current o.limit body.total) body := by
  obtain ⟨map, -, hbody⟩ := yields_bind.mp hbody
  obtain ⟨⟨⟩, -, hbody⟩ := yields_bind.mp hbody
  obtain ⟨name, -, hbody⟩ := yields_bind.mp hbody
  obtain ⟨elements, helements, hbody⟩ := yields_bind.mp hbody
  obtain ⟨properties, hproperties, hbody⟩ := yields_bind.mp hbody
  obtain ⟨fields, hfields, hbody⟩ := yields_bind.mp hbody
  rw [if_pos hdetailed] at hbody
  obtain ⟨elementPage, helementPage, hbody⟩ := yields_bind.mp hbody
  obtain ⟨propertyPage, hpropertyPage, hbody⟩ := yields_bind.mp hbody
  obtain ⟨fieldPage, hfieldPage, hbody⟩ := yields_bind.mp hbody
  cases yields_pure.mp hbody
  refine ⟨helements, hproperties, hfields, ?_, ?_, ?_, rfl, rfl⟩
  · refine rel_imp (fun part _ page hpage => ?_) (rel_domainPage helementPage)
    obtain ⟨array, -, hpage⟩ := yields_bind.mp hpage
    obtain ⟨items, hitems, hpage⟩ := yields_bind.mp hpage
    cases yields_pure.mp hpage
    exact ⟨rfl, array, yields_forRange.mp hitems⟩
  · refine rel_imp (fun part _ page hpage => ?_) (rel_domainPage hpropertyPage)
    obtain ⟨entries, hentries, hpage⟩ := yields_bind.mp hpage
    obtain ⟨items, hitems, hpage⟩ := yields_bind.mp hpage
    cases yields_pure.mp hpage
    exact ⟨rfl, entries, hentries, yields_mapM.mp hitems⟩
  · refine rel_imp (fun part _ page hpage => ?_) (rel_domainPage hfieldPage)
    obtain ⟨words, hwords, hpage⟩ := yields_bind.mp hpage
    cases yields_pure.mp hpage
    exact ⟨rfl, hwords⟩

end Inspection

end Postmortem
