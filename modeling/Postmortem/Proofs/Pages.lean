/-
Postmortem/Proofs/Pages.lean

Pages hold what they claim.

A page tells by its window how many items it stands for and where the next page
starts.  The window is computed from a count, and the items are read on their own,
so that the two agree (`Page.IsFull`) is to be shown for each domain: arrays and
fields are read index by index, bytes all at once, and the entries of a dictionary
by their places among those that were counted.

Properties are the exception.  An object whose map tells of descriptors but has no
array of them counts properties, and none are read.  Its pages of properties are
empty, and go on to claim what their windows cover; all other pages in what
inspection finds are full.

Main result: `inspect_isFull_iff`.
-/
import Postmortem.Proofs.CycleSafety
import Postmortem.Proofs.Domains
import Postmortem.Proofs.Listing
import Postmortem.Proofs.Properties

namespace Postmortem

open HeapM

variable {α β : Type}

/-! ### Pages of a shape -/

namespace Page

/-- A page holds as many items as its window covers, the next page starts behind them, and with
what remains they are all from the start of the window on. -/
def IsFull (p : Page α) : Prop :=
  p.count = p.window.stop - p.window.start ∧ p.next = p.window.start + p.count ∧
    p.count + p.window.remaining = p.window.total - p.window.start

theorem isFull_iff {p : Page α} : p.IsFull ↔ p.count = p.window.length := by
  have hle := p.window.start_le_stop
  have hle' := p.window.stop_le_total
  unfold IsFull next Window.remaining Window.length
  omega

/-- A page without what its items are. -/
def outline (p : Page α) : Page Unit := p.map fun _ => ()

theorem count_outline {p : Page α} : p.outline.count = p.count := List.length_map ..

theorem window_outline {p : Page α} : p.outline.window = p.window := rfl

end Page

/-- What the items of a page are. -/
inductive Listed where
  | elements
  | properties
  | internalFields
  /-- Of an array of descriptors, or of a dictionary. -/
  | entries
  | bytes
  deriving DecidableEq

/-- A page, if there is one. -/
def pageOf (listed : Listed) (page : Option (Page α)) : List (Listed × Page Unit) :=
  page.toList.map fun p => (listed, p.outline)

def ObjectBody.pages {ν : Type} (b : ObjectBody ν) : List (Listed × Page Unit) :=
  pageOf .elements b.elements ++ (pageOf .properties b.properties ++
    pageOf .internalFields b.internalFields)

def BufferBody.pages : BufferBody → List (Listed × Page Unit)
  | neutered => []
  | attached _ _ _ bytes => pageOf .bytes bytes

/-- The pages of a shape. -/
def Shape.pages {ν : Type} : Shape ν → List (Listed × Page Unit)
  | object body => body.pages
  | error body _ => body.pages
  | array _ elements => pageOf .elements elements
  | fixedArray _ elements => pageOf .elements elements
  | regExp _ body => body.elim [] ObjectBody.pages
  | descriptorArray _ entries => pageOf .entries entries
  | nameDictionary _ entries => pageOf .entries entries
  | arrayBuffer body => body.pages
  | arrayBufferView body => body.pages
  | smallInt _ | number .. | string _ | function _ | sharedInfo .. | script .. | oddball _ => []
  | date _ | context _ | hiddenClass _ | scopeInfo _ | symbol _ => []
  | code | global | globalProxy | unknown _ => []

namespace Inspection

variable {h : Heap} {inner : Inspector} {kind : Kind} {object : Address} {o : Options}
  {listed : Listed} {page : Page Unit}

/-- A page is full unless it is one of properties, and the object lacks descriptors; then it is
empty. -/
def Holds (h : Heap) (object : Address) (listed : Listed) (page : Page Unit) : Prop :=
  (page.IsFull ↔ ¬ (listed = .properties ∧ JsObject.LacksDescriptors h object)) ∧
    (¬ page.IsFull → page.count = 0)

/-- All the pages hold what they should. -/
def AllHold (h : Heap) (object : Address) (pages : List (Listed × Page Unit)) : Prop :=
  ∀ listed page, (listed, page) ∈ pages → Holds h object listed page

theorem allHold_nil : AllHold h object [] := nofun

theorem AllHold.append {pages pages' : List (Listed × Page Unit)} (hpages : AllHold h object pages)
    (hpages' : AllHold h object pages') : AllHold h object (pages ++ pages') :=
  fun listed page hmem => (List.mem_append.mp hmem).elim (hpages listed page) (hpages' listed page)

theorem allHold_pageOf {found : Option (Page α)}
    (hfound : ∀ p ∈ found, Holds h object listed p.outline) :
    AllHold h object (pageOf listed found) := by
  intro listed' page hmem
  obtain ⟨p, hp, heq⟩ := List.mem_map.mp hmem
  cases heq
  exact hfound p (Option.mem_toList.mp hp)

theorem holds_of_length {p : Page α} (hlisted : listed ≠ .properties)
    (hlength : p.items.length = p.window.length) : Holds h object listed p.outline := by
  have hfull : p.outline.IsFull := Page.isFull_iff.mpr (Page.count_outline.trans hlength)
  exact ⟨iff_of_true hfull fun hlacks => hlisted hlacks.1, fun hnot => absurd hfull hnot⟩

theorem of_mem_whenDetailed {x : HeapM α} {found : Option α}
    (hfound : (whenDetailed o x).Yields h found) {a : α} (ha : a ∈ found) : x.Yields h a := by
  unfold whenDetailed at hfound
  split at hfound
  · obtain ⟨b, hb, hfound⟩ := yields_bind.mp hfound
    cases yields_pure.mp hfound
    cases ha
    exact hb
  · cases yields_pure.mp hfound
    cases ha

/-! ### Objects -/

theorem length_elementPage {array : Address} {w : Window} {p : Page (Element Node)}
    (hp : (elementPage inner array o w).Yields h p) : p.items.length = p.window.length := by
  obtain ⟨items, hitems, hp⟩ := yields_bind.mp hp
  cases yields_pure.mp hp
  exact (yields_forRange.mp hitems).length_eq.symm.trans (List.length_range' ..)

theorem holds_properties {w : Window} {n offset : ℕ}
    (hcount : (JsObject.propertiesLength object).Yields h n) {part : Window}
    (hpart : part ∈ w.split offset n) {p : Page (Property Node)} (hwindow : p.window = part)
    {entries : List (Value × PropertySlot)}
    (hentries : (JsObject.properties object (some part)).Yields h entries)
    (hlength : p.items.length = entries.length) : Holds h object .properties p.outline := by
  by_cases hlacks : JsObject.LacksDescriptors h object
  · -- The window is not empty, but the page is.
    have hzero : p.outline.count = 0 := by
      rw [Page.count_outline, Page.count, hlength,
        ((JsObject.yields_properties_lacking hlacks).mp hentries).2]
      rfl
    have hlt := Window.start_lt_stop_of_mem_split hpart
    have hnot : ¬ p.outline.IsFull := by
      rw [Page.isFull_iff, hzero, Page.window_outline, hwindow, Window.length]
      omega
    exact ⟨iff_of_false hnot fun hnot => hnot ⟨rfl, hlacks⟩, fun _ => hzero⟩
  · obtain ⟨ready, IsRead, hreads⟩ := JsObject.exists_readsProperties hcount hlacks
    obtain ⟨-, hread⟩ := (hreads.yields_window (Window.stop_le_of_mem_split hpart)).mp hentries
    have hfull : p.outline.IsFull := by
      rw [Page.isFull_iff, Page.count_outline, Page.count, hlength, ← hread.length_eq,
        List.length_range', Page.window_outline, hwindow]
    exact ⟨iff_of_true hfull fun hboth => hlacks hboth.2, fun hnot => absurd hfull hnot⟩

theorem pages_of_line {body : ObjectBody Node} (hline : o.detailed = false)
    (hbody : (objectBody inner object o).Yields h body) : body.pages = [] := by
  obtain ⟨map, -, hbody⟩ := yields_bind.mp hbody
  obtain ⟨⟨⟩, -, hbody⟩ := yields_bind.mp hbody
  obtain ⟨name, -, hbody⟩ := yields_bind.mp hbody
  obtain ⟨elements, -, hbody⟩ := yields_bind.mp hbody
  obtain ⟨properties, -, hbody⟩ := yields_bind.mp hbody
  obtain ⟨fields, -, hbody⟩ := yields_bind.mp hbody
  rw [if_neg (by simp [hline])] at hbody
  cases yields_pure.mp hbody
  rfl

theorem allHold_objectBody {body : ObjectBody Node}
    (hbody : (objectBody inner object o).Yields h body) : AllHold h object body.pages := by
  rcases hdetailed : o.detailed with - | -
  · rw [pages_of_line hdetailed hbody]
    exact allHold_nil
  have hlists := lists_of_yields hdetailed hbody
  refine .append (allHold_pageOf fun p hp => ?_)
    (.append (allHold_pageOf fun p hp => ?_) (allHold_pageOf fun p hp => ?_))
  · obtain ⟨part, -, rfl, array, hcovers⟩ := exists_of_rel hlists.elements hp
    exact holds_of_length (by decide) hcovers.length
  · obtain ⟨part, hpart, hwindow, entries, hentries, hall⟩ := exists_of_rel hlists.properties hp
    exact holds_properties hlists.propertiesLength hpart hwindow hentries hall.length_eq.symm
  · obtain ⟨part, -, rfl, hwords⟩ := exists_of_rel hlists.internalFields hp
    refine holds_of_length (by decide) ?_
    exact (yields_forRange.mp hwords).length_eq.symm.trans (List.length_range' ..)

/-! ### Buffers -/

theorem length_of_bytes {a : Address} {n : ℕ} {found : List UInt8}
    (hfound : (bytes a n).Yields h found) : found.length = n := by
  rcases Nat.eq_zero_or_pos n with rfl | hpos
  · cases yields_pure.mp hfound
    rfl
  · rcases Nat.lt_or_ge maxReadBytes n with hmax | hmax
    · cases hfound.symm.trans (congrArg Outcome.result (bytes_oversized hmax))
    · rw [bytes_eq_fetch hpos hmax, yields_fetch] at hfound
      exact h.image.length_fetch _ _ _ hfound

theorem holds_payload {start : Address} {length : ℕ} {found : Option (Page UInt8)}
    (hfound : (payload start length o).Yields h found) :
    AllHold h object (pageOf .bytes found) := by
  refine allHold_pageOf fun p hp => holds_of_length (by decide) ?_
  obtain ⟨bs, hbs, hpage⟩ := yields_bind.mp (of_mem_whenDetailed hfound hp)
  cases yields_pure.mp hpage
  exact length_of_bytes hbs

theorem allHold_bufferBody {body : BufferBody} (hbody : (bufferBody object o).Yields h body) :
    AllHold h object body.pages := by
  obtain ⟨isNeutered, -, hbody⟩ := yields_bind.mp hbody
  split at hbody
  · cases yields_pure.mp hbody
    exact allHold_nil
  · obtain ⟨store, -, hbody⟩ := yields_bind.mp hbody
    obtain ⟨length, -, hbody⟩ := yields_bind.mp hbody
    obtain ⟨bs, hbs, hbody⟩ := yields_bind.mp hbody
    cases yields_pure.mp hbody
    exact holds_payload hbs

theorem allHold_viewBody {body : BufferBody} (hbody : (viewBody object o).Yields h body) :
    AllHold h object body.pages := by
  obtain ⟨buffer, -, hbody⟩ := yields_bind.mp hbody
  obtain ⟨isNeutered, -, hbody⟩ := yields_bind.mp hbody
  split at hbody
  · cases yields_pure.mp hbody
    exact allHold_nil
  · obtain ⟨store, -, hbody⟩ := yields_bind.mp hbody
    obtain ⟨offset, -, hbody⟩ := yields_bind.mp hbody
    obtain ⟨length, -, hbody⟩ := yields_bind.mp hbody
    obtain ⟨bs, hbs, hbody⟩ := yields_bind.mp hbody
    cases yields_pure.mp hbody
    exact holds_payload hbs

/-! ### Shapes -/

theorem allHold_arrayShape {s : Shape Node} (hs : (arrayShape inner object o).Yields h s) :
    AllHold h object s.pages := by
  obtain ⟨length, -, hs⟩ := yields_bind.mp hs
  obtain ⟨elements, helements, hs⟩ := yields_bind.mp hs
  cases yields_pure.mp hs
  refine allHold_pageOf fun p hp => holds_of_length (by decide) ?_
  obtain ⟨backing, -, hpage⟩ := yields_bind.mp (of_mem_whenDetailed helements hp)
  obtain ⟨stored, -, hpage⟩ := yields_bind.mp hpage
  exact length_elementPage hpage

theorem allHold_fixedArrayShape {s : Shape Node}
    (hs : (fixedArrayShape inner object o).Yields h s) : AllHold h object s.pages := by
  obtain ⟨length, -, hs⟩ := yields_bind.mp hs
  obtain ⟨elements, helements, hs⟩ := yields_bind.mp hs
  cases yields_pure.mp hs
  exact allHold_pageOf fun p hp => holds_of_length (by decide)
    (length_elementPage (of_mem_whenDetailed helements hp))

theorem allHold_descriptorsShape {s : Shape Node}
    (hs : (descriptorsShape inner object o).Yields h s) : AllHold h object s.pages := by
  obtain ⟨length, -, hs⟩ := yields_bind.mp hs
  obtain ⟨entries, hentries, hs⟩ := yields_bind.mp hs
  cases yields_pure.mp hs
  refine allHold_pageOf fun p hp => holds_of_length (by decide) ?_
  obtain ⟨items, hitems, hpage⟩ := yields_bind.mp (of_mem_whenDetailed hentries hp)
  cases yields_pure.mp hpage
  exact (yields_forRange.mp hitems).length_eq.symm.trans (List.length_range' ..)

/-- The window is one over the live entries, which are counted before they are listed. -/
theorem allHold_dictionaryShape {s : Shape Node}
    (hs : (dictionaryShape inner object o).Yields h s) : AllHold h object s.pages := by
  obtain ⟨capacity, -, hs⟩ := yields_bind.mp hs
  obtain ⟨entries, hentries, hs⟩ := yields_bind.mp hs
  cases yields_pure.mp hs
  refine allHold_pageOf fun p hp => holds_of_length (by decide) ?_
  obtain ⟨count, hcount, hpage⟩ := yields_bind.mp (of_mem_whenDetailed hentries hp)
  obtain ⟨found, hfound, hpage⟩ := yields_bind.mp hpage
  obtain ⟨items, hitems, hpage⟩ := yields_bind.mp hpage
  cases yields_pure.mp hpage
  obtain ⟨live, rfl, hlive⟩ := NameDictionary.yields_entries hcount
  replace hfound := (hlive _ _).mp hfound
  rw [NameDictionary.wanted_some, yields_mapM] at hfound
  have hslice := (yields_mapM.mp hitems).length_eq.symm.trans hfound.length_eq.symm
  have hfits : (Window.of o.current o.limit live.length).length ≤
      live.length - (Window.of o.current o.limit live.length).start :=
    Nat.sub_le_sub_right (Window.stop_le_total _) _
  rw [hslice, List.length_take, List.length_drop, Nat.min_eq_left hfits]

/-- Whatever shape is found, it has no pages. -/
def Pageless (h : Heap) (x : HeapM (Shape Node)) : Prop := ∀ s, x.Yields h s → s.pages = []

theorem Pageless.pure {s : Shape Node} (hs : s.pages = []) : Pageless h (Pure.pure s) :=
  fun _ hs' => yields_pure.mp hs' ▸ hs

theorem Pageless.bind {x : HeapM α} {f : α → HeapM (Shape Node)} (hf : ∀ a, Pageless h (f a)) :
    Pageless h (x >>= f) := by
  intro s hs
  obtain ⟨a, -, hs⟩ := yields_bind.mp hs
  exact hf a s hs

theorem Pageless.allHold {x : HeapM (Shape Node)} (hx : Pageless h x) {s : Shape Node}
    (hs : x.Yields h s) : AllHold h object s.pages := by
  rw [hx s hs]
  exact allHold_nil

theorem pageless_scriptShape : Pageless h (scriptShape object) := by
  refine .bind fun source => ?_
  cases source with
  | none => exact .bind fun _ => .bind fun _ => .bind fun _ => .pure rfl
  | some => exact .bind fun _ => .bind fun _ => .bind fun _ => .pure rfl

/-- The pages of what is found in an object hold what they should. -/
theorem allHold_shapeOf {s : Shape Node} (hs : (shapeOf inner kind object o).Yields h s) :
    AllHold h object s.pages := by
  cases kind with
  | error =>
    obtain ⟨body, stack, hbody, rfl⟩ := body_of_errorShape hs
    exact allHold_objectBody hbody
  | object =>
    obtain ⟨body, hbody, hs⟩ := yields_bind.mp hs
    cases yields_pure.mp hs
    exact allHold_objectBody hbody
  | regExp =>
    obtain ⟨source, -, hs⟩ := yields_bind.mp hs
    obtain ⟨body, hbody, hs⟩ := yields_bind.mp hs
    cases yields_pure.mp hs
    cases body with
    | none => exact allHold_nil
    | some body => exact allHold_objectBody (of_mem_whenDetailed hbody rfl)
  | arrayBuffer =>
    obtain ⟨body, hbody, hs⟩ := yields_bind.mp hs
    cases yields_pure.mp hs
    exact allHold_bufferBody hbody
  | arrayBufferView =>
    obtain ⟨body, hbody, hs⟩ := yields_bind.mp hs
    cases yields_pure.mp hs
    exact allHold_viewBody hbody
  | array => exact allHold_arrayShape hs
  | fixedArray => exact allHold_fixedArrayShape hs
  | descriptorArray => exact allHold_descriptorsShape hs
  | nameDictionary => exact allHold_dictionaryShape hs
  | script => exact pageless_scriptShape.allHold hs
  | number => exact (Pageless.bind fun _ => .pure rfl).allHold hs
  | sharedInfo => exact (Pageless.bind fun _ => .bind fun _ => .pure rfl).allHold hs
  | global | globalProxy | code | unknown => exact (Pageless.pure rfl).allHold hs
  | map | context | oddball | function | string | date | symbol | scopeInfo =>
    exact (Pageless.bind fun _ => .pure rfl).allHold hs

/-! ### Levels -/

variable {levels : ℕ} {ancestors : List Address} {v : Value} {n inside : Node}

theorem allHold_below (hn : (below levels ancestors v o).Yields h n) :
    AllHold h n.address n.shape.pages := by
  cases v with
  | smi =>
    cases levels <;> cases yields_pure.mp hn <;> exact allHold_nil
  | heap object =>
    cases levels with
    | zero => exact absurd hn yields_giveUp
    | succ levels =>
      obtain ⟨kind, shape, map, -, hshape, -, rfl⟩ := yields_below.mp hn
      exact allHold_shapeOf hshape

/-- What is within a node was found further down. -/
theorem exists_below_of_within (hn : (below levels ancestors v o).Yields h n)
    (hinside : Node.Within inside n) :
    ∃ levels' ancestors' v' o', (below levels' ancestors' v' o').Yields h inside := by
  induction hinside with
  | refl => exact ⟨levels, ancestors, v, o, hn⟩
  | tail _ hc ih =>
    obtain ⟨levels', ancestors', v', o', hparent⟩ := ih
    obtain ⟨-, -, levels'', v'', o'', hchild⟩ := below_child hparent hc
    exact ⟨levels'', _, v'', o'', hchild⟩

end Inspection

/-! ### Inspection -/

/-- In what inspection finds every page is full, but for pages of properties of objects that lack
descriptors, which are empty. -/
theorem inspect_isFull_iff {h : Heap} {v : Value} {o : Options} {n inside : Node}
    {listed : Listed} {page : Page Unit} (hn : (inspect v o).Yields h n)
    (hinside : Node.Within inside n) (hpage : (listed, page) ∈ inside.shape.pages) :
    (page.IsFull ↔ ¬ (listed = .properties ∧ JsObject.LacksDescriptors h inside.address)) ∧
      (¬ page.IsFull → page.count = 0) := by
  obtain ⟨levels, ancestors, v', o', hbelow⟩ := Inspection.exists_below_of_within hn hinside
  exact Inspection.allHold_below hbelow listed page hpage

/-! ### An object without descriptors -/

open Synthetic

/-- An object with one element.  Its map tells of two descriptors, and holds a number in the slot
for their array. -/
def undescribedHeap : Heap where
  layout := listedLayout (flatConstants ++ [
    (.typeJsObject, 160), (.objectProperties, 8), (.objectElements, 16),
    (.objectInternalFields, 24), (.mapInstanceSize, 8), (.mapInObjectCount, 9),
    (.mapBitField3, 16), (.mapConstructor, 24), (.mapDescriptors, 32), (.mapDictionaryMapShift, 0),
    (.mapOwnDescriptorsMask, 6), (.mapOwnDescriptorsShift, 1)])
  image := listedImage [
    (⟨0x100c⟩, Word.toBytes 2 134),
    (⟨0x1208⟩, [3, 0, 0, 0] ++ Word.toBytes 4 160 ++ wordsBytes [4, 0, 0]),
    (⟨0x2000⟩, wordsBytes [0x1001, smiWord 1, smiWord 7]),
    (⟨0x6000⟩, wordsBytes [0x1201, 0, 0x2001])]

/-- Two properties are claimed, and none are there. -/
def emptyPage : Page Unit := ⟨[], { start := 0, stop := 2, total := 2 }⟩

theorem exists_pages_undescribedHeap :
    ∃ n, (inspect (.heap ⟨0x6001⟩) shallowOptions).Yields undescribedHeap n ∧
      n.address = ⟨0x6001⟩ ∧
      n.shape.pages = [(.elements, ⟨[()], { start := 0, stop := 1, total := 1 }⟩),
        (.properties, emptyPage)] := by
  have hfound : (inspect (.heap ⟨0x6001⟩) shallowOptions undescribedHeap).result.toOption.map
      (fun n => (n.address, n.shape.pages)) =
      some (⟨0x6001⟩, [(.elements, ⟨[()], { start := 0, stop := 1, total := 1 }⟩),
        (.properties, emptyPage)]) := by
    decide +kernel
  obtain ⟨n, hn, heq⟩ := Option.map_eq_some_iff.mp hfound
  exact ⟨n, yields_iff_toOption.mpr hn, congrArg Prod.fst heq, congrArg Prod.snd heq⟩

theorem inspect_isFull_iff_undescribed :
    ∃ n, (inspect (.heap ⟨0x6001⟩) shallowOptions).Yields undescribedHeap n ∧
      Node.Within n n ∧ (.properties, emptyPage) ∈ n.shape.pages ∧
      JsObject.LacksDescriptors undescribedHeap n.address ∧ ¬ emptyPage.IsFull := by
  obtain ⟨n, hn, haddress, hpages⟩ := exists_pages_undescribedHeap
  have hpage : (.properties, emptyPage) ∈ n.shape.pages := by simp [hpages]
  have hlacks : JsObject.LacksDescriptors undescribedHeap n.address := by
    rw [haddress]
    exact ⟨⟨0x1201⟩, by decide +kernel, by decide +kernel, by decide +kernel⟩
  refine ⟨n, hn, .refl, hpage, hlacks, fun hfull => ?_⟩
  exact (inspect_isFull_iff hn .refl hpage).1.mp hfull ⟨rfl, hlacks⟩

/-- A page claims two properties and holds none. -/
theorem inspect_not_isFull :
    ∃ n page, (inspect (.heap ⟨0x6001⟩) shallowOptions).Yields undescribedHeap n ∧
      (.properties, page) ∈ n.shape.pages ∧ page.window.stop - page.window.start = 2 ∧
      page.count = 0 ∧ ¬ page.IsFull := by
  obtain ⟨n, hn, -, hpages⟩ := exists_pages_undescribedHeap
  refine ⟨n, emptyPage, hn, by simp [hpages], rfl, rfl, ?_⟩
  rw [Page.isFull_iff]
  decide

end Postmortem
