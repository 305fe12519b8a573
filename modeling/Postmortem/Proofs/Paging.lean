/-
Postmortem/Proofs/Paging.lean

Paging through an object.

A caller goes through an object page by page: each page is asked for from the
cursor on that the page before gave, up to a page that says that nothing remains
(`Walk`).  A page covers the positions between its own cursor and the next one, in
each of the three domains (`spans_page`).  Cursors meet, so the pages of a walk
cover all positions behind its cursor (`Walk.spans`), none of them twice, and
since a cursor goes up with each page, the walk ends (`exists_walk`).

So whatever an object holds is listed once and in order, on as many pages as are
needed.

Main result: `walk_listsAll`.
-/
import Postmortem.Proofs.Domains
import Postmortem.Proofs.Listing
import Postmortem.Proofs.Properties

namespace Postmortem

open HeapM

namespace Inspection

/-! ### Counts -/

/-- How many items an object has in each of its domains. -/
structure Counts where
  elements : ℕ
  properties : ℕ
  fields : ℕ

namespace Counts

def total (c : Counts) : ℕ := c.elements + c.properties + c.fields

/-- The counts are those of an object. -/
structure Of (h : Heap) (object : Address) (c : Counts) : Prop where
  elements : (JsObject.elementsLength object).Yields h c.elements
  properties : (JsObject.propertiesLength object).Yields h c.properties
  fields : (JsObject.internalFieldsLength object).Yields h c.fields

end Counts

/-- What internal field `index` of an object holds. -/
def IsField (h : Heap) (object : Address) (index : ℕ) (found : Address) : Prop :=
  (do
    let offset := (← constant .objectInternalFields) + index * (← pointerSize)
    pure ⟨← word (← fieldAddress object offset)⟩ : HeapM Address).Yields h found

theorem yields_internalFields {h : Heap} {object : Address} {w : Window} {words : List Address} :
    (JsObject.internalFields object w).Yields h words ↔
      Covers (IsField h object) w.start w.stop words :=
  yields_forRange

/-! ### Pages -/

/-- What is listed of an object from a cursor on. -/
def pageFrom (inner : Inspector) (object : Address) (o : Options) (cursor : ℕ) :
    HeapM (ObjectBody Node) :=
  objectBody inner object { o with current := cursor }

/-- The cursors that a caller comes to, starting from zero. -/
inductive Reached (h : Heap) (inner : Inspector) (object : Address) (o : Options) : ℕ → Prop
  | start : Reached h inner object o 0
  | next {cursor : ℕ} {page : ObjectBody Node} : Reached h inner object o cursor →
      (pageFrom inner object o cursor).Yields h page → page.hasMore = true →
      Reached h inner object o page.next

/-- The pages from a cursor on, up to the one behind which nothing remains. -/
inductive Walk (h : Heap) (inner : Inspector) (object : Address) (o : Options) :
    ℕ → List (ObjectBody Node) → Prop
  | last {cursor : ℕ} {page : ObjectBody Node} :
      (pageFrom inner object o cursor).Yields h page → page.hasMore = false →
      Walk h inner object o cursor [page]
  | next {cursor : ℕ} {page : ObjectBody Node} {pages : List (ObjectBody Node)} :
      (pageFrom inner object o cursor).Yields h page → page.hasMore = true →
      Walk h inner object o page.next pages → Walk h inner object o cursor (page :: pages)

/-- The later of two pages lists nothing of a domain before those that the earlier one has come
to. -/
def InOrder (earlier later : ObjectBody Node) : Prop :=
  (earlier.propertyItems ≠ [] ∨ earlier.fieldItems ≠ [] → later.elementItems = []) ∧
    (earlier.fieldItems ≠ [] → later.propertyItems = [])

/-- The pages list everything that an object holds, once and in order. -/
structure ListsAll (h : Heap) (object : Address) (limit : ℕ) (counts : Counts)
    (pages : List (ObjectBody Node)) : Prop where
  length : pages.length = max 1 ((counts.total + limit - 1) / limit)
  indices : (pages.flatMap ObjectBody.elementItems).map Element.index = List.range counts.elements
  count_properties : (pages.flatMap ObjectBody.propertyItems).length = counts.properties
  /-- The properties can also be asked for at once, if there are any. -/
  all_properties : 0 < counts.properties →
    ∃ entries, (JsObject.properties object none).Yields h entries
  keys : ∀ entries, (JsObject.properties object none).Yields h entries →
    (entries.mapM fun entry => keyText entry.1).Yields h
      ((pages.flatMap ObjectBody.propertyItems).map Property.key)
  fields : (JsObject.internalFields object (.of 0 0 counts.fields)).Yields h
    (pages.flatMap ObjectBody.fieldItems)
  inOrder : pages.Pairwise InOrder

/-! ### What pages cover -/

variable {h : Heap} {inner : Inspector} {object : Address} {o : Options} {counts : Counts}
  {IsProperty : ℕ → Property Node → Prop} {start mid stop cursor : ℕ}
  {page : ObjectBody Node} {pages pages' : List (ObjectBody Node)}

/-- The pages cover the positions from `start` to `stop` in each domain. -/
structure Spans (h : Heap) (object : Address) (counts : Counts)
    (IsProperty : ℕ → Property Node → Prop) (start stop : ℕ) (pages : List (ObjectBody Node)) :
    Prop where
  elements : Covers (fun i e => i = e.index) (Window.within 0 counts.elements start)
    (Window.within 0 counts.elements stop) (pages.flatMap ObjectBody.elementItems)
  properties : Covers IsProperty (Window.within counts.elements counts.properties start)
    (Window.within counts.elements counts.properties stop)
    (pages.flatMap ObjectBody.propertyItems)
  fields : Covers (IsField h object)
    (Window.within (counts.elements + counts.properties) counts.fields start)
    (Window.within (counts.elements + counts.properties) counts.fields stop)
    (pages.flatMap ObjectBody.fieldItems)

theorem Spans.append (hstart : start ≤ mid) (hstop : mid ≤ stop)
    (hpages : Spans h object counts IsProperty start mid pages)
    (hpages' : Spans h object counts IsProperty mid stop pages') :
    Spans h object counts IsProperty start stop (pages ++ pages') := by
  constructor <;> rw [List.flatMap_append]
  · exact hpages.elements.append (Window.within_mono hstart) (Window.within_mono hstop)
      hpages'.elements
  · exact hpages.properties.append (Window.within_mono hstart) (Window.within_mono hstop)
      hpages'.properties
  · exact hpages.fields.append (Window.within_mono hstart) (Window.within_mono hstop)
      hpages'.fields

/-- However its slot is read, an element has the index that it was asked for by. -/
theorem index_of_shown {x : HeapM Value} {i : ℕ} {e : Element Node}
    (he : (do
      let found ← x
      if ← isHole found then pure ⟨i, none⟩
      else do pure ⟨i, some (← inner found o.child)⟩ : HeapM (Element Node)).Yields h e) :
    i = e.index := by
  obtain ⟨found, -, he⟩ := yields_bind.mp he
  obtain ⟨isHole, -, he⟩ := yields_bind.mp he
  split at he
  · cases yields_pure.mp he
    rfl
  · obtain ⟨n, -, he⟩ := yields_bind.mp he
    cases yields_pure.mp he
    rfl

theorem index_of_element {array : Address} {i : ℕ} {e : Element Node}
    (he : (element inner array o i).Yields h e) : i = e.index :=
  index_of_shown he

theorem key_of_property {entry : Value × PropertySlot} {p : Property Node}
    (hp : (property inner o entry).Yields h p) : (keyText entry.1).Yields h p.key := by
  -- However the value is kept, the key is read behind it.
  have hkey (value : PropertyValue Node)
      (hp : (do pure ⟨← keyText entry.1, value⟩ : HeapM (Property Node)).Yields h p) :
      (keyText entry.1).Yields h p.key := by
    obtain ⟨key, hkey, hp⟩ := yields_bind.mp hp
    cases yields_pure.mp hp
    exact hkey
  rcases entry with ⟨key, v | d | details⟩
  · obtain ⟨n, -, hp⟩ := yields_bind.mp hp
    exact hkey _ hp
  · exact hkey _ hp
  · exact hkey _ hp

/-- A property is listed as what it is read as. -/
def IsListed (h : Heap) (inner : Inspector) (o : Options) (ready : Prop)
    (IsRead : ℕ → Value × PropertySlot → Prop) (i : ℕ) (p : Property Node) : Prop :=
  ∃ entry, (ready ∧ IsRead i entry) ∧ (property inner o entry).Yields h p

section

variable {ready : Prop} {IsRead : ℕ → Value × PropertySlot → Prop}
  (hdetailed : o.detailed = true) (hlimit : 1 ≤ o.limit) (hcounts : counts.Of h object)
  (hreads : JsObject.ReadsProperties h object counts.properties ready IsRead)
include hdetailed hlimit hcounts hreads

/-- A page covers the positions between its cursor and the next one. -/
theorem spans_page (hcursor : cursor ≤ counts.total)
    (hpage : (pageFrom inner object o cursor).Yields h page) :
    page.next = min (cursor + o.limit) counts.total ∧
      page.hasMore = decide (page.next < counts.total) ∧
      Spans h object counts (IsListed h inner o ready IsRead) cursor page.next [page] := by
  have hlists := lists_of_yields (o := { o with current := cursor }) hdetailed hpage
  have helements : page.elementsLength = counts.elements :=
    hlists.elementsLength.unique hcounts.elements
  have hproperties : page.propertiesLength = counts.properties :=
    hlists.propertiesLength.unique hcounts.properties
  have hfields : page.fieldsLength = counts.fields := hlists.fieldsLength.unique hcounts.fields
  have htotal : page.total = counts.total := by
    rw [ObjectBody.total, helements, hproperties, hfields, Counts.total]
  have hstart : (Window.of cursor o.limit page.total).start = cursor :=
    Window.start_of (hcursor.trans_eq htotal.symm)
  have hstop := Window.stop_of (hcursor.trans_eq htotal.symm) hlimit
  have hnext := hlists.next
  refine ⟨?_, ?_, ?_⟩
  · rw [hnext, hstop, htotal]
  · rw [hnext, hlists.hasMore, ← htotal]
    rfl
  rw [hnext]
  nth_rewrite 1 [← hstart]
  constructor <;> rw [List.flatMap_cons, List.flatMap_nil, List.append_nil]
  · rw [← helements]
    exact Window.covers_split <| rel_imp
      (fun _ _ _ ⟨_, _, hcovers⟩ => hcovers.imp fun _ _ he => index_of_element he) hlists.elements
  · rw [← helements, ← hproperties]
    refine Window.covers_split <| rel_imp (fun part hpart _ ⟨_, entries, hentries, hall⟩ => ?_)
      hlists.properties
    rw [hproperties] at hpart
    obtain ⟨hready, hread⟩ := (hreads.yields_window (Window.stop_le_of_mem_split hpart)).mp hentries
    exact forall₂_exists_iff.mpr ⟨entries, hread.imp fun _ _ hread => ⟨hready, hread⟩, hall⟩
  · rw [← helements, ← hproperties, ← hfields]
    exact Window.covers_split <| rel_imp
      (fun _ _ _ ⟨_, hwords⟩ => yields_internalFields.mp hwords) hlists.internalFields

theorem next_of_last (hcursor : cursor ≤ counts.total)
    (hpage : (pageFrom inner object o cursor).Yields h page) (hlast : page.hasMore = false) :
    page.next = counts.total ∧ counts.total ≤ cursor + o.limit := by
  obtain ⟨hnext, hmore, -⟩ := spans_page hdetailed hlimit hcounts hreads hcursor hpage
  have hend := of_decide_eq_false (hmore.symm.trans hlast)
  omega

theorem next_of_hasMore (hcursor : cursor ≤ counts.total)
    (hpage : (pageFrom inner object o cursor).Yields h page) (hmore : page.hasMore = true) :
    page.next = cursor + o.limit ∧ cursor + o.limit < counts.total := by
  obtain ⟨hnext, hdecide, -⟩ := spans_page hdetailed hlimit hcounts hreads hcursor hpage
  have hlt := of_decide_eq_true (hdecide.symm.trans hmore)
  omega

/-- The pages of a walk cover everything behind its cursor. -/
theorem Walk.spans (hcursor : cursor ≤ counts.total)
    (hwalk : Walk h inner object o cursor pages) :
    Spans h object counts (IsListed h inner o ready IsRead) cursor counts.total pages := by
  induction hwalk with
  | last hpage hlast =>
    obtain ⟨hnext, -⟩ := next_of_last hdetailed hlimit hcounts hreads hcursor hpage hlast
    obtain ⟨-, -, hspans⟩ := spans_page hdetailed hlimit hcounts hreads hcursor hpage
    exact hnext ▸ hspans
  | next hpage hmore _ ih =>
    obtain ⟨hnext, hlt⟩ := next_of_hasMore hdetailed hlimit hcounts hreads hcursor hpage hmore
    obtain ⟨-, -, hspans⟩ := spans_page hdetailed hlimit hcounts hreads hcursor hpage
    exact hspans.append (by omega) (by omega) (ih (by omega))

/-- A walk takes as many pages as the rest needs, and at least one. -/
theorem Walk.length_eq (hcursor : cursor ≤ counts.total)
    (hwalk : Walk h inner object o cursor pages) :
    pages.length = max 1 ((counts.total - cursor + o.limit - 1) / o.limit) := by
  induction hwalk with
  | @last cursor page hpage hlast =>
    obtain ⟨-, hle⟩ := next_of_last hdetailed hlimit hcounts hreads hcursor hpage hlast
    have hdiv : (counts.total - cursor + o.limit - 1) / o.limit < 2 :=
      Nat.div_lt_of_lt_mul (by omega)
    exact (Nat.max_eq_left (Nat.le_of_lt_succ hdiv)).symm
  | @next cursor page pages hpage hmore _ ih =>
    obtain ⟨hnext, hlt⟩ := next_of_hasMore hdetailed hlimit hcounts hreads hcursor hpage hmore
    have hrest : counts.total - cursor + o.limit - 1 =
        (counts.total - page.next + o.limit - 1) + o.limit := by omega
    have hpos : 1 ≤ (counts.total - page.next + o.limit - 1) / o.limit :=
      Nat.div_pos (by omega) hlimit
    rw [List.length_cons, ih (by omega), hrest, Nat.add_div_right _ hlimit, Nat.max_eq_right hpos,
      Nat.max_eq_right (by omega)]

/-- A page that lists something of a domain has come to the end of those before. -/
theorem inOrder_of_spans (hcursor : cursor ≤ counts.total)
    (hpage : (pageFrom inner object o cursor).Yields h page)
    (hrest : Spans h object counts (IsListed h inner o ready IsRead) page.next counts.total pages) :
    ∀ later ∈ pages, InOrder page later := by
  obtain ⟨-, -, hspans⟩ := spans_page hdetailed hlimit hcounts hreads hcursor hpage
  intro later hlater
  have hproperties (hne : page.propertyItems ≠ []) : counts.elements < page.next :=
    (Window.lt_of_covers_within hspans.properties (by simpa using hne)).1
  have hfields (hne : page.fieldItems ≠ []) : counts.elements + counts.properties < page.next :=
    (Window.lt_of_covers_within hspans.fields (by simpa using hne)).1
  have hlaterElements (hne : later.elementItems ≠ []) : page.next < 0 + counts.elements :=
    (Window.lt_of_covers_within hrest.elements
      fun hnil => hne (List.flatMap_eq_nil_iff.mp hnil later hlater)).2
  have hlaterProperties (hne : later.propertyItems ≠ []) :
      page.next < counts.elements + counts.properties :=
    (Window.lt_of_covers_within hrest.properties
      fun hnil => hne (List.flatMap_eq_nil_iff.mp hnil later hlater)).2
  refine ⟨fun hne => by_contra fun hlist => ?_, fun hne => by_contra fun hlist => ?_⟩
  · have hlt := hlaterElements hlist
    have hpast : counts.elements < page.next := by
      rcases hne with hne | hne
      · exact hproperties hne
      · exact (Nat.le_add_right ..).trans_lt (hfields hne)
    omega
  · exact absurd (hfields hne) (Nat.lt_asymm (hlaterProperties hlist))

theorem Walk.pairwise_inOrder (hcursor : cursor ≤ counts.total)
    (hwalk : Walk h inner object o cursor pages) : pages.Pairwise InOrder := by
  induction hwalk with
  | last => exact List.pairwise_singleton _ _
  | next hpage hmore hwalk ih =>
    obtain ⟨hnext, hlt⟩ := next_of_hasMore hdetailed hlimit hcounts hreads hcursor hpage hmore
    have hspans := Walk.spans hdetailed hlimit hcounts hreads (by omega) hwalk
    exact List.pairwise_cons.mpr
      ⟨inOrder_of_spans hdetailed hlimit hcounts hreads hcursor hpage hspans, ih (by omega)⟩

/-- If all pages that are come to can be read, one of them is the last. -/
theorem exists_walk (hpages : ∀ cursor, Reached h inner object o cursor →
      ∃ page, (pageFrom inner object o cursor).Yields h page)
    (hreached : Reached h inner object o cursor) (hcursor : cursor ≤ counts.total) :
    ∃ pages, Walk h inner object o cursor pages := by
  induction hleft : counts.total - cursor using Nat.strong_induction_on generalizing cursor with
  | h left ih =>
    obtain ⟨page, hpage⟩ := hpages cursor hreached
    rcases hmore : page.hasMore with - | -
    · exact ⟨[page], .last hpage hmore⟩
    · obtain ⟨hnext, hlt⟩ := next_of_hasMore hdetailed hlimit hcounts hreads hcursor hpage hmore
      obtain ⟨pages, hwalk⟩ := ih _ (by omega) (hreached.next hpage hmore) (by omega) rfl
      exact ⟨page :: pages, .next hpage hmore hwalk⟩

/-! ### Walks from the start -/

theorem Walk.listsAll (hwalk : Walk h inner object o 0 pages) :
    ListsAll h object o.limit counts pages := by
  obtain ⟨helements, hproperties, hfields⟩ :=
    hwalk.spans hdetailed hlimit hcounts hreads (Nat.zero_le _)
  simp only [Window.within_zero] at helements hproperties hfields
  rw [Window.within_of_le (by unfold Counts.total; omega)] at helements hproperties hfields
  -- The properties that are listed are those that are read, each at its own position.
  obtain ⟨entries, hentries, hlisted⟩ := forall₂_exists_iff.mp hproperties
  obtain ⟨hready, hread⟩ := (List.forall₂_and_left _ _).mp hentries
  constructor
  case length => exact hwalk.length_eq hdetailed hlimit hcounts hreads (Nat.zero_le _)
  case indices =>
    have hindices := List.forall₂_map_right_iff.mpr helements
    rw [List.forall₂_eq_eq_eq] at hindices
    rw [List.range_eq_range']
    exact hindices.symm
  case count_properties => exact hproperties.length
  case all_properties =>
    intro hpos
    exact ⟨entries, hreads.yields_all.mpr ⟨hready 0 (by simp [hpos]), hread⟩⟩
  case keys =>
    intro entries' hentries'
    have hall := hreads.yields_all.mpr ⟨(hreads.yields_all.mp hentries').1, hread⟩
    rw [hentries'.unique hall, yields_mapM, List.forall₂_map_right_iff]
    exact hlisted.imp fun _ _ => key_of_property
  case fields =>
    rw [yields_internalFields]
    simpa [Window.of] using hfields
  case inOrder => exact hwalk.pairwise_inOrder hdetailed hlimit hcounts hreads (Nat.zero_le _)

end

/-- Where every page that a caller comes to can be read, the walk ends, and its pages list
everything that the object holds. -/
theorem walk_listsAll (hdetailed : o.detailed = true) (hlimit : 1 ≤ o.limit)
    (hstore : ¬ JsObject.LacksDescriptors h object)
    (hpages : ∀ cursor, Reached h inner object o cursor →
      ∃ page, (pageFrom inner object o cursor).Yields h page) :
    ∃ counts : Counts, counts.Of h object ∧ (∃ pages, Walk h inner object o 0 pages) ∧
      ∀ pages, Walk h inner object o 0 pages → ListsAll h object o.limit counts pages := by
  obtain ⟨page, hpage⟩ := hpages 0 .start
  have hlists := lists_of_yields (o := { o with current := 0 }) hdetailed hpage
  obtain ⟨ready, IsRead, hreads⟩ :=
    JsObject.exists_readsProperties hlists.propertiesLength hstore
  have hcounts : Counts.Of h object
      ⟨page.elementsLength, page.propertiesLength, page.fieldsLength⟩ :=
    ⟨hlists.elementsLength, hlists.propertiesLength, hlists.fieldsLength⟩
  exact ⟨_, hcounts,
    exists_walk hdetailed hlimit hcounts hreads hpages .start (Nat.zero_le _),
    fun _ hwalk => hwalk.listsAll hdetailed hlimit hcounts hreads⟩

/-! ### Pages across domains -/

open Synthetic

/-- An object with two elements, the second a hole; with a dictionary of three entries, of which the
second is dead; and with one internal field. -/
def pagedHeap : Heap where
  layout := listedLayout (flatConstants ++ [
    (.typeOddball, 150), (.oddballKind, 8), (.oddballTheHole, 3), (.typeJsObject, 160),
    (.objectProperties, 8), (.objectElements, 16), (.objectInternalFields, 24),
    (.mapInstanceSize, 8), (.mapInObjectCount, 9), (.mapBitField3, 16), (.mapConstructor, 24),
    (.mapDictionaryMapShift, 0), (.dictionaryPrefixStart, 0), (.dictionaryPrefixSize, 0),
    (.dictionaryEntrySize, 2)])
  image := listedImage [
    (⟨0x100c⟩, Word.toBytes 2 134), (⟨0x110c⟩, Word.toBytes 2 8), (⟨0x130c⟩, Word.toBytes 2 150),
    (⟨0x1208⟩, [4, 0, 0, 0] ++ Word.toBytes 4 160 ++ wordsBytes [1, 0]),
    (⟨0x2000⟩, wordsBytes [0x1001, smiWord 2, smiWord 7, 0x3001]),
    (⟨0x3000⟩, wordsBytes [0x1301, smiWord 3]),
    (⟨0x4000⟩, wordsBytes [0x1001, smiWord 6, smiWord 5, smiWord 1, 0x3001, 0, 0x5001, 0x5001]),
    (⟨0x5000⟩, headerBytes 0x1101 2 ++ [0x68, 0x69]),
    (⟨0x6000⟩, wordsBytes [0x1201, 0x4001, 0x2001, 0xbeef])]

/-- Three items a page. -/
def pagedOptions : Options := { shallowOptions with limit := 3 }

theorem exists_page_pagedHeap {cursor : ℕ}
    (hreached : Reached pagedHeap (below 2 [⟨0x6001⟩]) ⟨0x6001⟩ pagedOptions cursor) :
    ∃ page, (pageFrom (below 2 [⟨0x6001⟩]) ⟨0x6001⟩ pagedOptions cursor).Yields pagedHeap page := by
  have hfirst : ((pageFrom (below 2 [⟨0x6001⟩]) ⟨0x6001⟩ pagedOptions 0
      pagedHeap).result.toOption.map fun page => (page.next, page.hasMore)) = some (3, true) := by
    decide +kernel
  have hlast : ((pageFrom (below 2 [⟨0x6001⟩]) ⟨0x6001⟩ pagedOptions 3
      pagedHeap).result.toOption.map fun page => (page.next, page.hasMore)) = some (5, false) := by
    decide +kernel
  -- A caller comes to the cursors zero and three only.
  have hcursor : cursor = 0 ∨ cursor = 3 := by
    induction hreached with
    | start => exact .inl rfl
    | @next cursor page _ hpage hmore ih =>
      rcases ih with rfl | rfl
      · rw [yields_iff_toOption.mp hpage] at hfirst
        exact .inr (congrArg Prod.fst (Option.some.inj hfirst))
      · rw [yields_iff_toOption.mp hpage] at hlast
        exact absurd ((congrArg Prod.snd (Option.some.inj hlast)).symm.trans hmore) (by decide)
  rcases hcursor with rfl | rfl
  · obtain ⟨page, hpage, -⟩ := Option.map_eq_some_iff.mp hfirst
    exact ⟨page, yields_iff_toOption.mpr hpage⟩
  · obtain ⟨page, hpage, -⟩ := Option.map_eq_some_iff.mp hlast
    exact ⟨page, yields_iff_toOption.mpr hpage⟩

theorem walk_listsAll_threeDomains :
    pagedOptions.detailed = true ∧ 1 ≤ pagedOptions.limit ∧
      ¬ JsObject.LacksDescriptors pagedHeap ⟨0x6001⟩ ∧
      (∀ cursor, Reached pagedHeap (below 2 [⟨0x6001⟩]) ⟨0x6001⟩ pagedOptions cursor →
        ∃ page, (pageFrom (below 2 [⟨0x6001⟩]) ⟨0x6001⟩ pagedOptions cursor).Yields pagedHeap
          page) ∧
      ∃ pages, Walk pagedHeap (below 2 [⟨0x6001⟩]) ⟨0x6001⟩ pagedOptions 0 pages ∧
        ListsAll pagedHeap ⟨0x6001⟩ 3 ⟨2, 2, 1⟩ pages := by
  have hstore : ¬ JsObject.LacksDescriptors pagedHeap ⟨0x6001⟩ := by
    rintro ⟨map, hmap, hmode, -⟩
    have hmap' : (Map.of ⟨0x6001⟩).Yields pagedHeap ⟨0x1201⟩ := by decide +kernel
    have hmode' : (Map.isDictionary ⟨0x1201⟩).Yields pagedHeap true := by decide +kernel
    cases hmap.unique hmap'
    cases hmode.unique hmode'
  obtain ⟨⟨elements, properties, fields⟩, hcounts, ⟨pages, hwalk⟩, hall⟩ :=
    walk_listsAll (o := pagedOptions) rfl (by decide) hstore fun _ => exists_page_pagedHeap
  have helements : (JsObject.elementsLength ⟨0x6001⟩).Yields pagedHeap 2 := by decide +kernel
  have hproperties : (JsObject.propertiesLength ⟨0x6001⟩).Yields pagedHeap 2 := by decide +kernel
  have hfields : (JsObject.internalFieldsLength ⟨0x6001⟩).Yields pagedHeap 1 := by decide +kernel
  cases hcounts.elements.unique helements
  cases hcounts.properties.unique hproperties
  cases hcounts.fields.unique hfields
  exact ⟨rfl, by decide, hstore, fun _ => exists_page_pagedHeap, pages, hwalk, hall pages hwalk⟩

end Inspection

end Postmortem
