/-
Postmortem/Proofs/Excerpts.lean

Reading a long text window by window.

Both ends of a window are found in the same way.  Going on from a position, the
first boundary between characters is where `takeBytes` stops (`isFirstBoundary_takeBytes`),
and taking bytes behind what was taken is taking more at once (`takeBytes_add`).  So
a window starts at the first boundary from the cursor on and stops at the first one
at which the limit is reached (`window_eq`), also where the cursor is inside a
character or behind the text.

A caller goes on from where the window before stopped, which is a boundary.  Windows
meet, then, and with each of them the cursor goes up by the limit at least: the
reading ends, and what was shown on the way is the text (`Reading.join`).

Main result: `string_readings`.
-/
import Mathlib.Order.Bounds.Basic
import Postmortem.Proofs.FailClosed

namespace Postmortem

open HeapM

/-! ### Boundaries -/

/-- The first boundary between characters of a text from a position on; the end of the text, if the
position is behind it. -/
def IsFirstBoundary (text : String) (position boundary : ℕ) : Prop :=
  IsLeast {b | (⟨b⟩ : String.Pos.Raw).IsValid text ∧ min position text.utf8ByteSize ≤ b} boundary

namespace Utf8

variable {c : Char} {cs : List Char} {m n : ℕ}

@[simp] theorem size_nil : size [] = 0 := rfl

@[simp] theorem size_cons : size (c :: cs) = c.utf8Size + size cs := rfl

@[simp] theorem size_append (cs cs' : List Char) : size (cs ++ cs') = size cs + size cs' := by
  induction cs with
  | nil => simp
  | cons c cs ih => simp [ih, Nat.add_assoc]

theorem utf8ByteSize_ofList (cs : List Char) : (String.ofList cs).utf8ByteSize = size cs := by
  induction cs with
  | nil => rfl
  | cons c cs ih =>
    rw [String.ofList_cons, String.utf8ByteSize_append, String.utf8ByteSize_singleton, ih,
      size_cons]

theorem size_toList (text : String) : size text.toList = text.utf8ByteSize := by
  rw [← utf8ByteSize_ofList, String.ofList_toList]

theorem takeBytes_zero (cs : List Char) : takeBytes 0 cs = [] := by
  cases cs <;> rfl

theorem takeBytes_nil (n : ℕ) : takeBytes n [] = [] := by
  cases n <;> rfl

theorem takeBytes_cons (hn : 0 < n) :
    takeBytes n (c :: cs) = c :: takeBytes (n - c.utf8Size) cs := by
  cases n with
  | zero => omega
  | succ n => rfl

theorem dropBytes_zero (cs : List Char) : dropBytes 0 cs = cs := by
  cases cs <;> rfl

theorem dropBytes_cons (hn : 0 < n) : dropBytes n (c :: cs) = dropBytes (n - c.utf8Size) cs := by
  cases n with
  | zero => omega
  | succ n => rfl

theorem min_le_size_takeBytes (n : ℕ) (cs : List Char) :
    min n (size cs) ≤ size (takeBytes n cs) := by
  induction cs generalizing n with
  | nil => simp
  | cons c cs ih =>
    rcases Nat.eq_zero_or_pos n with rfl | hn
    · simp
    · have hrest := ih (n - c.utf8Size)
      rw [takeBytes_cons hn, size_cons, size_cons]
      omega

/-- At most three bytes more are taken than asked for. -/
theorem size_takeBytes_le (n : ℕ) (cs : List Char) : size (takeBytes n cs) ≤ n + 3 := by
  induction cs generalizing n with
  | nil => simp [takeBytes_nil]
  | cons c cs ih =>
    rcases Nat.eq_zero_or_pos n with rfl | hn
    · simp [takeBytes_zero]
    · have hwidth := c.utf8Size_le_four
      have hrest := ih (n - c.utf8Size)
      rw [takeBytes_cons hn, size_cons]
      by_cases hle : c.utf8Size ≤ n
      · omega
      · rw [Nat.sub_eq_zero_of_le (by omega), takeBytes_zero]
        simp only [size_nil]
        omega

/-- No boundary that is far enough comes before where `takeBytes` stops. -/
theorem size_takeBytes_le_of_append {before after : List Char} (hcs : before ++ after = cs)
    (hn : min n (size cs) ≤ size before) : size (takeBytes n cs) ≤ size before := by
  induction cs generalizing n before with
  | nil => simp [takeBytes_nil]
  | cons c cs ih =>
    rcases Nat.eq_zero_or_pos n with rfl | hpos
    · simp [takeBytes_zero]
    · have hwidth := c.utf8Size_pos
      cases before with
      | nil =>
        simp only [size_nil, size_cons] at hn
        omega
      | cons d before =>
        obtain ⟨rfl, hrest⟩ := List.cons.inj hcs
        rw [takeBytes_cons hpos, size_cons, size_cons]
        simp only [size_cons] at hn
        exact Nat.add_le_add_left (ih hrest (by omega)) _

/-- Taking bytes behind what was taken is taking more at once. -/
theorem takeBytes_add (m n : ℕ) (cs : List Char) :
    takeBytes (size (takeBytes m cs) + n) cs = takeBytes m cs ++ takeBytes n (dropBytes m cs) := by
  induction cs generalizing m with
  | nil => cases m <;> simp [takeBytes_nil, dropBytes]
  | cons c cs ih =>
    rcases Nat.eq_zero_or_pos m with rfl | hm
    · rw [takeBytes_zero, size_nil, Nat.zero_add]
      rfl
    · have hwidth := c.utf8Size_pos
      have hsum : c.utf8Size + size (takeBytes (m - c.utf8Size) cs) + n - c.utf8Size =
          size (takeBytes (m - c.utf8Size) cs) + n := by omega
      rw [takeBytes_cons hm, dropBytes_cons hm, size_cons, takeBytes_cons (by omega), hsum, ih,
        List.cons_append]

theorem isValid_iff (text : String) (p : ℕ) :
    (⟨p⟩ : String.Pos.Raw).IsValid text ↔
      ∃ before after, before ++ after = text.toList ∧ size before = p := by
  rw [String.Pos.Raw.isValid_iff_exists_append]
  constructor
  · rintro ⟨before, after, rfl, hp⟩
    refine ⟨before.toList, after.toList, String.toList_append.symm, ?_⟩
    rw [size_toList]
    exact (congrArg String.Pos.Raw.byteIdx hp).symm
  · rintro ⟨before, after, htext, rfl⟩
    refine ⟨String.ofList before, String.ofList after, ?_, ?_⟩
    · rw [← String.ofList_append, htext, String.ofList_toList]
    · rw [← utf8ByteSize_ofList]
      rfl

/-- `takeBytes` stops at the first boundary. -/
theorem isFirstBoundary_takeBytes (text : String) (n : ℕ) :
    IsFirstBoundary text n (size (takeBytes n text.toList)) := by
  constructor
  · refine ⟨(isValid_iff ..).mpr ⟨_, _, takeBytes_append_dropBytes n text.toList, rfl⟩, ?_⟩
    rw [← size_toList]
    exact min_le_size_takeBytes ..
  · rintro b ⟨hb, hle⟩
    obtain ⟨before, after, htext, rfl⟩ := (isValid_iff ..).mp hb
    rw [← size_toList] at hle
    exact size_takeBytes_le_of_append htext hle

theorem eq_nil_of_size_eq_zero (hcs : size cs = 0) : cs = [] := by
  cases cs with
  | nil => rfl
  | cons c cs =>
    have hwidth := c.utf8Size_pos
    rw [size_cons] at hcs
    omega

theorem dropBytes_size_append (before after : List Char) :
    dropBytes (size before) (before ++ after) = after := by
  induction before with
  | nil => exact dropBytes_zero after
  | cons c before ih =>
    have hwidth := c.utf8Size_pos
    rw [size_cons, List.cons_append, dropBytes_cons (by omega), Nat.add_sub_cancel_left, ih]

theorem size_takeBytes_add (n : ℕ) (cs : List Char) :
    size (takeBytes n cs) + size (dropBytes n cs) = size cs := by
  rw [← size_append, takeBytes_append_dropBytes]

/-- What is left behind a window is left when its bytes are dropped behind what was dropped. -/
theorem dropBytes_add (m n : ℕ) (cs : List Char) :
    dropBytes (size (takeBytes m cs) + size (takeBytes n (dropBytes m cs))) cs =
      dropBytes n (dropBytes m cs) := by
  have hcs : takeBytes m cs ++ takeBytes n (dropBytes m cs) ++
      dropBytes n (dropBytes m cs) = cs := by
    rw [List.append_assoc, takeBytes_append_dropBytes, takeBytes_append_dropBytes]
  have hdrop := dropBytes_size_append (takeBytes m cs ++ takeBytes n (dropBytes m cs))
    (dropBytes n (dropBytes m cs))
  rwa [hcs, size_append] at hdrop

/-- The bytes of the characters between two others. -/
theorem toByteArray_between {text : String} {before taken after : List Char}
    (htext : before ++ taken ++ after = text.toList) :
    (String.ofList taken).toByteArray =
      text.toByteArray.extract (size before) (size before + size taken) := by
  have hbytes : text.toByteArray = (String.ofList before).toByteArray ++
      (String.ofList taken).toByteArray ++ (String.ofList after).toByteArray := by
    rw [← String.toByteArray_append, ← String.ofList_append, ← String.toByteArray_append,
      ← String.ofList_append, htext, String.ofList_toList]
  have hbefore : (String.ofList before).toByteArray.size = size before := by
    rw [String.size_toByteArray, utf8ByteSize_ofList]
  have htaken : (String.ofList taken).toByteArray.size = size taken := by
    rw [String.size_toByteArray, utf8ByteSize_ofList]
  rw [hbytes, ByteArray.append_assoc, ByteArray.extract_append, hbefore,
    ByteArray.extract_eq_empty_iff.mpr (by omega), Nat.sub_self, Nat.add_sub_cancel_left,
    ByteArray.empty_append, ByteArray.extract_append_eq_left htaken.symm]

end Utf8

/-! ### Windows -/

namespace Excerpt

/-- What is shown of the text itself: without the dots that say there is more. -/
def undotted (e : Excerpt) : String :=
  if e.hasMore then String.ofList (e.shown.toList.take (e.shown.toList.length - 3)) else e.shown

/-- The excerpt is the window of a text at a cursor, from `start` to `stop`. -/
structure IsWindow (e : Excerpt) (text : String) (current limit start stop : ℕ) : Prop where
  starts : IsFirstBoundary text current start
  stops : IsFirstBoundary text (start + limit) stop
  covers : min limit (text.utf8ByteSize - start) ≤ stop - start
  within : stop - start ≤ limit + 3
  bytes : e.undotted.toByteArray = text.toByteArray.extract start stop
  shown : e.shown = e.undotted ++ if e.hasMore then "..." else ""
  length : e.length = text.utf8ByteSize
  next : e.next = some stop
  hasMore : e.hasMore = decide (stop < text.utf8ByteSize)

section

open Utf8

variable {text : String} {current limit : ℕ}

/-- A window starts behind the bytes before its cursor, and takes its bytes from there. -/
theorem window_eq (cs : List Char) (current limit : ℕ) :
    window cs current limit =
      let taken := takeBytes limit (dropBytes current cs)
      let stop := size (takeBytes current cs) + size taken
      ⟨dotted taken (stop < size cs), size cs, some stop, stop < size cs⟩ := by
  have hsize := size_takeBytes_add current cs
  unfold window
  dsimp only
  split
  case isTrue hle =>
    have hstart := min_le_size_takeBytes current cs
    have hrest : dropBytes current cs = [] := eq_nil_of_size_eq_zero (by omega)
    have hstop : size (takeBytes current cs) = size cs := by
      rw [hrest, size_nil] at hsize
      exact hsize
    rw [hrest, takeBytes_nil, size_nil, Nat.add_zero, hstop]
    simp [dotted]
  case isFalse => rw [← hsize, Nat.add_sub_cancel]

@[simp] theorem undotted_dotted (cs : List Char) (length : ℕ) (next : Option ℕ) (hasMore : Bool) :
    undotted ⟨dotted cs hasMore, length, next, hasMore⟩ = String.ofList cs := by
  cases hasMore <;> simp [undotted, dotted]

theorem undotted_window (cs : List Char) (current limit : ℕ) :
    (window cs current limit).undotted =
      String.ofList (takeBytes limit (dropBytes current cs)) := by
  rw [window_eq]
  exact undotted_dotted ..

theorem isWindow_window (text : String) (current limit : ℕ) :
    ∃ start stop, (window text.toList current limit).IsWindow text current limit start stop := by
  have hcs := takeBytes_append_dropBytes limit (dropBytes current text.toList)
  have hsize := size_takeBytes_add current text.toList
  have hstop : size (takeBytes (size (takeBytes current text.toList) + limit) text.toList) =
      size (takeBytes current text.toList) +
        size (takeBytes limit (dropBytes current text.toList)) := by
    rw [takeBytes_add, size_append]
  refine ⟨_, _, isFirstBoundary_takeBytes text current, hstop ▸ isFirstBoundary_takeBytes text _,
    ?_, ?_, ?_, ?_, ?_, ?_, ?_⟩
  · have hcovers := min_le_size_takeBytes limit (dropBytes current text.toList)
    rw [← size_toList]
    omega
  · have hwithin := size_takeBytes_le limit (dropBytes current text.toList)
    omega
  · have htext : takeBytes current text.toList ++ takeBytes limit (dropBytes current text.toList) ++
        dropBytes limit (dropBytes current text.toList) = text.toList := by
      rw [List.append_assoc, hcs, takeBytes_append_dropBytes]
    rw [undotted_window]
    exact toByteArray_between htext
  · rw [undotted_window, window_eq]
    dsimp only [dotted]
    split
    case isTrue => exact String.ofList_append
    case isFalse => exact String.append_empty.symm
  · rw [window_eq, size_toList]
  · rw [window_eq]
  · rw [window_eq, size_toList]

end

end Excerpt

/-! ### Readings -/

section

variable {h : Heap} {word object : Address} {text : String} {o : Options} {cursor : ℕ}
  {pages : List Excerpt}

/-- The windows of a text that a caller is shown who starts at a cursor and goes on behind each of
them as long as there is more. -/
inductive Reading (h : Heap) (word : Address) (o : Options) : ℕ → List Excerpt → Prop where
  | last {cursor : ℕ} {address : Address} {map : Option Address} {e : Excerpt}
      (shows : (inspectWord word { o with current := cursor }).Yields h
        (.mk address map (.string e)))
      (ends : e.hasMore = false) : Reading h word o cursor [e]
  | next {cursor behind : ℕ} {address : Address} {map : Option Address} {e : Excerpt}
      {pages : List Excerpt}
      (shows : (inspectWord word { o with current := cursor }).Yields h
        (.mk address map (.string e)))
      (goesOn : e.hasMore = true) (leads : e.next = some behind)
      (rest : Reading h word o behind pages) : Reading h word o cursor (e :: pages)

theorem yields_text_of_stringOf (hword : Value.classify h.layout word.word = .heap object)
    (htext : (stringOf word).Yields h text) : (JsString.text object).Yields h text := by
  rw [stringOf, Yields.bind_iff (yields_layout.mpr rfl), hword] at htext
  obtain ⟨found, hfound, htext⟩ := yields_bind.mp htext
  obtain ⟨isString, -, hfound⟩ := yields_bind.mp hfound
  cases isString with
  | false =>
    cases yields_pure.mp hfound
    exact absurd htext yields_fail
  | true =>
    obtain ⟨read, hread, hfound⟩ := yields_bind.mp hfound
    cases yields_pure.mp hfound
    cases yields_pure.mp htext
    exact hread

theorem exists_shownMap_of_kind {kind : Kind} (hkind : (Kind.of object).Yields h kind) :
    ∃ map, (Inspection.shownMap object o).Yields h map := by
  obtain ⟨map, hmap⟩ := Kind.exists_map_of_yields hkind
  unfold Inspection.shownMap
  split
  · exact ⟨some map, hmap.bind (yields_pure.mpr rfl)⟩
  · exact ⟨none, yields_pure.mpr rfl⟩

/-- A string is shown by an excerpt of its text. -/
theorem inspectWord_string (hword : Value.classify h.layout word.word = .heap object)
    (hkind : (Kind.of object).Yields h .string) (htext : (stringOf word).Yields h text) :
    ∃ map, (inspectWord word o).Yields h
      (.mk object map (.string (.of text o.current o.limit o.maxTextLength))) := by
  obtain ⟨map, hmap⟩ := exists_shownMap_of_kind (o := o) hkind
  have hstring := yields_text_of_stringOf hword htext
  refine ⟨map, Yields.bind (yields_layout.mpr rfl) ?_⟩
  rw [hword]
  exact Inspection.yields_below.mpr
    ⟨.string, _, map, hkind, hstring.bind (yields_pure.mpr rfl), hmap, rfl⟩

variable (hword : Value.classify h.layout word.word = .heap object)
  (hkind : (Kind.of object).Yields h .string) (htext : (stringOf word).Yields h text)
  (hlimit : 1 ≤ o.limit)

include hword hkind htext hlimit

theorem inspectWord_window (cursor : ℕ) :
    ∃ map, (inspectWord word { o with current := cursor }).Yields h
      (.mk object map (.string (.window text.toList cursor o.limit))) := by
  obtain ⟨map, hmap⟩ := inspectWord_string (o := { o with current := cursor }) hword hkind htext
  refine ⟨map, ?_⟩
  rwa [Excerpt.of, if_neg (by dsimp only; omega)] at hmap

theorem eq_window_of_yields {address : Address} {map : Option Address} {e : Excerpt}
    (he : (inspectWord word { o with current := cursor }).Yields h (.mk address map (.string e))) :
    e = .window text.toList cursor o.limit := by
  obtain ⟨map', hmap'⟩ := inspectWord_window hword hkind htext hlimit cursor
  cases he.unique hmap'
  rfl

/-- Reading on from a cursor ends: each window moves it on. -/
theorem exists_reading (cursor : ℕ) : ∃ pages, Reading h word o cursor pages := by
  induction hleft : text.utf8ByteSize - cursor using Nat.strong_induction_on
    generalizing cursor with
  | _ left ih =>
    obtain ⟨map, hmap⟩ := inspectWord_window hword hkind htext hlimit cursor
    obtain ⟨start, stop, hwindow⟩ := Excerpt.isWindow_window text cursor o.limit
    have hmore := hwindow.hasMore
    by_cases hstop : stop < text.utf8ByteSize
    · rw [decide_eq_true hstop] at hmore
      have hstart : min cursor text.utf8ByteSize ≤ start := hwindow.starts.1.2
      have hmoves : min (start + o.limit) text.utf8ByteSize ≤ stop := hwindow.stops.1.2
      obtain ⟨pages, hpages⟩ := ih _ (by omega) stop rfl
      exact ⟨_, .next hmap hmore hwindow.next hpages⟩
    · rw [decide_eq_false hstop] at hmore
      exact ⟨_, .last hmap hmore⟩

namespace Reading

/-- What is read from a cursor on is the text behind it. -/
theorem join (hread : Reading h word o cursor pages) :
    String.join (pages.map Excerpt.undotted) =
      String.ofList (Utf8.dropBytes cursor text.toList) := by
  induction hread with
  | @last cursor address map e hshows hends =>
    obtain rfl := eq_window_of_yields hword hkind htext hlimit hshows
    have hsize := Utf8.size_takeBytes_add cursor text.toList
    have hrest := Utf8.size_takeBytes_add o.limit (Utf8.dropBytes cursor text.toList)
    rw [Excerpt.window_eq] at hends
    have hstop := of_decide_eq_false hends
    have hnil : Utf8.dropBytes o.limit (Utf8.dropBytes cursor text.toList) = [] :=
      Utf8.eq_nil_of_size_eq_zero (by omega)
    have htaken := Utf8.takeBytes_append_dropBytes o.limit (Utf8.dropBytes cursor text.toList)
    rw [hnil, List.append_nil] at htaken
    rw [List.map_singleton, Excerpt.undotted_window, htaken]
    simp
  | @next cursor behind address map e pages hshows _ hleads _ ih =>
    obtain rfl := eq_window_of_yields hword hkind htext hlimit hshows
    rw [Excerpt.window_eq] at hleads
    obtain rfl := Option.some.inj hleads
    rw [List.map_cons, String.join_cons, ih, Utf8.dropBytes_add, Excerpt.undotted_window,
      ← String.ofList_append, Utf8.takeBytes_append_dropBytes]

theorem isWindow (hread : Reading h word o cursor pages) :
    ∀ e ∈ pages, ∃ current start stop, e.IsWindow text current o.limit start stop := by
  have hwindow {cursor : ℕ} {address : Address} {map : Option Address} {e : Excerpt}
      (he : (inspectWord word { o with current := cursor }).Yields h
        (.mk address map (.string e))) :
      ∃ start stop, e.IsWindow text cursor o.limit start stop :=
    eq_window_of_yields hword hkind htext hlimit he ▸ Excerpt.isWindow_window text cursor o.limit
  induction hread with
  | last hshows _ =>
    intro e he
    obtain rfl := List.mem_singleton.mp he
    exact ⟨_, hwindow hshows⟩
  | next hshows _ _ _ ih =>
    intro e he
    rcases List.mem_cons.mp he with rfl | he
    · exact ⟨_, hwindow hshows⟩
    · exact ih e he

end Reading

/-- Reading a string from the start on ends, each page is a window of its text, and together they
are the text.  From any cursor a window is shown. -/
theorem string_readings :
    (∃ pages, Reading h word o 0 pages) ∧
      (∀ pages, Reading h word o 0 pages →
        String.join (pages.map Excerpt.undotted) = text ∧
        ∀ e ∈ pages, ∃ current start stop, e.IsWindow text current o.limit start stop) ∧
      ∀ current, ∃ map e start stop,
        (inspectWord word { o with current := current }).Yields h (.mk object map (.string e)) ∧
          e.IsWindow text current o.limit start stop := by
  refine ⟨exists_reading hword hkind htext hlimit 0, ?_, ?_⟩
  · intro pages hread
    refine ⟨?_, hread.isWindow hword hkind htext hlimit⟩
    rw [hread.join hword hkind htext hlimit, Utf8.dropBytes_zero, String.ofList_toList]
  · intro current
    obtain ⟨map, hmap⟩ := inspectWord_window hword hkind htext hlimit current
    obtain ⟨start, stop, hwindow⟩ := Excerpt.isWindow_window text current o.limit
    exact ⟨map, _, start, stop, hmap, hwindow⟩

end

open Synthetic

/-- A string of two-byte units: a letter, a letter of two bytes, a character of four, a letter. -/
def wideHeap : Heap where
  layout := listedLayout (flatConstants ++ [(.stringTwoByteChars, 16)])
  image := listedImage [
    (⟨0x100c⟩, Word.toBytes 2 0),
    (⟨0x2000⟩, headerBytes 0x1001 5 ++
      [0x61, 0xe9, 0xd83d, 0xde00, 0x62].flatMap (Word.toBytes 2))]

/-- The cursor of the single window is inside a letter, and its limit is reached inside the
character behind it. -/
theorem string_readings_wide :
    (stringOf ⟨0x2001⟩).Yields wideHeap "aé😀b" ∧
      (∃ pages, Reading wideHeap ⟨0x2001⟩ { Options.default with limit := 2 } 0 pages ∧
        String.join (pages.map Excerpt.undotted) = "aé😀b") ∧
      ∃ map e start stop,
        (inspectWord ⟨0x2001⟩ { Options.default with current := 2, limit := 2 }).Yields wideHeap
          (.mk ⟨0x2001⟩ map (.string e)) ∧
        e.IsWindow "aé😀b" 2 2 start stop := by
  have hword : Value.classify wideHeap.layout 0x2001 = .heap ⟨0x2001⟩ := by decide +kernel
  have hkind : (Kind.of ⟨0x2001⟩).Yields wideHeap .string := by decide +kernel
  have htext : (stringOf ⟨0x2001⟩).Yields wideHeap "aé😀b" := by decide +kernel
  obtain ⟨⟨pages, hread⟩, hjoin, hwindow⟩ :=
    string_readings (o := { Options.default with limit := 2 }) hword hkind htext (by decide)
  exact ⟨htext, ⟨pages, hread, (hjoin pages hread).1⟩, hwindow 2⟩

end Postmortem
