/-
Postmortem/Proofs/Payloads.lean

The bytes behind buffers and views.

The bytes of a buffer are where its store is.  Those of a view are some way into the
store of its buffer, or, where that buffer has no store, some way from the place that
the elements of the view tell, a base plus an external pointer, which may go all
around the memory (`Attached`).  The request for details is clamped to the length on
record, and what is left of it is one request for bytes, or none (`payloadWindow`,
`shapeOf_eq_bytes`).

What the memory has at an address is told by a relation that every answer of the
image agrees with (`Image.Serves`).  So the items of the page are said to be the bytes
at the addresses counted from the data, whatever was asked for at once, and the
document of a node that shows them lists two digits for each (`Spells`).

Main result: `shapeOf_payload`.
-/
import Postmortem.Proofs.Neutered
import Postmortem.Proofs.Windowing

namespace Postmortem

open HeapM

variable {h : Heap} {object view buffer data start store : Address} {kind : Kind} {o : Options}
  {offset : Option ℕ} {length : ℕ} {holds : Address → UInt8 → Prop} {w : Window}
  {bytes : List UInt8}

/-! ### What a memory has -/

/-- What is found at an address is held there. -/
def Image.Serves (m : Image) (holds : Address → UInt8 → Prop) : Prop :=
  ∀ a n bytes, m.fetch a n = some bytes → ∀ k < n, ∃ b, holds (a.offset k) b ∧ bytes[k]? = some b

namespace Synthetic

/-- One of the blocks has a byte for an address. -/
def BlocksHold (blocks : List (Address × List UInt8)) (a : Address) (b : UInt8) : Prop :=
  ∃ block ∈ blocks, ∃ i : ℕ, a = block.1.offset i ∧ block.2[i]? = some b

theorem serves_listedImage (blocks : List (Address × List UInt8)) :
    (listedImage blocks).Serves (BlocksHold blocks) := by
  intro a n bytes hfetch k hk
  obtain ⟨block, hblock, hpart⟩ := List.exists_of_findSome?_eq_some hfetch
  unfold blockPart at hpart
  dsimp only at hpart
  split at hpart
  case isFalse => cases hpart
  case isTrue hle =>
    obtain ⟨hle, hfit⟩ := hle
    cases hpart
    have hlt : a.word.toNat - block.1.word.toNat + k < block.2.length := by omega
    refine ⟨block.2[a.word.toNat - block.1.word.toNat + k],
      ⟨block, hblock, _, ?_, List.getElem?_eq_getElem hlt⟩, ?_⟩
    · have hdistance : ((a.word.toNat - block.1.word.toNat + k : ℕ) : ℤ) =
          a.word.toNat - block.1.word.toNat + k := by
        rw [Nat.cast_add, Nat.cast_sub (UInt64.le_iff_toNat_le.mp hle)]
      rw [hdistance, ← Address.offset_offset, Address.offset_distance]
    · rw [List.getElem?_take_of_lt hk, List.getElem?_drop, List.getElem?_eq_getElem hlt]

end Synthetic

/-! ### Outcomes -/

namespace HeapM

variable {α β : Type}

/-- What is done with a result takes no reads. -/
theorem bind_pure_run (x : HeapM α) (f : α → β) :
    (x >>= fun a => pure (f a)) h = (x h).map f := by
  rcases hresult : (x h).result with e | a
  · rw [bind_error hresult, Outcome.map_of_error hresult]
  · rw [bind_ok hresult, Outcome.map_of_ok hresult, pure_run]

end HeapM

/-! ### Data -/

namespace ArrayBufferView

/-- Where the data of a view starts, by what is on record: at the store of its buffer, or where its
elements say if there is none. -/
inductive HasData (h : Heap) (view buffer : Address) : Address → Prop
  | stored {store : Address} : (ArrayBuffer.backingStore buffer).Yields h store →
      store ≠ .null → HasData h view buffer store
  | elements {elements : Address} {base external : UInt64} :
      (ArrayBuffer.backingStore buffer).Yields h .null →
      (pointer view .objectElements).Yields h elements →
      (fieldWord elements .fixedTypedArrayBasePointer).Yields h base →
      (fieldWord elements .fixedTypedArrayExternalPointer).Yields h external →
      HasData h view buffer ⟨base + external⟩

theorem alike_isNeutered : Alike h h (ArrayBuffer.isNeutered buffer) := by
  have hagree : AgreeOnFlag h h buffer .arrayBuffer buffer := .refl
  exact hagree.alike_isNeutered

theorem alike_backingStore : Alike h h (ArrayBuffer.backingStore buffer) :=
  alike_fieldWord.bind fun _ => .pure

theorem alike_store : Alike h h (ArrayBufferView.store view buffer) :=
  alike_backingStore.bind fun _ =>
    .ite ((alike_pointer rfl rfl).bind fun _ => alike_fieldWord.bind fun _ =>
      alike_fieldWord.bind fun _ => .pure) .pure

theorem HasData.yields (hdata : HasData h view buffer data) :
    (ArrayBufferView.store view buffer).Yields h data := by
  cases hdata with
  | stored hstore hne =>
    have hnull : data.isNull ≠ true := fun hnull => hne (congrArg Address.mk (eq_of_beq hnull))
    exact hstore.bind (if_neg hnull ▸ yields_pure.mpr rfl)
  | elements hstore helements hbase hexternal =>
    exact hstore.bind (helements.bind (hbase.bind (hexternal.bind (yields_pure.mpr rfl))))

/-- What a view is found to lead to is where its data starts. -/
theorem hasData_of_yields (hdata : (ArrayBufferView.store view buffer).Yields h data) :
    HasData h view buffer data := by
  obtain ⟨store, hstore, hdata⟩ := yields_bind.mp hdata
  split at hdata
  case isTrue hnull =>
    obtain ⟨elements, helements, hdata⟩ := yields_bind.mp hdata
    obtain ⟨base, hbase, hdata⟩ := yields_bind.mp hdata
    obtain ⟨external, hexternal, hdata⟩ := yields_bind.mp hdata
    cases yields_pure.mp hdata
    obtain rfl : store = .null := congrArg Address.mk (eq_of_beq hnull)
    exact .elements hstore helements hbase hexternal
  case isFalse hnot =>
    cases yields_pure.mp hdata
    refine .stored hstore fun hnull => hnot ?_
    rw [hnull]
    rfl

end ArrayBufferView

/-- What is on record of a buffer or a view that was not given away: where its data starts, how far
into the data its bytes start, if it is a view, and how many there are. -/
inductive Attached (h : Heap) (object : Address) : Kind → Address → Option ℕ → ℕ → Prop
  | buffer {store : Address} {length : ℕ} :
      (ArrayBuffer.isNeutered object).Yields h false →
      (ArrayBuffer.backingStore object).Yields h store →
      (ArrayBuffer.byteLength object).Yields h length →
      Attached h object .arrayBuffer store none length
  | view {buffer data : Address} {offset length : ℕ} :
      (ArrayBufferView.buffer object).Yields h buffer →
      (ArrayBuffer.isNeutered buffer).Yields h false →
      ArrayBufferView.HasData h object buffer data →
      (ArrayBufferView.byteOffset object).Yields h offset →
      (ArrayBufferView.byteLength object).Yields h length →
      Attached h object .arrayBufferView data (some offset) length

/-- What a buffer or a view is shown as. -/
def Kind.bufferShape : Kind → BufferBody → Shape Node
  | .arrayBuffer, body => .arrayBuffer body
  | _, body => .arrayBufferView body

namespace Inspection

variable {inner : Inspector}

/-- The bytes that are asked for: where there is no limit, as many as there may be characters. -/
def payloadWindow (o : Options) (length : ℕ) : Window :=
  .of o.current (if o.limit = 0 then o.maxTextLength else o.limit) length

/-- A buffer or view that is shown with a page of bytes. -/
def payloadShape (kind : Kind) (data : Address) (offset : Option ℕ) (length : ℕ) (w : Window)
    (bytes : List UInt8) : Shape Node :=
  kind.bufferShape (.attached data offset length (some ⟨bytes, w⟩))

/-! ### Texts -/

/-- The two digits of a byte, the high one first. -/
def digitPair (b : UInt8) : String :=
  String.ofList [Word.hexDigit (b.toNat / 16), Word.hexDigit (b.toNat % 16)]

theorem byteText_eq_digitPair (b : UInt8) : byteText b = digitPair b := by
  have hlow : Word.hexDigit b.toNat = Word.hexDigit (b.toNat % 16) := by
    rw [Word.hexDigit, Word.hexDigit, Nat.mod_mod]
  rw [digitPair, ← hlow]
  rfl

/-- The documents of nodes of a shape list what is held from an address on, a pair of digits for
each byte of the window. -/
def Spells (holds : Address → UInt8 → Prop) (start : Address) (w : Window) (shape : Shape Node) :
    Prop :=
  ∃ texts : List String,
    (∀ address mapAddress, ∃ fields, (Node.mk address mapAddress shape).document = .record fields ∧
      ("bytes", Page.document .text ⟨texts, w⟩) ∈ fields) ∧
    texts.length = w.length ∧
    ∀ k < w.length, ∃ b, holds (start.offset k) b ∧ texts[k]? = some (digitPair b)

/-- The fields of a shape, in documents of what is inside, are fields of the document of a node. -/
theorem exists_document_eq (address : Address) (mapAddress : Option Address) {shape : Shape Node}
    {field : String × Document} (hfield : field ∈ (shape.map Node.document).fields) :
    ∃ fields, (Node.mk address mapAddress shape).document = .record fields ∧ field ∈ fields := by
  refine ⟨_, Node.fold_mk .., ?_⟩
  exact List.mem_append_right _ (List.mem_cons_of_mem _ hfield)

theorem mem_fields_payloadShape (kind : Kind) (data : Address) (offset : Option ℕ) (length : ℕ)
    (w : Window) (bytes : List UInt8) :
    ("bytes", Page.document .text ⟨bytes.map byteText, w⟩) ∈
      ((payloadShape kind data offset length w bytes).map Node.document).fields := by
  have hpage : Page.document .text ⟨bytes.map byteText, w⟩ =
      Page.document (fun b => .text (byteText b)) ⟨bytes, w⟩ := by
    simp only [Page.document, Page.count, Page.next, List.map_map, List.length_map]
    rfl
  rw [hpage]
  cases kind <;> simp [payloadShape, Kind.bufferShape, Shape.map, Shape.fields, BufferBody.fields,
    Document.optional]

theorem spells_payloadShape (hlength : bytes.length = w.length)
    (hholds : ∀ k < w.length, ∃ b, holds (start.offset k) b ∧ bytes[k]? = some b) :
    Spells holds start w (payloadShape kind data offset length w bytes) := by
  refine ⟨bytes.map byteText, fun address mapAddress => exists_document_eq address mapAddress
    (mem_fields_payloadShape ..), ?_, ?_⟩
  · rw [List.length_map, hlength]
  · intro k hk
    obtain ⟨b, hb, hget⟩ := hholds k hk
    refine ⟨b, hb, ?_⟩
    rw [List.getElem?_map, hget, Option.map_some, byteText_eq_digitPair]

/-! ### Pages -/

/-- What is read to show the bytes is those of the window. -/
theorem payload_bind (hdetailed : o.detailed = true) :
    (do let found ← payload start length o
        pure (kind.bufferShape (.attached data offset length found)) : HeapM (Shape Node)) = (do
      let bytes ← HeapM.bytes (start.offset (payloadWindow o length).start)
        (payloadWindow o length).length
      pure (payloadShape kind data offset length (payloadWindow o length) bytes)) := by
  refine (whenDetailed_bind hdetailed _ _).trans ?_
  simp only [bind_assoc, pure_bind]
  rfl

/-- What is read to show a buffer or a view, beside what is on record of it, is the bytes of the
window. -/
theorem shapeOf_eq_bytes (hdetailed : o.detailed = true)
    (hattached : Attached h object kind data offset length) :
    shapeOf inner kind object o h = (do
      let bytes ← HeapM.bytes (data.offset (offset.getD 0 + (payloadWindow o length).start : ℕ))
        (payloadWindow o length).length
      pure (payloadShape kind data offset length (payloadWindow o length) bytes) :
        HeapM (Shape Node)) h := by
  -- What is on record stands in fields, and fields are no requests for bytes.
  cases hattached with
  | buffer hflag hstore hlength =>
    have hbody : bufferBody object o h = (do
        let found ← payload data length o
        pure (.attached data none length found) : HeapM BufferBody) h := by
      refine (ArrayBufferView.alike_isNeutered.bind_eq hflag).trans ?_
      refine (ArrayBufferView.alike_backingStore.bind_eq hstore).trans ?_
      exact alike_count.bind_eq hlength
    refine (bind_congr hbody fun _ _ => rfl).trans ?_
    rw [bind_assoc, Option.getD_none, Nat.zero_add, ← payload_bind hdetailed]
    rfl
  | @view buffer _ offset _ hbuffer hflag hdata hoffset hlength =>
    have hbody : viewBody object o h = (do
        let found ← payload (data.offset offset) length o
        pure (.attached data (some offset) length found) : HeapM BufferBody) h := by
      refine ((alike_pointer rfl rfl).bind_eq hbuffer).trans ?_
      refine (ArrayBufferView.alike_isNeutered.bind_eq hflag).trans ?_
      refine (ArrayBufferView.alike_store.bind_eq hdata.yields).trans ?_
      refine (alike_count.bind_eq hoffset).trans ?_
      exact alike_count.bind_eq hlength
    refine (bind_congr hbody fun _ _ => rfl).trans ?_
    rw [bind_assoc, Option.getD_some, Nat.cast_add, ← Address.offset_offset,
      ← payload_bind hdetailed]
    rfl

/-- What becomes of the bytes that `w` covers, the first of which is at `start`.  If there are none,
nothing is asked for, and too many are refused; else there is one request for all of them. -/
structure ShowsPayload (h : Heap) (holds : Address → UInt8 → Prop) (start : Address) (w : Window)
    (shape : List UInt8 → Shape Node) (found : Outcome (Shape Node)) : Prop where
  empty : w.length = 0 → found = .of (.ok (shape [])) ∧ Spells holds start w (shape [])
  served : 0 < w.length → w.length ≤ maxReadBytes → ∀ bytes,
    h.image.fetch start w.length = some bytes →
      found = .after [⟨start, w.length⟩] (.ok (shape bytes)) ∧ Spells holds start w (shape bytes)
  lost : 0 < w.length → w.length ≤ maxReadBytes → h.image.fetch start w.length = none →
    found = .after [⟨start, w.length⟩] (.error (.unreadable start w.length))
  oversized : maxReadBytes < w.length →
    found = .of (.error (.shape (.oversizedRead w.length start)))

/-- **What is shown of a buffer or a view is what is in memory behind it.**  Item `k` of the page is
the byte `k` behind the start of the window, and that is counted from the start of the view, and
that from the data, wherever they were found. -/
theorem shapeOf_payload (hdetailed : o.detailed = true)
    (hattached : Attached h object kind data offset length) (hserves : h.image.Serves holds) :
    ShowsPayload h holds (data.offset (offset.getD 0 + (payloadWindow o length).start : ℕ))
      (payloadWindow o length) (payloadShape kind data offset length (payloadWindow o length))
      (shapeOf inner kind object o h) := by
  rw [shapeOf_eq_bytes hdetailed hattached, bind_pure_run]
  -- From here on it does not matter where the window and its start come from.
  generalize payloadWindow o length = w
  generalize data.offset (offset.getD 0 + w.start : ℕ) = start
  constructor
  case empty =>
    intro hzero
    have hnone :
        ∀ k < w.length, ∃ b, holds (start.offset k) b ∧ ([] : List UInt8)[k]? = some b := by
      intro k hk
      omega
    refine ⟨?_, spells_payloadShape hzero.symm hnone⟩
    rw [hzero, bytes_zero]
    rfl
  case served =>
    intro hpos hmax bytes hfetch
    refine ⟨?_, spells_payloadShape (h.image.length_fetch _ _ _ hfetch)
      (hserves _ _ _ hfetch)⟩
    rw [bytes_eq_fetch hpos hmax, fetch, hfetch]
    rfl
  case lost =>
    intro hpos hmax hfetch
    rw [bytes_eq_fetch hpos hmax, fetch, hfetch]
    rfl
  case oversized =>
    intro hmax
    rw [bytes_oversized hmax]
    rfl

/-! ### Bytes in the heap -/

open Synthetic

/-- A view of four bytes, its elements, its buffer, which has no store, and six bytes of data. -/
def roundBlocks : List (Address × List UInt8) := [
  (⟨0x2000⟩, wordsBytes [0x1001, 0, 0, 0, 0, 0]),
  (⟨0x3000⟩, wordsBytes [0x1101, 0, 0x4001, 0x2001, 1, 4]),
  (⟨0x4000⟩, wordsBytes [0x1201, smiWord 6, 0xfffffffffffff000, 0x6000]),
  (⟨0x5000⟩, [0xde, 0xad, 0xbe, 0xef, 0x01, 0x02])]

/-- The heap of that view.  Base and external pointer go around the memory. -/
def roundView : Heap where
  layout := listedLayout (flatConstants ++ [
    (.bufferWasNeuteredMask, 8), (.bufferBackingStore, 24), (.bufferBitField, 40),
    (.viewBuffer, 24), (.viewByteOffset, 32), (.viewByteLength, 40), (.objectElements, 16),
    (.fixedTypedArrayBasePointer, 16), (.fixedTypedArrayExternalPointer, 24)])
  image := listedImage roundBlocks

/-- Details from the second byte on, of two bytes, as there is no limit. -/
def cappedOptions : Options := { shallowOptions with current := 1, maxTextLength := 2 }

theorem attached_roundView :
    Attached roundView ⟨0x3001⟩ .arrayBufferView ⟨0x5000⟩ (some 1) 4 := by
  have hbuffer : (ArrayBufferView.buffer ⟨0x3001⟩).Yields roundView ⟨0x2001⟩ := by decide +kernel
  have helements : (pointer ⟨0x3001⟩ .objectElements).Yields roundView ⟨0x4001⟩ := by
    decide +kernel
  have hbase : (fieldWord ⟨0x4001⟩ .fixedTypedArrayBasePointer).Yields roundView
      0xfffffffffffff000 := by decide +kernel
  have hexternal : (fieldWord ⟨0x4001⟩ .fixedTypedArrayExternalPointer).Yields roundView
      0x6000 := by decide +kernel
  exact .view hbuffer (by decide +kernel)
    (.elements (by decide +kernel) helements hbase hexternal) (by decide +kernel)
    (by decide +kernel)

/-- The third and the fourth byte of the data are shown of it. -/
theorem shapeOf_payload_roundView :
    shapeOf (below 0 []) .arrayBufferView ⟨0x3001⟩ cappedOptions roundView =
        .after [⟨⟨0x5002⟩, 2⟩] (.ok (payloadShape .arrayBufferView ⟨0x5000⟩ (some 1) 4
          (payloadWindow cappedOptions 4) [0xbe, 0xef])) ∧
      Spells (BlocksHold roundBlocks) ⟨0x5002⟩ (payloadWindow cappedOptions 4)
        (payloadShape .arrayBufferView ⟨0x5000⟩ (some 1) 4 (payloadWindow cappedOptions 4)
          [0xbe, 0xef]) :=
  (shapeOf_payload (o := cappedOptions) rfl attached_roundView
    (serves_listedImage roundBlocks)).served (by decide) (by decide) [0xbe, 0xef]
    (by decide +kernel)

end Inspection

end Postmortem
