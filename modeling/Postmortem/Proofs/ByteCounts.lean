/-
Postmortem/Proofs/ByteCounts.lean

How many bytes of a buffer are shown.

What is shown of a buffer or a view in detail is one window of its bytes, and these
bytes are asked for at once or not at all, so as many are read as are shown.  A limit
bounds the window.  Where there is none, the length of texts takes its place.

But it is handed on as a limit, and a limit of zero runs to the end
(`Window.length_of_zero`).  So where texts may have no characters at all, nothing is
capped, and all bytes from the cursor on are shown.

Main result: `shapeOf_shownBytes`.
-/
import Postmortem.Proofs.Pages
import Postmortem.Proofs.Payloads

namespace Postmortem

open HeapM

/-! ### Counts -/

/-- How many bytes were asked for, over all requests. -/
def Outcome.bytesAsked {α : Type} (o : Outcome α) : ℕ := (o.byteReads.map ByteRead.length).sum

namespace BufferBody

/-- The bytes that are shown. -/
def shownBytes : BufferBody → List UInt8
  | neutered => []
  | attached _ _ _ page => page.elim [] Page.items

/-- How many bytes there are, as far as is on record. -/
def recordedLength : BufferBody → ℕ
  | neutered => 0
  | attached _ _ length _ => length

end BufferBody

/-! ### Windows -/

namespace Window

variable {current limit total : ℕ}

theorem length_of_le (hlimit : 0 < limit) : (of current limit total).length ≤ limit := by
  show max (min current total) (if limit = 0 then total else min (current + limit) total) -
    min current total ≤ limit
  rw [if_neg hlimit.ne']
  omega

/-- A limit of zero runs to the end. -/
theorem length_of_zero : (of current 0 total).length = total - current := by
  show max (min current total) (if 0 = 0 then total else min (current + 0) total) -
    min current total = total - current
  rw [if_pos rfl]
  omega

end Window

/-! ### Requests -/

variable {h : Heap} {object : Address} {kind : Kind} {o : Options} {shape : Shape Node}

/-- All bytes that are found were asked for, and no others. -/
theorem HeapM.bytesAsked_bytes {a : Address} {n : ℕ} {found : List UInt8}
    (hfound : (bytes a n).Yields h found) : (bytes a n h).bytesAsked = found.length := by
  have hlength : found.length = n := Inspection.length_of_bytes hfound
  rw [hlength]
  rcases Nat.eq_zero_or_pos n with rfl | hpos
  · rfl
  · rcases Nat.lt_or_ge maxReadBytes n with hmax | hmax
    · cases hfound.symm.trans (congrArg Outcome.result (bytes_oversized hmax))
    · rw [bytes_eq_fetch hpos hmax] at hfound ⊢
      rw [fetch, yields_fetch.mp hfound]
      rfl

namespace Inspection

variable {inner : Inspector}

theorem neutered_or_attached_buffer
    (hshape : (shapeOf inner .arrayBuffer object o).Yields h shape) :
    shapeOf inner .arrayBuffer object o h = .of (.ok (.arrayBuffer .neutered)) ∨
      ∃ data length, Attached h object .arrayBuffer data none length := by
  obtain ⟨body, hbody, -⟩ := yields_bind.mp hshape
  obtain ⟨isNeutered, hflag, hrest⟩ := yields_bind.mp hbody
  cases isNeutered with
  | true =>
    left
    have hneutered : bufferBody object o h = .of (.ok .neutered) :=
      ArrayBufferView.alike_isNeutered.bind_eq hflag
    show (bufferBody object o >>= fun body => pure (Shape.arrayBuffer body)) h = _
    rw [bind_pure_run, hneutered]
    rfl
  | false =>
    right
    obtain ⟨store, hstore, hrest⟩ := yields_bind.mp hrest
    obtain ⟨length, hlength, -⟩ := yields_bind.mp hrest
    exact ⟨store, length, .buffer hflag hstore hlength⟩

theorem neutered_or_attached_view
    (hshape : (shapeOf inner .arrayBufferView object o).Yields h shape) :
    shapeOf inner .arrayBufferView object o h = .of (.ok (.arrayBufferView .neutered)) ∨
      ∃ data offset length, Attached h object .arrayBufferView data (some offset) length := by
  obtain ⟨body, hbody, -⟩ := yields_bind.mp hshape
  obtain ⟨buffer, hbuffer, hrest⟩ := yields_bind.mp hbody
  obtain ⟨isNeutered, hflag, hrest⟩ := yields_bind.mp hrest
  cases isNeutered with
  | true =>
    left
    have hneutered : viewBody object o h = .of (.ok .neutered) :=
      ((alike_pointer rfl rfl).bind_eq hbuffer).trans
        (ArrayBufferView.alike_isNeutered.bind_eq hflag)
    show (viewBody object o >>= fun body => pure (Shape.arrayBufferView body)) h = _
    rw [bind_pure_run, hneutered]
    rfl
  | false =>
    right
    obtain ⟨data, hdata, hrest⟩ := yields_bind.mp hrest
    obtain ⟨offset, hoffset, hrest⟩ := yields_bind.mp hrest
    obtain ⟨length, hlength, -⟩ := yields_bind.mp hrest
    exact ⟨data, offset, length,
      .view hbuffer hflag (ArrayBufferView.hasData_of_yields hdata) hoffset hlength⟩

theorem neutered_or_attached (hkind : kind = .arrayBuffer ∨ kind = .arrayBufferView)
    (hshape : (shapeOf inner kind object o).Yields h shape) :
    shapeOf inner kind object o h = .of (.ok (kind.bufferShape .neutered)) ∨
      ∃ data offset length, Attached h object kind data offset length := by
  rcases hkind with rfl | rfl
  · refine (neutered_or_attached_buffer hshape).imp_right ?_
    rintro ⟨data, length, hattached⟩
    exact ⟨data, none, length, hattached⟩
  · refine (neutered_or_attached_view hshape).imp_right ?_
    rintro ⟨data, offset, length, hattached⟩
    exact ⟨data, some offset, length, hattached⟩

theorem bytesAsked_pure_bind {α β : Type} {x : HeapM α} (f : α → β) :
    ((x >>= fun a => pure (f a)) h).bytesAsked = (x h).bytesAsked := by
  rw [bind_pure_run]
  rfl

/-- Of what is on record, the bytes of the window are read, and shown. -/
theorem shownBytes_of_attached {data : Address} {offset : Option ℕ} {length : ℕ}
    (hdetailed : o.detailed = true) (hattached : Attached h object kind data offset length)
    (hshape : (shapeOf inner kind object o).Yields h shape) :
    ∃ bytes, shape = payloadShape kind data offset length (payloadWindow o length) bytes ∧
      bytes.length = (payloadWindow o length).length ∧
      (shapeOf inner kind object o h).bytesAsked = bytes.length := by
  have hrun : shapeOf inner kind object o h = _ := shapeOf_eq_bytes hdetailed hattached
  rw [Yields, hrun] at hshape
  obtain ⟨bytes, hbytes, hpure⟩ := yields_bind.mp hshape
  refine ⟨bytes, (yields_pure.mp hpure).symm, length_of_bytes hbytes, ?_⟩
  rw [hrun, bytesAsked_pure_bind, bytesAsked_bytes hbytes]

/-- **What is shown of a buffer or a view is what was read of it, and no more than was asked for**,
unless neither the limit nor the length of texts says how much that is: then it is all there is from
the cursor on. -/
theorem shapeOf_shownBytes (hkind : kind = .arrayBuffer ∨ kind = .arrayBufferView)
    (hdetailed : o.detailed = true) (hshape : (shapeOf inner kind object o).Yields h shape) :
    ∃ body, shape = kind.bufferShape body ∧
      (shapeOf inner kind object o h).bytesAsked = body.shownBytes.length ∧
      (0 < o.limit → body.shownBytes.length ≤ o.limit) ∧
      (o.limit = 0 → 0 < o.maxTextLength → body.shownBytes.length ≤ o.maxTextLength) ∧
      (o.limit = 0 → o.maxTextLength = 0 →
        body.shownBytes.length = body.recordedLength - o.current) := by
  rcases neutered_or_attached hkind hshape with hneutered | ⟨data, offset, length, hattached⟩
  · have hresult : shape = kind.bufferShape .neutered :=
      hshape.unique (congrArg Outcome.result hneutered)
    refine ⟨.neutered, hresult, ?_, fun _ => Nat.zero_le _, fun _ _ => Nat.zero_le _, fun _ _ => ?_⟩
    · rw [hneutered]
      rfl
    · exact (Nat.zero_sub _).symm
  · obtain ⟨bytes, hresult, hlength, hasked⟩ :=
      shownBytes_of_attached hdetailed hattached hshape
    refine ⟨_, hresult, hasked, ?_, ?_, ?_⟩
    · intro hlimit
      show bytes.length ≤ o.limit
      rw [hlength, payloadWindow, if_neg hlimit.ne']
      exact Window.length_of_le hlimit
    · intro hlimit hcap
      show bytes.length ≤ o.maxTextLength
      rw [hlength, payloadWindow, if_pos hlimit]
      exact Window.length_of_le hcap
    · intro hlimit hcap
      show bytes.length = length - o.current
      rw [hlength, payloadWindow, if_pos hlimit, hcap]
      exact Window.length_of_zero

/-! ### A buffer of four bytes -/

open Synthetic

def storedBuffer : Heap where
  layout := bufferLayout
  image := listedImage (bufferMaps ++ [
    (⟨0x2000⟩, wordsBytes [0x1001, 0, 0, 0x5000, 4, 0]),
    (⟨0x5000⟩, [0xde, 0xad, 0xbe, 0xef])])

/-- Details without a limit, where texts have so many characters. -/
def cappedAt (maxTextLength : ℕ) : Options :=
  { shallowOptions with maxTextLength := maxTextLength }

/-- What is shown of the buffer. -/
def storedShape (maxTextLength : ℕ) (bytes : List UInt8) : Shape Node :=
  payloadShape .arrayBuffer ⟨0x5000⟩ none 4 (payloadWindow (cappedAt maxTextLength) 4) bytes

theorem yields_storedShape (maxTextLength : ℕ) (bytes : List UInt8)
    (hbytes : (HeapM.bytes ⟨0x5000⟩ (payloadWindow (cappedAt maxTextLength) 4).length).Yields
      storedBuffer bytes) :
    (shapeOf (below 0 []) .arrayBuffer ⟨0x2001⟩ (cappedAt maxTextLength)).Yields storedBuffer
      (storedShape maxTextLength bytes) := by
  have hattached : Attached storedBuffer ⟨0x2001⟩ .arrayBuffer ⟨0x5000⟩ none 4 :=
    .buffer (by decide +kernel) (by decide +kernel) (by decide +kernel)
  rw [Yields, shapeOf_eq_bytes rfl hattached]
  exact hbytes.bind (yields_pure.mpr rfl)

/-- Where texts have two characters, two bytes are read and shown. -/
theorem shapeOf_shownBytes_two :
    (shapeOf (below 0 []) .arrayBuffer ⟨0x2001⟩ (cappedAt 2)).Yields storedBuffer
        (storedShape 2 [0xde, 0xad]) ∧
      ∃ body, storedShape 2 [0xde, 0xad] = .arrayBuffer body ∧
        (shapeOf (below 0 []) .arrayBuffer ⟨0x2001⟩ (cappedAt 2) storedBuffer).bytesAsked =
          body.shownBytes.length ∧
        body.shownBytes.length ≤ 2 := by
  have hshape := yields_storedShape 2 [0xde, 0xad] (by decide +kernel)
  obtain ⟨body, hbody, hasked, -, hcap, -⟩ := shapeOf_shownBytes (.inl rfl) rfl hshape
  exact ⟨hshape, body, hbody, hasked, hcap rfl (by decide)⟩

/-- Where texts have no characters, all four bytes are shown. -/
theorem shapeOf_shownBytes_gt :
    ∃ body, (shapeOf (below 0 []) .arrayBuffer ⟨0x2001⟩ (cappedAt 0)).Yields storedBuffer
        (.arrayBuffer body) ∧
      (cappedAt 0).detailed = true ∧ (cappedAt 0).limit = 0 ∧
      (cappedAt 0).maxTextLength < body.shownBytes.length :=
  ⟨_, yields_storedShape 0 [0xde, 0xad, 0xbe, 0xef] (by decide +kernel), rfl, rfl, by decide⟩

end Inspection

end Postmortem
