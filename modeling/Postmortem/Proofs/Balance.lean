/-
Postmortem/Proofs/Balance.lean

A decoder is never left inside an object.

A computation of a decoder is compared with one that only reads the heap
(`Mirrors`): it has the same outcome and leaves the decoder as it was.  What runs
`within` an object is such a mirror, whether it fails or not, as long as what runs
inside is one (`mirrors_within`).  All
else that is found in an object is made of reads and of the values inside, so the
comparison goes through every kind of object (`mirrors_shapeOf`) and through every
level (`mirrors_valueWithin`).

The map of an object is shown after what failed inside is known and before it is
told.  That makes no difference, because no object has a kind without having a map.

Main result: `serveAll_eq`.
-/
import Postmortem.Decoder
import Postmortem.Proofs.Alike
import Postmortem.Proofs.Excerpts

namespace Postmortem

open HeapM

namespace DecoderM

variable {α β γ : Type} {d : Decoder} {h : Heap} {x : DecoderM α} {y : HeapM α}
  {object : Address}

/-- `x` finds what `y` finds and leaves the decoder as it was. -/
def Mirrors (d : Decoder) (h : Heap) (x : DecoderM α) (y : HeapM α) : Prop := x d h = (y h, d)

/-! ### Steps -/

theorem mirrors_pure {a : α} : Mirrors d h (pure a) (pure a) := rfl

theorem mirrors_read {y : HeapM α} : Mirrors d h (y : DecoderM α) y := rfl

theorem Mirrors.andThen {f : α → DecoderM β} {g : α → HeapM β} (hx : Mirrors d h x y)
    (hf : ∀ a, y.Yields h a → Mirrors d h (f a) (g a)) : Mirrors d h (x >>= f) (y >>= g) := by
  show DecoderM.bind x f d h = _
  unfold DecoderM.bind
  rw [show x d h = (y h, d) from hx]
  rcases hy : (y h).result with e | a
  · simp only [hy, HeapM.bind_error hy]
  · simp only [hy, HeapM.bind_ok hy, show f a d h = (g a h, d) from hf a hy]

theorem Mirrors.bind {f : α → DecoderM β} {g : α → HeapM β} (hx : Mirrors d h x y)
    (hf : ∀ a, Mirrors d h (f a) (g a)) : Mirrors d h (x >>= f) (y >>= g) :=
  hx.andThen fun a _ => hf a

theorem Mirrors.mapM {f : γ → DecoderM α} {g : γ → HeapM α} (hf : ∀ c, Mirrors d h (f c) (g c))
    (items : List γ) : Mirrors d h (items.mapM f) (items.mapM g) := by
  unfold List.mapM
  generalize ([] : List α) = found
  induction items generalizing found with
  | nil => exact mirrors_pure
  | cons item items ih => exact (hf item).bind fun a => ih (a :: found)

theorem Mirrors.forRange {f : ℕ → DecoderM α} {g : ℕ → HeapM α} {start count : ℕ}
    (hf : ∀ i, Mirrors d h (f i) (g i)) :
    Mirrors d h (MonadHeap.forRange start f count) (MonadHeap.forRange start g count) := by
  show Mirrors d h ((List.range' start count).mapM f) (HeapM.forRange start g count)
  rw [forRange_eq_mapM]
  exact .mapM hf _

theorem Mirrors.option {f : γ → DecoderM α} {g : γ → HeapM α} (hf : ∀ c, Mirrors d h (f c) (g c))
    (found : Option γ) : Mirrors d h (found.mapM f) (found.mapM g) := by
  cases found with
  | none => exact mirrors_pure
  | some c => exact (hf c).bind fun _ => mirrors_pure

theorem Mirrors.ite {p : Prop} [Decidable p] {x' : DecoderM α} {y' : HeapM α}
    (hx : Mirrors d h x y) (hx' : Mirrors d h x' y') :
    Mirrors d h (if p then x else x') (if p then y else y') := by
  split
  · exact hx
  · exact hx'

/-! ### Places -/

theorem mirrors_bind_entered {f : List Address → DecoderM α} {y : HeapM α}
    (hf : Mirrors d h (f d.ancestors) y) : Mirrors d h (entered >>= f) y := by
  have hx : Mirrors d h entered (pure d.ancestors) := rfl
  rw [← pure_bind d.ancestors fun _ => y]
  refine hx.andThen fun found hfound => ?_
  rwa [← yields_pure.mp hfound]

/-- Whatever becomes of `x` inside an object, the decoder is outside again. -/
theorem mirrors_within {x : DecoderM α} {y : HeapM α} (hx : Mirrors (d.enter object) h x y) :
    Mirrors d h (within object x) (HeapM.attempt y) := by
  unfold Mirrors within
  rw [show x _ h = _ from hx]
  rfl

end DecoderM

open DecoderM

namespace Inspection

variable {d : Decoder} {h : Heap} {inner : Value → Options → DecoderM Node} {inner' : Inspector}
  {object : Address} {o : Options}

/-! ### Objects of each kind -/

theorem mirrors_whenDetailed {α : Type} {x : DecoderM α} {y : HeapM α} (hx : Mirrors d h x y) :
    Mirrors d h (whenDetailed o x) (whenDetailed o y) :=
  .ite (hx.bind fun _ => mirrors_pure) mirrors_pure

theorem mirrors_domainPage {α : Type} {w : Option Window} {x : Window → DecoderM (Page α)}
    {y : Window → HeapM (Page α)} (hx : ∀ w, Mirrors d h (x w) (y w)) :
    Mirrors d h (domainPage w x) (domainPage w y) := by
  cases w with
  | none => exact mirrors_pure
  | some w => exact (hx w).bind fun _ => mirrors_pure

variable (hinner : ∀ v o, Mirrors d h (inner v o) (inner' v o))
include hinner

theorem mirrors_elementPage {w : Window} :
    Mirrors d h (elementPage inner object o w) (elementPage inner' object o w) := by
  refine .bind (.forRange fun i => ?_) fun _ => mirrors_pure
  refine mirrors_read.bind fun found => mirrors_read.bind fun hole => .ite mirrors_pure ?_
  exact (hinner found o.child).bind fun _ => mirrors_pure

theorem mirrors_property (entry : Value × PropertySlot) :
    Mirrors d h (property inner o entry) (property inner' o entry) := by
  obtain ⟨key, slot⟩ := entry
  cases slot with
  | value v =>
    exact (hinner v o.child).bind fun _ => mirrors_pure.bind fun _ => mirrors_read.bind fun _ =>
      mirrors_pure
  | double => exact mirrors_pure.bind fun _ => mirrors_read.bind fun _ => mirrors_pure
  | unsupported => exact mirrors_pure.bind fun _ => mirrors_read.bind fun _ => mirrors_pure

theorem mirrors_descriptor (index : ℕ) :
    Mirrors d h (descriptor inner object o index) (descriptor inner' object o index) := by
  refine mirrors_read.bind fun entry => ?_
  cases entry.storage with
  | descriptor =>
    exact mirrors_read.bind fun v => (hinner v o.child).bind fun _ => mirrors_pure.bind fun _ =>
      mirrors_read.bind fun _ => mirrors_pure
  | field => exact mirrors_pure.bind fun _ => mirrors_read.bind fun _ => mirrors_pure
  | unsupported => exact mirrors_pure.bind fun _ => mirrors_read.bind fun _ => mirrors_pure

theorem mirrors_dictionaryEntry (entry : Value × Value) :
    Mirrors d h (dictionaryEntry inner o entry) (dictionaryEntry inner' o entry) :=
  mirrors_read.bind fun _ => (hinner entry.2 o.child).bind fun _ => mirrors_pure

theorem mirrors_objectBody :
    Mirrors d h (objectBody inner object o) (objectBody inner' object o) := by
  refine mirrors_read.bind fun map => mirrors_read.bind fun _ => mirrors_read.bind fun name => ?_
  refine mirrors_read.bind fun elements => mirrors_read.bind fun properties => ?_
  refine mirrors_read.bind fun fields => .ite ?_ mirrors_pure
  refine .bind (mirrors_domainPage fun part => ?_) fun _ =>
    .bind (mirrors_domainPage fun part => ?_) fun _ =>
    .bind (mirrors_domainPage fun part => ?_) fun _ => mirrors_pure
  · exact mirrors_read.bind fun array => mirrors_elementPage hinner
  · exact mirrors_read.bind fun entries =>
      (Mirrors.mapM (mirrors_property hinner) entries).bind fun _ => mirrors_pure
  · exact mirrors_read.bind fun _ => mirrors_pure

theorem mirrors_stackLines :
    Mirrors d h (stackLines inner object) (stackLines inner' object) := by
  refine mirrors_read.bind fun found => ?_
  cases found with
  | none => exact mirrors_pure
  | some stack =>
    refine .bind (.forRange fun frame => ?_) fun _ => mirrors_pure
    exact mirrors_read.bind fun v => (hinner v .default).bind fun _ => mirrors_pure

theorem mirrors_functionBody :
    Mirrors d h (functionBody inner object o) (functionBody inner' object o) := by
  refine mirrors_read.bind fun name => mirrors_read.bind fun location => .ite ?_ mirrors_pure
  refine mirrors_read.bind fun found => ?_
  cases found with
  | smi =>
    refine mirrors_pure.bind fun _ => .ite ?_ (mirrors_pure.bind fun _ => mirrors_pure)
    exact mirrors_read.bind fun _ => mirrors_pure
  | heap =>
    refine (hinner _ _).bind fun _ => mirrors_pure.bind fun _ => .ite ?_ ?_
    · exact mirrors_read.bind fun _ => mirrors_pure
    · exact mirrors_pure.bind fun _ => mirrors_pure

theorem mirrors_contextBody :
    Mirrors d h (contextBody inner object o) (contextBody inner' object o) := by
  refine .ite ?_ mirrors_pure
  refine mirrors_read.bind fun previous => mirrors_read.bind fun closure => ?_
  refine (Mirrors.option (fun v => hinner v o.summary) closure).bind fun closureNode => ?_
  refine .ite (mirrors_pure.bind fun _ => mirrors_read.bind fun found => .bind ?_ fun _ => ?_) ?_
  · exact .mapM (fun (_, v) => (hinner v o.child).bind fun _ => mirrors_pure) found
  · exact mirrors_pure
  · refine mirrors_read.bind fun scope => (hinner _ _).bind fun _ => mirrors_pure.bind fun _ => ?_
    refine mirrors_read.bind fun found => .bind ?_ fun _ => mirrors_pure
    exact .mapM (fun (_, v) => (hinner v o.child).bind fun _ => mirrors_pure) found

theorem mirrors_mapBody : Mirrors d h (mapBody inner object o) (mapBody inner' object o) := by
  refine mirrors_read.bind fun isDictionary => mirrors_read.bind fun l => ?_
  refine .ite (mirrors_read.bind fun _ => mirrors_pure.bind fun _ => mirrors_read.bind fun _ => ?_)
    (mirrors_pure.bind fun _ => mirrors_read.bind fun _ => ?_)
  all_goals
    refine .ite (.bind (.option (fun array => hinner (.heap array) o.child) _) fun _ => ?_)
      (mirrors_pure.bind fun _ => ?_)
    all_goals exact mirrors_read.bind fun _ => mirrors_read.bind fun _ => mirrors_pure

theorem mirrors_arrayShape :
    Mirrors d h (arrayShape inner object o) (arrayShape inner' object o) := by
  refine mirrors_read.bind fun length => .bind (mirrors_whenDetailed ?_) fun _ => mirrors_pure
  exact mirrors_read.bind fun backing => mirrors_read.bind fun stored => mirrors_elementPage hinner

theorem mirrors_fixedArrayShape :
    Mirrors d h (fixedArrayShape inner object o) (fixedArrayShape inner' object o) :=
  mirrors_read.bind fun _ =>
    (mirrors_whenDetailed (mirrors_elementPage hinner)).bind fun _ => mirrors_pure

theorem mirrors_descriptorsShape :
    Mirrors d h (descriptorsShape inner object o) (descriptorsShape inner' object o) := by
  refine mirrors_read.bind fun length => .bind (mirrors_whenDetailed ?_) fun _ => mirrors_pure
  exact (Mirrors.forRange (mirrors_descriptor hinner)).bind fun _ => mirrors_pure

theorem mirrors_dictionaryShape :
    Mirrors d h (dictionaryShape inner object o) (dictionaryShape inner' object o) := by
  refine mirrors_read.bind fun capacity => .bind (mirrors_whenDetailed ?_) fun _ => mirrors_pure
  refine mirrors_read.bind fun live => mirrors_read.bind fun entries => ?_
  exact (Mirrors.mapM (mirrors_dictionaryEntry hinner) entries).bind fun _ => mirrors_pure

theorem mirrors_errorShape :
    Mirrors d h (errorShape inner object o) (errorShape inner' object o) :=
  (mirrors_objectBody hinner).bind fun _ =>
    .ite ((mirrors_stackLines hinner).bind fun _ => mirrors_pure)
      (mirrors_pure.bind fun _ => mirrors_pure)

/-- What is found in an object leaves the decoder alone, if what is found inside does. -/
theorem mirrors_shapeOf (kind : Kind) :
    Mirrors d h (shapeOf inner kind object o) (shapeOf inner' kind object o) := by
  cases kind with
  | global => exact mirrors_pure
  | globalProxy => exact mirrors_pure
  | code => exact mirrors_pure
  | unknown => exact mirrors_pure
  | map => exact (mirrors_mapBody hinner).bind fun _ => mirrors_pure
  | context => exact (mirrors_contextBody hinner).bind fun _ => mirrors_pure
  | error => exact mirrors_errorShape hinner
  | object => exact (mirrors_objectBody hinner).bind fun _ => mirrors_pure
  | array => exact mirrors_arrayShape hinner
  | function => exact (mirrors_functionBody hinner).bind fun _ => mirrors_pure
  | fixedArray => exact mirrors_fixedArrayShape hinner
  | descriptorArray => exact mirrors_descriptorsShape hinner
  | nameDictionary => exact mirrors_dictionaryShape hinner
  | regExp =>
    refine mirrors_read.bind fun _ => .bind (mirrors_whenDetailed ?_) fun _ => mirrors_pure
    exact mirrors_objectBody hinner
  | number => exact mirrors_read
  | string => exact mirrors_read
  | sharedInfo => exact mirrors_read
  | script => exact mirrors_read
  | oddball => exact mirrors_read.bind fun _ => mirrors_pure
  | arrayBuffer => exact mirrors_read.bind fun _ => mirrors_pure
  | arrayBufferView => exact mirrors_read.bind fun _ => mirrors_pure
  | date => exact mirrors_read.bind fun _ => mirrors_pure
  | symbol => exact mirrors_read.bind fun _ => mirrors_pure
  | scopeInfo => exact mirrors_read.bind fun _ => mirrors_pure

end Inspection

/-! ### Levels -/

/-- A failure may as well be told after a step that finds something without asking for bytes. -/
theorem HeapM.bind_attempt {α β γ : Type} {h : Heap} {x : HeapM α} {y : HeapM β}
    {f : α → β → HeapM γ} {b : β} (hy : y h = .of (.ok b)) :
    (do
      let found ← HeapM.attempt x
      let b ← y
      f (← ofExcept found) b) h = (x >>= fun a => y >>= f a) h := by
  have hyields : y.Yields h b := congrArg Outcome.result hy
  cases hgaveUp : (x h).gaveUp with
  | true =>
    -- What gives up is not gone on with, neither here nor there.
    obtain ⟨e, hx⟩ : ∃ e, (x h).result = .error e := by
      cases hresult : (x h).result with
      | error e => exact ⟨e, rfl⟩
      | ok a => exact absurd (hgaveUp.symm.trans ((x h).returned a hresult)) nofun
    have hcaught : HeapM.attempt x h = (x h).failed e := Outcome.caught_of_gaveUp hgaveUp hx
    have hfailed : (HeapM.attempt x h).result = .error e := congrArg Outcome.result hcaught
    rw [bind_error hfailed, hcaught, bind_error hx]
    rfl
  | false =>
    have hattempt : (HeapM.attempt x).Yields h (x h).result := yields_attempt.mpr ⟨hgaveUp, rfl⟩
    rw [bind_ok hattempt, bind_ok hyields, hy]
    rcases hx : (x h).result with e | a
    · have hfail : (ofExcept (.error e : Except Failure α) h).result = .error e := rfl
      rw [bind_error hx, bind_error hfail]
      exact Outcome.ext rfl (List.append_nil _) hgaveUp.symm
    · have hfound : (ofExcept (.ok a : Except Failure α)).Yields h a := rfl
      rw [bind_ok hx, bind_ok hyields, hy, bind_ok hfound]
      rfl

namespace Decoder

open Inspection

variable {d : Decoder} {h : Heap} {inner : Value → Options → DecoderM Node} {inner' : Inspector}
  {object : Address} {o : Options}

/-- The address of the map is found once the kind is, without asking for bytes. -/
theorem exists_shownMap_eq {kind : Kind} (hkind : (Kind.of object).Yields h kind) :
    ∃ map, shownMap object o h = .of (.ok map) := by
  obtain ⟨map, hmap⟩ := exists_shownMap_of_kind (o := o) hkind
  refine ⟨map, Alike.eq_of_yields (h := h) (.ite ?_ .pure) hmap⟩
  exact .bind (.bind alike_fieldWord fun _ => .pure) fun _ => .pure

/-- An object is looked into from outside of itself. -/
theorem mirrors_objectWith
    (hinner : ∀ v o, Mirrors (d.enter object) h (inner v o) (inner' v o)) :
    Mirrors d h (objectWith inner object o) (do
      let o := optionsBelow d.ancestors object o
      let kind ← Kind.of object
      let shape ← shapeOf inner' kind object o
      pure (.mk object (← shownMap object o) shape)) := by
  refine mirrors_bind_entered (mirrors_read.andThen fun kind hkind => ?_)
  generalize optionsBelow d.ancestors object o = o'
  obtain ⟨map, hmap⟩ := exists_shownMap_eq (o := o') hkind
  have hshape : Mirrors d h (within object (shapeOf inner kind object o'))
      (HeapM.attempt (shapeOf inner' kind object o')) :=
    mirrors_within (mirrors_shapeOf hinner kind)
  have hafter := hshape.bind fun found => (mirrors_read (y := shownMap object o')).bind fun map =>
    (mirrors_read (y := ofExcept found)).bind fun shape =>
      mirrors_pure (a := Node.mk object map shape)
  exact Eq.trans hafter (congrArg (·, d) (HeapM.bind_attempt hmap))

theorem mirrors_valueWithin (levels : ℕ) (d : Decoder) (v : Value) (o : Options) :
    Mirrors d h (valueWithin levels v o) (below levels d.ancestors v o) := by
  induction levels generalizing d v o with
  | zero => cases v <;> rfl
  | succ levels ih =>
    cases v with
    | smi => rfl
    | heap object => exact mirrors_objectWith fun v o => ih (d.enter object) v o

/-! ### Requests -/

namespace Request

/-- The value that a request is about. -/
def subject : Request → Value
  | .value v _ => v
  | .object a _ => .heap a

def options : Request → Options
  | .value _ o => o
  | .object _ o => o

end Request

theorem mirrors_serve (d : Decoder) (request : Request) :
    Mirrors d h (serve request) (below maxLevels d.ancestors request.subject request.options) := by
  cases request with
  | value v o => exact mirrors_valueWithin maxLevels d v o
  | object a o => exact mirrors_valueWithin maxLevels d (.heap a) o

theorem serveAll_eq_map (d : Decoder) (requests : List (Heap × Request)) :
    serveAll d requests = requests.map fun (h, request) =>
      (below maxLevels d.ancestors request.subject request.options h, d) := by
  induction requests with
  | nil => rfl
  | cons first rest ih =>
    obtain ⟨h, request⟩ := first
    have hserve : serve request d h = _ := mirrors_serve d request
    simp only [serveAll, hserve, ih, List.map_cons]

/-- Whatever fails on the way, a decoder is after each request what it was before all of them, and
finds what it would have found for that request alone.  A new decoder finds for each what an
inspection of its own finds. -/
theorem serveAll_eq (d : Decoder) (requests : List (Heap × Request)) :
    serveAll d requests = requests.map (fun (h, request) => ((serve request d h).1, d)) ∧
      serveAll new requests = requests.map (fun (h, request) =>
        (inspect request.subject request.options h, new)) := by
  refine ⟨?_, serveAll_eq_map new requests⟩
  rw [serveAll_eq_map]
  refine List.map_congr_left fun (h, request) _ => ?_
  have hserve : serve request d h = _ := mirrors_serve d request
  simp only [hserve]

end Decoder

end Postmortem
