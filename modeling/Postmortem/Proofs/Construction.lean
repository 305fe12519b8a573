/-
Postmortem/Proofs/Construction.lean

What is built by hand is not disturbed by what is built later.

Each construction is accounted for (`Account.ofStep`): it reserves blocks and writes to
these alone.  So a run of constructions keeps all that stood before it (`kept_run`), as
long as the places of the blocks are addresses.

Maps and oddballs are remembered in one table, maps by their type and oddballs by a
negative number.  The number of the oddball of kind minus nine is the type of one-byte
strings: if it is made before any of these, it is taken for their map.  Such runs are
told apart (`KeepsStringMap`).
-/
import Postmortem.Proofs.Accounts

namespace Postmortem.Synthetic.Builder

variable {α β : Type} {watched : Prop} {b : Builder} {start size : ℕ}

@[simp] theorem length_numberBytes (width : ℕ) (n : ℤ) : (numberBytes width n).length = width :=
  Word.length_toBytes width _

theorem length_unitBytes (units : List UInt16) :
    (units.flatMap fun u => Word.toBytes 2 u.toNat).length = 2 * units.length := by
  simp [List.length_flatMap, Word.length_toBytes, Nat.mul_comm]

theorem sub_objectAt (start : ℕ) : (objectAt start).sub 1 = ⟨UInt64.ofNat start⟩ := by
  refine congrArg Address.mk ?_
  show UInt64.ofNat (start + 1) - 1 = UInt64.ofNat start
  rw [UInt64.ofNat_add]
  exact UInt64.add_sub_cancel ..

/-! ### Maps -/

/-- The pieces that a map is written in. -/
def MapContents.pieces (metaMap : Address) (m : MapContents) : List (ℕ × List UInt8) := [
  (0, Word.toBytes 8 metaMap.word.toNat),
  (8, [UInt8.ofNat m.slots, UInt8.ofNat (m.slots - min m.inObject m.slots)]),
  (12, numberBytes 2 m.type),
  (16, numberBytes 4 (((m.descriptors.map (·.2)).getD 0) * 1024)),
  (24, Word.toBytes 8 m.constructorWord.toNat),
  (32, Word.toBytes 8 ((m.descriptors.map (·.1.word)).getD (smallInt 0)).toNat)]

theorem MapContents.fit_pieces (metaMap : Address) (m : MapContents) :
    Fit 48 (m.pieces metaMap) := by
  constructor <;> simp [pieces, Word.length_toBytes]

theorem after_writeMap (start : ℕ) (metaMap : Address) (m : MapContents) (b : Builder) :
    after (writeMap (objectAt start) metaMap m) b = b.fill start (m.pieces metaMap) := by
  unfold writeMap
  rw [after_bind, after_bind, after_bind, after_bind, after_bind, after_setMap,
    after_setBytes (by decide), after_setBytes (by decide), after_setBytes (by decide),
    after_setWord (by decide), after_setWord (by decide)]
  rfl

/-- What a map says stands in the heap. -/
structure HasMap (b : Builder) (start : ℕ) (m : MapContents) : Prop where
  size : b.Has (start + 8) [UInt8.ofNat m.slots, UInt8.ofNat (m.slots - min m.inObject m.slots)]
  type : b.Has (start + 12) (numberBytes 2 m.type)
  bitField3 : b.Has (start + 16) (numberBytes 4 (((m.descriptors.map (·.2)).getD 0) * 1024))
  descriptors : b.Has (start + 32)
    (Word.toBytes 8 ((m.descriptors.map (·.1.word)).getD (smallInt 0)).toNat)

theorem hasMap_writeMap (metaMap : Address) (m : MapContents) (hblock : start + 48 ≤ b.next)
    (hnext : b.next ≤ UInt64.size) :
    HasMap (after (writeMap (objectAt start) metaMap m) b) start m := by
  have hhas := has_fill (m.fit_pieces metaMap) hblock hnext
  rw [after_writeMap]
  generalize b.fill start (m.pieces metaMap) = b' at hhas ⊢
  simp only [MapContents.pieces, List.forall_mem_cons] at hhas
  obtain ⟨-, hsize, htype, hbitField3, -, hdescriptors, -⟩ := hhas
  exact ⟨hsize, htype, hbitField3, hdescriptors⟩

/-- The map of maps, when it is made. -/
def metaContents : MapContents := ⟨InstanceType.map, 0, 0, none, 0⟩

theorem after_metaMap_some {map : Address} (hmap : b.shared[InstanceType.map]? = some map) :
    after metaMap b = b := by
  unfold metaMap
  rw [after_bind, value_get, after_get, hmap]
  rfl

theorem after_metaMap_none (hnone : b.shared[InstanceType.map]? = none) :
    after metaMap b = ((b.reserve 48).remember InstanceType.map (objectAt b.next)).fill b.next
      (metaContents.pieces (objectAt b.next)) := by
  unfold metaMap
  rw [after_bind, value_get, after_get, hnone]
  dsimp only
  rw [after_bind, after_bind, after_bind, after_pure, value_alloc, after_writeMap]
  rfl

theorem shared_metaMap {key : ℤ} (hkey : key ≠ InstanceType.map) (b : Builder) :
    (after metaMap b).shared[key]? = b.shared[key]? := by
  cases hmap : b.shared[InstanceType.map]? with
  | some map => rw [after_metaMap_some hmap]
  | none =>
    rw [after_metaMap_none hmap, shared_fill, shared_remember, if_neg hkey.symm, shared_reserve]

theorem keepsTable_metaMap (b : Builder) : KeepsTable b (after metaMap b) := by
  cases hmap : b.shared[InstanceType.map]? with
  | some map =>
    rw [after_metaMap_some hmap]
    exact .refl
  | none =>
    rw [after_metaMap_none hmap]
    refine KeepsTable.insert .refl 48 hmap ?_ (next_fill ..)
    rw [shared_fill]
    rfl

/-- A new map that is not remembered. -/
def newMap (m : MapContents) : BuildM Address := do
  let metaMap ← metaMap
  let map ← alloc 48
  writeMap map metaMap m
  pure map

theorem shared_newMap (m : MapContents) (b : Builder) :
    (after (newMap m) b).shared = (after metaMap b).shared := by
  unfold newMap
  rw [after_bind, after_bind, after_bind, after_pure, value_alloc, after_writeMap, shared_fill]
  rfl

theorem next_newMap (m : MapContents) (b : Builder) :
    (after (newMap m) b).next = (after metaMap b).next + blockBytes 48 := by
  unfold newMap
  rw [after_bind, after_bind, after_bind, after_pure, value_alloc, after_writeMap, next_fill]
  rfl

/-- A new map lies behind all that there was. -/
theorem newMap_spec (m : MapContents) (b : Builder)
    (hnext : (after (newMap m) b).next ≤ UInt64.size) :
    ∃ start, value (newMap m) b = objectAt start ∧ b.next ≤ start ∧
      HasMap (after (newMap m) b) start m := by
  refine ⟨(after metaMap b).next, rfl, (keepsTable_metaMap b).next_le, ?_⟩
  have hblock := le_blockBytes 48
  unfold newMap at hnext ⊢
  rw [after_bind, after_bind, after_bind, after_pure, value_alloc, after_alloc] at hnext ⊢
  refine hasMap_writeMap _ m (by rw [next_reserve]; omega) ?_
  rwa [after_writeMap, next_fill] at hnext

/-! ### Shared maps -/

theorem after_map_some {type : ℤ} {map : Address} (hmap : b.shared[type]? = some map) :
    after (Builder.map type) b = b ∧ value (Builder.map type) b = map := by
  unfold Builder.map
  rw [after_bind, value_bind, value_get, after_get, hmap]
  exact ⟨rfl, rfl⟩

theorem after_map_none {type : ℤ} (hnone : b.shared[type]? = none) :
    after (Builder.map type) b = (after (newMap ⟨type, 4, 0, none, 0⟩) b).remember type
        (value (newMap ⟨type, 4, 0, none, 0⟩) b) ∧
      value (Builder.map type) b = value (newMap ⟨type, 4, 0, none, 0⟩) b := by
  unfold Builder.map
  rw [after_bind, value_bind, value_get, after_get, hnone]
  exact ⟨rfl, rfl⟩

theorem shared_map_of_ne {type key : ℤ} (htype : type ≠ key) (hkey : key ≠ InstanceType.map)
    (b : Builder) : (after (map type) b).shared[key]? = b.shared[key]? := by
  cases hmap : b.shared[type]? with
  | some map => rw [(after_map_some hmap).1]
  | none =>
    rw [(after_map_none hmap).1, shared_remember, if_neg htype, shared_newMap, shared_metaMap hkey]

/-- A map that has been asked for is remembered. -/
theorem shared_map (type : ℤ) (b : Builder) :
    (after (map type) b).shared[type]? = some (value (map type) b) := by
  cases hmap : b.shared[type]? with
  | some map =>
    obtain ⟨hafter, hvalue⟩ := after_map_some hmap
    rw [hafter, hvalue, hmap]
  | none =>
    obtain ⟨hafter, hvalue⟩ := after_map_none hmap
    rw [hafter, hvalue]
    exact Std.HashMap.getElem?_insert_self

/-- The map of maps may be remembered on the way, and then again if it was asked for; but not if
there was one to begin with. -/
theorem keepsTable_map (type : ℤ) (b : Builder) : KeepsTable b (after (map type) b) := by
  cases hmap : b.shared[type]? with
  | some map =>
    rw [(after_map_some hmap).1]
    exact .refl
  | none =>
    rw [(after_map_none hmap).1]
    refine (keepsTable_metaMap b).insert 48 hmap ?_ ((next_remember ..).trans (next_newMap _ b))
    rw [← shared_newMap ⟨type, 4, 0, none, 0⟩ b]
    rfl

/-! ### Oddballs -/

theorem value_allocTyped (type : ℤ) (size : ℕ) (b : Builder) :
    value (allocTyped type size) b = objectAt (after (map type) b).next := rfl

theorem after_allocTyped (type : ℤ) (size : ℕ) (b : Builder) :
    after (allocTyped type size) b =
      ((after (map type) b).reserve size).put (after (map type) b).next
        (Word.toBytes 8 (value (map type) b).word.toNat) := by
  unfold allocTyped
  rw [after_bind, after_bind, after_bind, after_pure, value_alloc, after_alloc, after_setMap]

/-- The kind of the oddball that goes by the number of one-byte strings. -/
def takenKind : ℤ := -1 - InstanceType.oneByteString

theorem undefined_ne_taken : undefinedKind ≠ takenKind := by decide

theorem after_oddball_some {kind : ℤ} {oddball : Address}
    (hoddball : b.shared[-1 - kind]? = some oddball) :
    after (Builder.oddball kind) b = b ∧ value (Builder.oddball kind) b = oddball := by
  unfold Builder.oddball
  rw [after_bind, value_bind, value_get, after_get, hoddball]
  exact ⟨rfl, rfl⟩

theorem after_oddball_none {kind : ℤ} (hnone : b.shared[-1 - kind]? = none) :
    after (oddball kind) b =
      (((after (map InstanceType.oddball) b).reserve 40).fill
        (after (map InstanceType.oddball) b).next
        [(0, Word.toBytes 8 (value (map InstanceType.oddball) b).word.toNat),
          (32, Word.toBytes 8 (smallInt kind).toNat)]).remember (-1 - kind)
        (objectAt (after (map InstanceType.oddball) b).next) := by
  unfold oddball
  rw [after_bind, value_get, after_get, hnone]
  dsimp only
  rw [after_bind, after_bind, after_bind, after_pure, value_allocTyped, after_allocTyped,
    after_setWord (by decide)]
  rfl

theorem keepsTable_oddball (kind : ℤ) (b : Builder) : KeepsTable b (after (oddball kind) b) := by
  cases hoddball : b.shared[-1 - kind]? with
  | some oddball =>
    rw [(after_oddball_some hoddball).1]
    exact .refl
  | none =>
    rw [after_oddball_none hoddball]
    exact (keepsTable_map InstanceType.oddball b).insert 40 hoddball rfl rfl

theorem value_oddball_none {kind : ℤ} (hnone : b.shared[-1 - kind]? = none) :
    value (oddball kind) b = objectAt (after (map InstanceType.oddball) b).next := by
  unfold oddball
  rw [value_bind, value_get, after_get, hnone]
  rfl

theorem shared_oddball (kind : ℤ) (b : Builder) :
    (after (oddball kind) b).shared[-1 - kind]? = some (value (oddball kind) b) := by
  cases hoddball : b.shared[-1 - kind]? with
  | some oddball =>
    obtain ⟨hafter, hvalue⟩ := after_oddball_some hoddball
    rw [hafter, hvalue, hoddball]
  | none =>
    rw [after_oddball_none hoddball, value_oddball_none hoddball, shared_remember, if_pos rfl]

/-! ### Maps of one-byte strings -/

theorem addsStringMap_metaMap (b : Builder) : AddsStringMap b (after metaMap b) :=
  .of_eq_none fun hfree => (shared_metaMap (by decide) b).trans hfree

/-- A map that is remembered as one of one-byte strings is new, and tells their type. -/
theorem addsStringMap_map (type : ℤ) (b : Builder) : AddsStringMap b (after (map type) b) := by
  by_cases htype : type = InstanceType.oneByteString
  · subst htype
    intro hnext hfree map hmap
    obtain ⟨hafter, -⟩ := after_map_none hfree
    rw [hafter] at hnext hmap ⊢
    rw [shared_remember, if_pos rfl] at hmap
    cases hmap
    obtain ⟨start, hvalue, hle, hhas⟩ := newMap_spec _ b ((next_remember ..).symm.trans_le hnext)
    have htype := hhas.type
    exact ⟨start, hvalue, hle, ⟨htype.reserved, htype.byte?⟩⟩
  · exact .of_eq_none fun hfree => (shared_map_of_ne htype (by decide) b).trans hfree

theorem addsStringMap_oddball {kind : ℤ} (hkind : kind ≠ takenKind) (b : Builder) :
    AddsStringMap b (after (oddball kind) b) := by
  refine .of_eq_none fun hfree => ?_
  cases hoddball : b.shared[-1 - kind]? with
  | some oddball =>
    rw [(after_oddball_some hoddball).1]
    exact hfree
  | none =>
    have hkey : -1 - kind ≠ InstanceType.oneByteString := by
      unfold takenKind at hkind
      omega
    rw [after_oddball_none hoddball, shared_remember, if_neg hkey, shared_fill, shared_reserve,
      shared_map_of_ne (by decide) (by decide)]
    exact hfree

/-! ### Accounts of constructions

Each account follows its construction line by line.  What there is to show at each line is that the
bytes that are written fit into the block. -/

namespace Account

variable {shares : Bool} {own : List Block}

def setNumber {offset : ℤ} {width : ℕ} (hblock : ⟨start, size⟩ ∈ own) (n : ℤ)
    (hoffset : 0 ≤ offset) (hfits : offset + width ≤ size) :
    Account watched shares own (Builder.setBytes (objectAt start) offset (numberBytes width n)) :=
  setBytes hblock _ hoffset (by rwa [length_numberBytes])

def writeMap (hblock : ⟨start, 48⟩ ∈ own) (metaMap : Address) (m : MapContents) :
    Account watched shares own (Builder.writeMap (objectAt start) metaMap m) :=
  .bind (setMap hblock metaMap (by decide)) fun _ =>
  .bind (setBytes hblock _ (by decide) (show (8 : ℤ) + (2 : ℕ) ≤ (48 : ℕ) by decide)) fun _ =>
  .bind (setNumber hblock _ (by decide) (by decide)) fun _ =>
  .bind (setNumber hblock _ (by decide) (by decide)) fun _ =>
  .bind (setWord hblock _ (by decide) (by decide)) fun _ =>
  setWord hblock _ (by decide) (by decide)

def metaMap : Account watched shares own Builder.metaMap :=
  .whole keepsTable_metaMap (fun _ => addsStringMap_metaMap) <| .look fun b =>
    match b.shared[InstanceType.map]? with
    | some map => .pure map
    | none =>
      .alloc 48 fun start =>
      .bind (.share _ _) fun _ =>
      .bind (writeMap (List.mem_cons_self ..) (objectAt start) _) fun _ =>
      .pure _

def newMap (m : MapContents) : Account watched shares own (Builder.newMap m) :=
  .bind metaMap fun metaMap =>
  .alloc 48 fun _ =>
  .bind (writeMap (List.mem_cons_self ..) metaMap m) fun _ =>
  .pure _

def map (type : ℤ) : Account watched shares own (Builder.map type) :=
  .whole (keepsTable_map type) (fun _ => addsStringMap_map type) <| .look fun b =>
    match b.shared[type]? with
    | some map => .pure map
    | none =>
      .bind metaMap fun metaMap =>
      .alloc 48 fun _ =>
      .bind (writeMap (List.mem_cons_self ..) metaMap _) fun _ =>
      .bind (.share _ _) fun _ =>
      .pure _

/-- A new object of some type is handed to what is done next. -/
def allocTyped {f : Address → BuildM β} (type : ℤ) (hsize : 8 ≤ size)
    (rest : ∀ start, ⟨start, size⟩ ∈ (⟨start, size⟩ : Block) :: own →
      Account watched shares (⟨start, size⟩ :: own) (f (objectAt start))) :
    Account watched shares own (Builder.allocTyped type size >>= f) :=
  show Account watched shares own (do
    let map ← Builder.map type
    let object ← Builder.alloc size
    Builder.setMap object map
    f object) from
  .bind (map type) fun map =>
  .alloc size fun start =>
  .bind (setMap (List.mem_cons_self ..) map hsize) fun _ =>
  rest start (List.mem_cons_self ..)

def oneByteString (text : String) : Account watched shares own (Builder.oneByteString text) :=
  allocTyped _ (by omega) fun _ hstring =>
  .bind (setNumber hstring _ (by decide) (by omega)) fun _ =>
  .bind (setBytes hstring _ (by decide) (by omega)) fun _ =>
  .pure _

def twoByteString (text : String) : Account watched shares own (Builder.twoByteString text) :=
  allocTyped _ (by omega) fun _ hstring =>
  .bind (setNumber hstring _ (by decide) (by omega)) fun _ =>
  .bind (setBytes hstring _ (by decide) (by rw [length_unitBytes]; omega)) fun _ =>
  .pure _

def consString (first second : Address) (length : ℕ) :
    Account watched shares own (Builder.consString first second length) :=
  allocTyped _ (by decide) fun _ hstring =>
  .bind (setNumber hstring _ (by decide) (by decide)) fun _ =>
  .bind (setWord hstring _ (by decide) (by decide)) fun _ =>
  .bind (setWord hstring _ (by decide) (by decide)) fun _ =>
  .pure _

def slicedString (parent : Address) (offset : ℤ) (length : ℕ) :
    Account watched shares own (Builder.slicedString parent offset length) :=
  allocTyped _ (by decide) fun _ hstring =>
  .bind (setNumber hstring _ (by decide) (by decide)) fun _ =>
  .bind (setWord hstring _ (by decide) (by decide)) fun _ =>
  .bind (setWord hstring _ (by decide) (by decide)) fun _ =>
  .pure _

def oddball {kind : ℤ} (hkind : watched → kind ≠ takenKind) :
    Account watched shares own (Builder.oddball kind) :=
  .whole (keepsTable_oddball kind) (fun hw => addsStringMap_oddball (hkind hw)) <| .look fun b =>
    match b.shared[-1 - kind]? with
    | some oddball => .pure oddball
    | none =>
      allocTyped _ (by decide) fun _ hoddball =>
      .bind (setWord hoddball _ (by decide) (by decide)) fun _ =>
      .bind (.share _ _) fun _ =>
      .pure _

def heapNumber (d : Double) : Account watched shares own (Builder.heapNumber d) :=
  allocTyped _ (by decide) fun _ hnumber =>
  .bind (setWord hnumber _ (by decide) (by decide)) fun _ =>
  .pure _

def symbol (description : Option String) :
    Account watched shares own (Builder.symbol description) :=
  allocTyped _ (by decide) fun _ hsymbol =>
  match description with
  | some text =>
    .bind (oneByteString text) fun _ =>
    .bind (setWord hsymbol _ (by decide) (by decide)) fun _ =>
    .pure _
  | none =>
    .bind (oddball fun _ => undefined_ne_taken) fun _ =>
    .bind (setWord hsymbol _ (by decide) (by decide)) fun _ =>
    .pure _

def arrayOfType (type : ℤ) (slots : List UInt64) :
    Account watched shares own (Builder.arrayOfType type slots) :=
  allocTyped _ (by omega) fun _ harray =>
  .bind (setWord harray _ (by decide) (by omega)) fun _ =>
  .bind (setWords harray slots (by decide) (by omega)) fun _ =>
  .pure _

/-- Writes the head of an object. -/
def initObject (hblock : ⟨start, size⟩ ∈ own) (map : Address) (hsize : 24 ≤ size) :
    Account watched shares own (Builder.initObject (objectAt start) map) :=
  .bind (arrayOfType _ []) fun _ =>
  .bind (setMap hblock map (by omega)) fun _ =>
  .bind (setWord hblock _ (by decide) (by omega)) fun _ =>
  setWord hblock _ (by decide) (by omega)

def allocObject {f : Address → BuildM β} (type : ℤ) (hsize : 24 ≤ size)
    (rest : ∀ start, ⟨start, size⟩ ∈ (⟨start, size⟩ : Block) :: own →
      Account watched shares (⟨start, size⟩ :: own) (f (objectAt start))) :
    Account watched shares own (Builder.allocObject type size >>= f) :=
  show Account watched shares own (do
    let map ← Builder.map type
    let object ← Builder.alloc size
    Builder.initObject object map
    f object) from
  .bind (map type) fun map =>
  .alloc size fun start =>
  .bind (initObject (List.mem_cons_self ..) map hsize) fun _ =>
  rest start (List.mem_cons_self ..)

def objectOfType (type : ℤ) (properties : List (String × UInt64)) (constructor? : Option Address) :
    Account watched shares own (Builder.objectOfType type properties constructor?) :=
  .bind (mapM properties fun property => oneByteString property.1) fun _ =>
  .bind (arrayOfType _ _) fun _ =>
  .bind (newMap _) fun map =>
  .alloc (24 + 8 * properties.length) fun _ =>
  .bind (initObject (List.mem_cons_self ..) map (by omega)) fun _ =>
  .bind (setWords (List.mem_cons_self ..) _ (by decide) (by rw [List.length_map]; omega)) fun _ =>
  .pure _

def jsArray (elements : List UInt64) : Account watched shares own (Builder.jsArray elements) :=
  .bind (arrayOfType _ elements) fun _ =>
  allocObject _ (by decide) fun _ harray =>
  .bind (setWord harray _ (by decide) (by decide)) fun _ =>
  .bind (setWord harray _ (by decide) (by decide)) fun _ =>
  .pure _

def date (time : Double) : Account watched shares own (Builder.date time) :=
  allocObject _ (by decide) fun _ hdate =>
  .bind (heapNumber time) fun _ =>
  .bind (setWord hdate _ (by decide) (by decide)) fun _ =>
  .pure _

def script (name source : String) (lineOffset : ℤ) :
    Account watched shares own (Builder.script name source lineOffset) :=
  .bind (oneByteString name) fun _ =>
  .bind (oneByteString source) fun _ =>
  allocTyped _ (by decide) fun _ hscript =>
  .bind (setWord hscript _ (by decide) (by decide)) fun _ =>
  .bind (setWord hscript _ (by decide) (by decide)) fun _ =>
  .bind (setWord hscript _ (by decide) (by decide)) fun _ =>
  .bind (oddball fun _ => undefined_ne_taken) fun _ =>
  .bind (setWord hscript _ (by decide) (by decide)) fun _ =>
  .pure _

def sharedInfo (name : String) (script : Option Address) (start stop : ℤ) :
    Account watched shares own (Builder.sharedInfo name script start stop) :=
  .bind (oneByteString name) fun _ =>
  allocTyped _ (by decide) fun info hinfo =>
  .bind (setWord hinfo _ (by decide) (by decide)) fun _ =>
  .bind (setWord hinfo _ (by decide) (by decide)) fun _ =>
  .bind (oneByteString "") fun _ =>
  .bind (setWord hinfo _ (by decide) (by decide)) fun _ =>
  have placed (script : Address) : Account watched shares (⟨info, 56⟩ :: own) (do
      Builder.setWord (objectAt info) 32 script.word
      Builder.setBytes (objectAt info) 40 (numberBytes 4 (start * 4))
      Builder.setBytes (objectAt info) 44 (numberBytes 4 stop)
      Builder.setBytes (objectAt info) 48 (numberBytes 2 0)
      Pure.pure (objectAt info)) :=
    .bind (setWord hinfo _ (by decide) (by decide)) fun _ =>
    .bind (setNumber hinfo _ (by decide) (by decide)) fun _ =>
    .bind (setNumber hinfo _ (by decide) (by decide)) fun _ =>
    .bind (setNumber hinfo _ (by decide) (by decide)) fun _ =>
    .pure _
  match script with
  | some script => .bind (.pure script) placed
  | none => .bind (oddball fun _ => undefined_ne_taken) placed

def function (shared : Address) (context : Option Address) :
    Account watched shares own (Builder.function shared context) :=
  allocObject _ (by decide) fun _ hfunction =>
  .bind (setWord hfunction _ (by decide) (by decide)) fun _ =>
  .bind (setWord hfunction _ (by decide) (by decide)) fun _ =>
  .pure _

def scopeInfo (parameters : ℤ) (locals : List String) (name : Option String) :
    Account watched shares own (Builder.scopeInfo parameters locals name) :=
  .bind (mapM _ fun _ => oneByteString _) fun _ =>
  .bind (mapM locals oneByteString) fun _ =>
  match name with
  | some name => .bind (oneByteString name) fun _ => .bind (.pure _) fun _ => arrayOfType _ _
  | none => .bind (.pure _) fun _ => arrayOfType _ _

def rawBytes (data : List UInt8) : Account watched shares own (Builder.rawBytes data) :=
  .alloc data.length fun start =>
  .bind (.write start data (List.mem_cons_self ..) ⟨le_rfl, le_rfl⟩ (sub_objectAt start)) fun _ =>
  .pure _

def arrayBuffer (data : List UInt8) (isNeutered : Bool) :
    Account watched shares own (Builder.arrayBuffer data isNeutered) :=
  allocObject _ (by decide) fun _ hbuffer =>
  .bind (rawBytes data) fun _ =>
  .bind (setWord hbuffer _ (by decide) (by decide)) fun _ =>
  .bind (setWord hbuffer _ (by decide) (by decide)) fun _ =>
  .bind (setNumber hbuffer _ (by decide) (by decide)) fun _ =>
  .pure _

def typedArray (buffer : Address) (offset length : UInt64) (onHeap : Option Address) :
    Account watched shares own (Builder.typedArray buffer offset length onHeap) :=
  allocObject _ (by decide) fun _ hview =>
  .bind (setWord hview _ (by decide) (by decide)) fun _ =>
  .bind (setWord hview _ (by decide) (by decide)) fun _ =>
  .bind (setWord hview _ (by decide) (by decide)) fun _ =>
  match onHeap with
  | none => .pure _
  | some _ =>
    allocTyped _ (by decide) fun _ helements =>
    .bind (setWord helements _ (by decide) (by decide)) fun _ =>
    .bind (setWord helements _ (by decide) (by decide)) fun _ =>
    .bind (setWord helements _ (by decide) (by decide)) fun _ =>
    -- The view was reserved before its elements.
    .bind (setWord (List.mem_cons_of_mem _ hview) _ (by decide) (by decide)) fun _ =>
    .pure _

end Account

/-! ### Runs -/

/-- A construction that can be asked for. -/
inductive Step where
  | alloc (size : ℕ)
  | map (type : ℤ)
  | objectMap (type : ℤ) (inObject : ℕ) (descriptors : Option (Address × ℕ))
      (constructor? : Option Address)
  | oneByteString (text : String)
  | twoByteString (text : String)
  | consString (first second : Address) (length : ℕ)
  | slicedString (parent : Address) (offset : ℤ) (length : ℕ)
  | oddball (kind : ℤ)
  | undefined
  | theHole
  | heapNumber (d : Double)
  | symbol (description : Option String)
  | arrayOfType (type : ℤ) (slots : List UInt64)
  | fixedArray (slots : List UInt64)
  | descriptors (entries : List (Address × ℤ × UInt64))
  | objectOfType (type : ℤ) (properties : List (String × UInt64)) (constructor? : Option Address)
  | object (properties : List (String × UInt64))
  | jsArray (elements : List UInt64)
  | date (time : Double)
  | script (name source : String) (lineOffset : ℤ)
  | sharedInfo (name : String) (script : Option Address) (start stop : ℤ)
  | function (shared : Address) (context : Option Address)
  | scopeInfo (parameters : ℤ) (locals : List String) (name : Option String)
  | context (closure previous : Option Address) (scopeInfo : Address) (locals : List UInt64)
  | rawBytes (data : List UInt8)
  | arrayBuffer (data : List UInt8) (isNeutered : Bool)
  | typedArray (buffer : Address) (offset length : UInt64) (onHeap : Option Address)

/-- Builds what a construction is for. -/
def build : Step → BuildM Address
  | .alloc size => alloc size
  | .map type => map type
  | .objectMap type inObject descriptors constructor? =>
    objectMap type inObject descriptors constructor?
  | .oneByteString text => oneByteString text
  | .twoByteString text => twoByteString text
  | .consString first second length => consString first second length
  | .slicedString parent offset length => slicedString parent offset length
  | .oddball kind => oddball kind
  | .undefined => undefined
  | .theHole => theHole
  | .heapNumber d => heapNumber d
  | .symbol description => symbol description
  | .arrayOfType type slots => arrayOfType type slots
  | .fixedArray slots => fixedArray slots
  | .descriptors entries => descriptors entries
  | .objectOfType type properties constructor? =>
    objectOfType type properties constructor?
  | .object properties => object properties
  | .jsArray elements => jsArray elements
  | .date time => date time
  | .script name source lineOffset => script name source lineOffset
  | .sharedInfo name script start stop => sharedInfo name script start stop
  | .function shared context => function shared context
  | .scopeInfo parameters locals name => scopeInfo parameters locals name
  | .context closure previous scopeInfo locals =>
    context closure previous scopeInfo locals
  | .rawBytes data => rawBytes data
  | .arrayBuffer data isNeutered => arrayBuffer data isNeutered
  | .typedArray buffer offset length onHeap => typedArray buffer offset length onHeap

/-- Every construction is accounted for, and needs no blocks but its own. -/
def Account.ofStep :
    (step : Step) → (watched → step ≠ .oddball takenKind) → Account watched false [] (build step)
  | .alloc size, _ => .alloc (f := Pure.pure) size fun _ => .pure _
  | .map type, _ => map type
  | .objectMap .., _ => newMap _
  | .oneByteString text, _ => oneByteString text
  | .twoByteString text, _ => twoByteString text
  | .consString .., _ => consString ..
  | .slicedString .., _ => slicedString ..
  | .oddball _, hstep => oddball fun hw hkind => hstep hw (congrArg Step.oddball hkind)
  | .undefined, _ => oddball fun _ => undefined_ne_taken
  | .theHole, _ => oddball fun _ => by decide
  | .heapNumber d, _ => heapNumber d
  | .symbol description, _ => symbol description
  | .arrayOfType type slots, _ => arrayOfType type slots
  | .fixedArray slots, _ => arrayOfType _ slots
  | .descriptors _, _ => arrayOfType _ _
  | .objectOfType .., _ => objectOfType ..
  | .object _, _ => objectOfType ..
  | .jsArray elements, _ => jsArray elements
  | .date time, _ => date time
  | .script .., _ => script ..
  | .sharedInfo .., _ => sharedInfo ..
  | .function .., _ => function ..
  | .scopeInfo .., _ => scopeInfo ..
  | .context .., _ => arrayOfType _ _
  | .rawBytes data, _ => rawBytes data
  | .arrayBuffer .., _ => arrayBuffer ..
  | .typedArray .., _ => typedArray ..

/-- The account of a step in a heap where no map is watched. -/
def account (step : Step) : Account False false [] (build step) := .ofStep step False.elim

/-- The heap after some constructions. -/
def run (b : Builder) (steps : List Step) : Builder :=
  steps.foldl (fun b step => after (build step) b) b

theorem next_le_run (b : Builder) (steps : List Step) : b.next ≤ (b.run steps).next := by
  induction steps generalizing b with
  | nil => exact le_rfl
  | cons step steps ih => exact ((account step).tidy.next_le b).trans (ih _)

/-- Whatever is built, what stood before stands. -/
theorem kept_run (b : Builder) (steps : List Step) (hnext : (b.run steps).next ≤ UInt64.size) :
    Kept False ∅ b (b.run steps) := by
  induction steps generalizing b with
  | nil => exact .refl
  | cons step steps ih =>
    have htidy := (account step).tidy
    have hle := next_le_run (after (build step) b) steps
    have hkept := htidy.kept_empty b (hle.trans hnext)
    exact hkept.trans (ih _ hnext) (htidy.next_le b) hle

/-- No step makes the oddball that goes by the number of one-byte strings while there is no map of
these. -/
def KeepsStringMap : Builder → List Step → Prop
  | _, [] => True
  | b, step :: steps =>
    (step = .oddball takenKind → b.shared[InstanceType.oneByteString]?.isSome) ∧
      KeepsStringMap (after (build step) b) steps

theorem sharesStringMap_run {steps : List Step} (hkeeps : KeepsStringMap b steps)
    (hnext : (b.run steps).next ≤ UInt64.size) (hshares : SharesStringMap ∅ b) :
    SharesStringMap ∅ (b.run steps) := by
  induction steps generalizing b with
  | nil => exact hshares
  | cons step steps ih =>
    refine ih hkeeps.2 hnext ?_
    show SharesStringMap ∅ (after (build step) b)
    by_cases htaken : step = .oddball takenKind
    · -- There is a map already, and it is returned.
      subst htaken
      obtain ⟨map, hmap⟩ := Option.isSome_iff_exists.mp (hkeeps.1 rfl)
      have hsame : after (oddball takenKind) b = b := (after_oddball_some hmap).1
      show SharesStringMap ∅ (after (oddball takenKind) b)
      rwa [hsame]
    · have htidy : Tidy True ∅ (build step) := (Account.ofStep step fun _ => htaken).tidy
      have hle := (next_le_run (after (build step) b) steps).trans hnext
      exact (htidy.kept_empty b hle).strings trivial hshares

end Postmortem.Synthetic.Builder
