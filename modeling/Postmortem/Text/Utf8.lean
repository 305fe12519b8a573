/-
Postmortem/Text/Utf8.lean

Text as UTF-8 bytes.

A lead byte announces how many bytes a character takes and narrows what its
second byte may be.  `Utf8.leading` reads one piece from the front: a
character, or the longest start of one that its next byte breaks off.
`decodeLossy` puts U+FFFD for each broken piece, `decode?` refuses the text.
`takeBytes` and `dropBytes` cut a text by bytes without splitting a
character: a cut inside a character moves to its end
(`takeBytes_append_dropBytes`).
-/

namespace Postmortem.Utf8

/-! ### Decoding -/

/-- Any byte of a character but its first. -/
def isContinuation (b : UInt8) : Bool := 0x80 ≤ b && b < 0xc0

/-- How many bytes a character that starts with `lead` takes; none if no character does. -/
def width (lead : UInt8) : Nat :=
  if lead < 0x80 then 1
  else if lead < 0xc2 then 0
  else if lead < 0xe0 then 2
  else if lead < 0xf0 then 3
  else if lead < 0xf5 then 4
  else 0

/-- Whether `second` may follow `lead`: the shortest spelling only, and no surrogates. -/
def admitsSecond (lead second : UInt8) : Bool :=
  if lead == 0xe0 then 0xa0 ≤ second && second < 0xc0
  else if lead == 0xed then 0x80 ≤ second && second < 0xa0
  else if lead == 0xf0 then 0x90 ≤ second && second < 0xc0
  else if lead == 0xf4 then 0x80 ≤ second && second < 0x90
  else isContinuation second

/-- The payload bits of a continuation byte. -/
def payload (b : UInt8) : Nat := b.toNat % 64

/-- The piece in front: its character, if it is one, and how many of the bytes after `lead`
belong to it. -/
def leading (lead : UInt8) (rest : List UInt8) : Option Char × Nat :=
  match width lead, rest with
  | 1, _ => (some (Char.ofNat lead.toNat), 0)
  | 2, b :: _ =>
    if isContinuation b then (some (Char.ofNat (lead.toNat % 32 * 64 + payload b)), 1)
    else (none, 0)
  | 3, b :: rest =>
    if admitsSecond lead b then
      match rest with
      | c :: _ =>
        if isContinuation c then
          (some (Char.ofNat (lead.toNat % 16 * 4096 + payload b * 64 + payload c)), 2)
        else (none, 1)
      | [] => (none, 1)
    else (none, 0)
  | 4, b :: rest =>
    if admitsSecond lead b then
      match rest with
      | c :: rest =>
        if isContinuation c then
          match rest with
          | d :: _ =>
            if isContinuation d then
              (some (Char.ofNat
                (lead.toNat % 8 * 262144 + payload b * 4096 + payload c * 64 + payload d)), 3)
            else (none, 2)
          | [] => (none, 2)
        else (none, 1)
      | [] => (none, 1)
    else (none, 0)
  | _, _ => (none, 0)

/-- The pieces of `bytes`: characters, and `none` for each broken one. -/
def pieces : List UInt8 → List (Option Char)
  | [] => []
  | lead :: rest =>
    (leading lead rest).1 :: pieces (rest.drop (leading lead rest).2)
termination_by bytes => bytes.length
decreasing_by simp only [List.length_cons, List.length_drop]; omega

/-- The text of `bytes`, each broken piece replaced by U+FFFD. -/
def decodeLossy (bytes : List UInt8) : String :=
  String.ofList ((pieces bytes).map (·.getD '\ufffd'))

/-- The text of `bytes`, if nothing in them is broken. -/
def decode? (bytes : List UInt8) : Option String :=
  ((pieces bytes).mapM id).map String.ofList

/-! ### Cutting by bytes -/

/-- How many bytes `cs` take. -/
def size : List Char → Nat
  | [] => 0
  | c :: cs => c.utf8Size + size cs

/-- The characters from the front that first reach `n` bytes. -/
def takeBytes : Nat → List Char → List Char
  | 0, _ => []
  | _ + 1, [] => []
  | n + 1, c :: cs => c :: takeBytes (n + 1 - c.utf8Size) cs

/-- The characters left behind `takeBytes n`. -/
def dropBytes : Nat → List Char → List Char
  | 0, cs => cs
  | _ + 1, [] => []
  | n + 1, c :: cs => dropBytes (n + 1 - c.utf8Size) cs

theorem takeBytes_append_dropBytes (n : Nat) (cs : List Char) :
    takeBytes n cs ++ dropBytes n cs = cs := by
  induction cs generalizing n with
  | nil => cases n <;> rfl
  | cons c cs ih =>
    cases n with
    | zero => rfl
    | succ n => simp [takeBytes, dropBytes, ih]

end Postmortem.Utf8
