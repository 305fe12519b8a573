/-
Postmortem/Mangling/Piece.lean

The pieces that names of the path form are made of.

Each reader takes a piece from the front of a text and gives back what
follows it, or finds that no such piece is there.  Numbers are words: one
that does not fit is no number.
-/
import Postmortem.Mangling.Hashed
import Postmortem.Mangling.Punycode
import Postmortem.Text.Utf8

namespace Postmortem.Mangling

/-- Takes a piece from the front of a text. -/
abbrev Piece (α : Type) : Type := List Char → Option (α × List Char)

/-- Any character. -/
def anyChar : Piece Char
  | [] => none
  | c :: cs => some (c, cs)

/-! ### Numbers -/

/-- The value of a digit: numerals, small letters, capitals. -/
def digit62? (c : Char) : Option Nat :=
  if '0' ≤ c ∧ c ≤ '9' then some (c.toNat - '0'.toNat)
  else if 'a' ≤ c ∧ c ≤ 'z' then some (10 + (c.toNat - 'a'.toNat))
  else if 'A' ≤ c ∧ c ≤ 'Z' then some (36 + (c.toNat - 'A'.toNat))
  else none

/-- A number as a word. -/
def asWord (n : Nat) : Option Nat := if n < UInt64.size then some n else none

/-- One more than the number of the digits before an underscore, behind digits worth `n`. -/
def number62From : Nat → Piece Nat
  | _, [] => none
  | n, c :: cs =>
    if c = '_' then (asWord (n + 1)).map (·, cs)
    else do number62From (← asWord (62 * n + (← digit62? c))) cs

/-- A number: an underscore for zero, else digits for one less and an underscore. -/
def number62 : Piece Nat
  | '_' :: cs => some (0, cs)
  | cs => number62From 0 cs

/-- One more than the number behind a tag, or zero if the tag is not there. -/
def tagged62 (tag : Char) : Piece Nat
  | [] => some (0, [])
  | c :: cs =>
    if c = tag then do
      let (n, rest) ← number62 cs
      pure (← asWord (n + 1), rest)
    else some (0, c :: cs)

/-- The number that tells apart what has the same name. -/
def disambiguator : Piece Nat := tagged62 's'

/-! ### Identifiers -/

structure Identifier where
  ascii : List Char
  /-- The numbers that tell the other characters. -/
  codes : List Char

namespace Identifier

def isEmpty (i : Identifier) : Bool := i.ascii.isEmpty && i.codes.isEmpty

/-- What is shown of an identifier, piece by piece. -/
def shown (i : Identifier) : List String :=
  match Punycode.decode? i.ascii i.codes with
  | some cs => cs.map String.singleton
  | none =>
    if i.codes.isEmpty then [String.ofList i.ascii]
    else
      ["punycode\x7b"] ++ (if i.ascii.isEmpty then [] else [String.ofList i.ascii, "-"])
        ++ [String.ofList i.codes, "\x7d"]

/-- An identifier whose numbers stand behind its last underscore. -/
def ofCoded (cs : List Char) : Option Identifier :=
  let codes := (cs.reverse.takeWhile (· != '_')).reverse
  if codes.isEmpty then none
  else some ⟨cs.take (cs.length - codes.length - 1), codes⟩

end Identifier

/-- The length of an identifier: decimal digits, and zero by itself. -/
def identifierLength : Piece Nat
  | [] => none
  | c :: cs =>
    if c = '0' then some (0, cs)
    else
      let digits := (c :: cs).takeWhile Char.isDigit
      if digits.isEmpty then none else some (decimal digits, (c :: cs).drop digits.length)

/-- An identifier: a mark if it has characters beyond ASCII, its length, an underscore if need be,
and so many characters. -/
def identifier : Piece Identifier := fun cs => do
  let isCoded := cs.head? == some 'u'
  let (length, cs) ← identifierLength (if isCoded then cs.tail else cs)
  let cs := if cs.head? == some '_' then cs.tail else cs
  guard (length ≤ cs.length)
  let name := cs.take length
  pure (← if isCoded then Identifier.ofCoded name else some ⟨name, []⟩, cs.drop length)

/-- What kind of thing a name stands for: a capital for a kind of its own. -/
def namespaceTag : Piece (Option Char)
  | [] => none
  | c :: cs =>
    if 'A' ≤ c ∧ c ≤ 'Z' then some (some c, cs)
    else if 'a' ≤ c ∧ c ≤ 'z' then some (none, cs)
    else none

/-! ### Data -/

/-- Lower-case hexadecimal digits before an underscore. -/
def hexDigits : Piece (List Char) := fun cs =>
  let digits := cs.takeWhile fun c => c.isDigit || ('a' ≤ c && c ≤ 'f')
  let rest := cs.drop digits.length
  if rest.head? == some '_' then some (digits, rest.tail) else none

/-- The number that hexadecimal digits write, if it is a word. -/
def hexWord? (digits : List Char) : Option Nat :=
  let digits := digits.dropWhile (· == '0')
  if digits.length ≤ 16 then Word.ofHexDigits? digits else none

/-- The bytes that pairs of hexadecimal digits write. -/
def hexBytes? : List Char → Option (List UInt8)
  | [] => some []
  | a :: b :: cs => do
    pure (UInt8.ofNat (16 * (← Word.hexValue? a) + (← Word.hexValue? b)) :: (← hexBytes? cs))
  | [_] => none

/-- The text that pairs of hexadecimal digits write. -/
def hexText? (digits : List Char) : Option String := (hexBytes? digits).bind Utf8.decode?

end Postmortem.Mangling
