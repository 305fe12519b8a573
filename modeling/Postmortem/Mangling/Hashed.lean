/-
Postmortem/Mangling/Hashed.lean

Names that end in a hash.

Behind `_ZN` such a name has elements, each its length in decimal and then
that many characters, and an `E` after the last.  The last element is `h` and
a hash, and is not shown.  Characters that symbols cannot have are written as
`$LT$`, `$u7b$` and the like, and a double colon inside an element as `..`.
-/
import Postmortem.Word

namespace Postmortem.Mangling

/-! ### The hash -/

/-- How many characters `17h`, a hash of sixteen digits and `E` take. -/
def hashLength : Nat := 20

/-- Whether `cs` is `17h`, a hash of sixteen digits and `E`. -/
def isHashEnd (cs : List Char) : Bool :=
  cs.take 3 == ['1', '7', 'h'] && ((cs.drop 3).take 16).all (fun c => (Word.hexValue? c).isSome)
    && cs.drop 19 == ['E']

/-- Whether a name is of the hashed form: `_ZN` in front and the hash at the end. -/
def isHashed (raw : List Char) : Bool :=
  match raw with
  | '_' :: 'Z' :: 'N' :: cs => isHashEnd (cs.drop (cs.length - hashLength))
  | _ => false

/-! ### Elements -/

/-- The number that decimal digits write. -/
def decimal (digits : List Char) : Nat :=
  digits.foldl (fun n c => 10 * n + (c.toNat - '0'.toNat)) 0

/-- The elements in front, and what stands behind the `E` after them. -/
def elements? (cs : List Char) : Option (List (List Char) × List Char) :=
  if cs.head? = some 'E' then some ([], cs.tail)
  else
    let digits := cs.takeWhile Char.isDigit
    if _hd : digits.isEmpty then none
    else
      let rest := cs.drop digits.length
      let length := decimal digits
      if rest.length < length then none
      else
        (elements? (rest.drop length)).map fun found =>
          (rest.take length :: found.1, found.2)
termination_by cs.length
decreasing_by
  have hp := (List.takeWhile_prefix (p := Char.isDigit) (l := cs)).length_le
  have hn : 0 < (cs.takeWhile Char.isDigit).length := by
    rcases h : cs.takeWhile Char.isDigit with _ | ⟨c, rest⟩
    · exact absurd (by simp [digits, h]) _hd
    · simp
  simp only [List.length_drop]
  omega

/-! ### Escapes -/

/-- Whether `c` is a control character. -/
def isControl (c : Char) : Bool := c.toNat < 32 || (127 ≤ c.toNat && c.toNat < 160)

/-- The character that lower-case hexadecimal digits number, if it can be shown. -/
def numbered? (digits : List Char) : Option Char := do
  guard (digits.all fun c => c.isDigit || ('a' ≤ c && c ≤ 'f'))
  guard (digits ≠ [])
  let n ← Word.ofHexDigits? digits
  guard n.isValidChar
  let c := Char.ofNat n
  guard (!isControl c)
  pure c

/-- The character that stands for the code between two dollar signs. -/
def escaped? : List Char → Option Char
  | ['S', 'P'] => some '@'
  | ['B', 'P'] => some '*'
  | ['R', 'F'] => some '&'
  | ['L', 'T'] => some '<'
  | ['G', 'T'] => some '>'
  | ['L', 'P'] => some '('
  | ['R', 'P'] => some ')'
  | ['C'] => some ','
  | 'u' :: digits => numbered? digits
  | _ => none

/-- The character that `cs`, behind a dollar sign, escapes, and how many characters that takes. -/
def escape? (cs : List Char) : Option (Char × Nat) :=
  let code := cs.takeWhile (· != '$')
  if code.length < cs.length then (escaped? code).map (·, code.length + 1) else none

/-- An element with its escapes resolved; from an escape that has no meaning on it is left as it
stands. -/
def unescape : List Char → List Char
  | [] => []
  | '.' :: '.' :: cs => ':' :: ':' :: unescape cs
  | c :: cs =>
    if c = '$' then
      match escape? cs with
      | some (shown, length) => shown :: unescape (cs.drop length)
      | none => c :: cs
    else c :: unescape cs
termination_by cs => cs.length
decreasing_by all_goals simp only [List.length_cons, List.length_drop]; omega

/-- An element as it is shown.  An underscore guards an escape at its start. -/
def shownElement : List Char → List Char
  | '_' :: '$' :: cs => unescape ('$' :: cs)
  | cs => unescape cs

/-! ### Names -/

/-- Whether an element is a hash. -/
def isHash : List Char → Bool
  | 'h' :: digits => digits.all fun c => (Word.hexValue? c).isSome
  | _ => false

/-- The elements without a hash at their end. -/
def withoutHash (elements : List (List Char)) : List (List Char) :=
  if (elements.getLast?.map isHash).getD false then elements.dropLast else elements

/-- Whether `c` can be seen in plain text. -/
def isGraphic (c : Char) : Bool := 33 ≤ c.toNat && c.toNat ≤ 126

/-- Whether `cs` may follow a mangled name: nothing, or words set off by points. -/
def isSuffix (cs : List Char) : Bool :=
  cs.isEmpty || (cs.head? == some '.' && cs.all isGraphic)

/-- What a name of the hashed form says. -/
def hashedName? (raw : List Char) : Option String := do
  let cs := raw.drop 3
  guard (cs.all fun c => c.toNat < 128)
  let (elements, suffix) ← elements? cs
  guard (isSuffix suffix)
  let shown := (withoutHash elements).map fun e => String.ofList (shownElement e)
  pure ("::".intercalate shown ++ String.ofList suffix)

end Postmortem.Mangling
