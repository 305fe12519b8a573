/-
Postmortem/Mangling/Path.lean

Names that spell a path.

Behind `_R` such a name spells the path of an item: where it is defined, its
own name, and the types and constants it was made for.  A part may refer back
to an earlier place of the name instead of repeating what stands there; when
a name is only checked, references are not followed.

Paths, types and constants stand inside each other.  `levels` counts how much
deeper a part may go, and what goes deeper than `maxDepth` is not read.
-/
import Postmortem.Mangling.Writer

namespace Postmortem.Mangling

open Writing

/-- No part of a name stands deeper than this. -/
def maxDepth : Nat := 500

/-! ### Parts of parts -/

/-- Types that one letter stands for. -/
def basicType? : Char → Option String
  | 'b' => some "bool"
  | 'c' => some "char"
  | 'e' => some "str"
  | 'u' => some "()"
  | 'a' => some "i8"
  | 's' => some "i16"
  | 'l' => some "i32"
  | 'x' => some "i64"
  | 'n' => some "i128"
  | 'i' => some "isize"
  | 'h' => some "u8"
  | 't' => some "u16"
  | 'm' => some "u32"
  | 'y' => some "u64"
  | 'o' => some "u128"
  | 'j' => some "usize"
  | 'f' => some "f32"
  | 'd' => some "f64"
  | 'z' => some "!"
  | 'p' => some "_"
  | 'v' => some "..."
  | _ => none

/-- A place before the reference in the name, where `whole` is the name from its start. -/
def reference (whole : List Char) : Piece Nat := fun cs => do
  let (place, rest) ← number62 cs
  guard (place + cs.length + 1 < whole.length)
  pure (place, rest)

/-- Follows a reference with `part`, one level deeper if there is one. -/
def followed {α : Type} (whole : List Char) (otherwise : α) (part : Option (Writing α)) :
    Writing α :=
  reading otherwise (reference whole) fun place =>
    match part with
    | none => fault otherwise .tooDeep
    | some part => do
      if (← get).showing then elsewhere (whole.drop place) part else pure otherwise

/-- A part that would be too deep. -/
def refused : Writing Unit := reading () (fun cs => some ((), cs)) fun _ => fault () .tooDeep

/-- A lifetime: zero has no name, others count from the one named last. -/
def lifetime (index : Nat) : Writing Unit := do
  let w ← get
  if w.showing then
    write "'"
    if index = 0 then write "_"
    else if index ≤ w.lifetimes then
      let place := w.lifetimes - index
      if place < 26 then write (String.singleton (Char.ofNat ('a'.toNat + place)))
      else
        write "_"
        write (toString place)
    else fault () .invalid

/-- Names `count` more lifetimes; `isFirst` tells whether the first of them is the first at all. -/
def nameLifetimes : Nat → Bool → Writing Unit
  | 0, _ => pure ()
  | count + 1, isFirst => do
    if !isFirst then write ", "
    modify fun w => { w with lifetimes := w.lifetimes + 1 }
    lifetime 1
    nameLifetimes count false

/-- A part with lifetimes of its own. -/
def binding (part : Writing Unit) : Writing Unit :=
  reading () (tagged62 'G') fun count => do
    if (← get).showing then
      if 0 < count then
        write "for<"
        nameLifetimes count true
        write "> "
      part
      modify fun w => { w with lifetimes := w.lifetimes - count }
    else part

/-- A name in a path, of a kind of its own if it has a tag. -/
def member (tag : Option Char) (number : Nat) (name : Identifier) : Writing Unit := do
  match tag with
  | some tag =>
    write "::\x7b"
    write (if tag = 'C' then "closure" else if tag = 'S' then "shim" else String.singleton tag)
    if !name.isEmpty then
      write ":"
      writeAll name.shown
    write "#"
    write (toString number)
    write "\x7d"
  | none =>
    if !name.isEmpty then
      write "::"
      writeAll name.shown

/-- An unsigned number; one that is not a word keeps its digits. -/
def number : Writing Unit :=
  reading () hexDigits fun digits =>
    match hexWord? digits with
    | some n => write (toString n)
    | none => do
      write "0x"
      write (String.ofList digits)

/-- A truth value. -/
def truth : Writing Unit :=
  reading () hexDigits fun digits =>
    match hexWord? digits with
    | some 0 => write "false"
    | some 1 => write "true"
    | _ => fault () .invalid

/-- A character. -/
def character : Writing Unit :=
  reading () hexDigits fun digits =>
    match (hexWord? digits).filter (·.isValidChar) with
    | some n => quoted '\'' [Char.ofNat n]
    | none => fault () .invalid

/-- A text. -/
def literal : Writing Unit :=
  reading () hexDigits fun digits =>
    match hexText? digits with
    | some s => quoted '"' s.toList
    | none => fault () .invalid

/-- A function type, from the calling convention on. -/
def functionType (isUnsafe : Bool) (convention : Option (List Char)) (type : Writing Unit) :
    Writing Unit := do
  if isUnsafe then write "unsafe "
  if let some name := convention then
    write "extern \""
    write (String.ofList (name.map fun c => if c = '_' then '-' else c))
    write "\" "
  write "fn("
  let _ ← list ", " type
  write ")"
  if !(← eat 'u') then
    write " -> "
    type

/-! ### Paths, types, constants -/

mutual

/-- A path.  Where it is a value, its arguments are set off by a double colon. -/
def path (whole : List Char) (levels : Nat) (inValue : Bool) : Writing Unit :=
  match levels with
  | 0 => refused
  | levels + 1 =>
    reading () anyChar fun tag =>
      match tag with
      | 'C' =>
        reading () disambiguator fun _ => reading () identifier fun name => writeAll name.shown
      | 'N' =>
        reading () namespaceTag fun kind => do
          path whole levels inValue
          if !(← isReading) then write "::"
          reading () disambiguator fun number => reading () identifier fun name =>
            member kind number name
      | 'M' =>
        reading () disambiguator fun _ => do
          hidden (path whole levels false)
          write "<"
          type whole levels
          write ">"
      | 'X' =>
        reading () disambiguator fun _ => do
          hidden (path whole levels false)
          implementation whole levels
      | 'Y' => implementation whole levels
      | 'I' => do
        path whole levels inValue
        if inValue then write "::"
        write "<"
        let _ ← list ", " (argument whole levels)
        write ">"
      | 'B' =>
        followed whole () <|
          match levels with
          | 0 => none
          | levels + 1 => some (path whole levels inValue)
      | _ => fault () .invalid
termination_by (levels, 0)

/-- A type seen as a trait. -/
def implementation (whole : List Char) (levels : Nat) : Writing Unit := do
  write "<"
  type whole levels
  write " as "
  path whole levels false
  write ">"
termination_by (levels, 1)

/-- An argument between angle brackets. -/
def argument (whole : List Char) (levels : Nat) : Writing Unit := do
  if ← eat 'L' then reading () number62 lifetime
  else if ← eat 'K' then constant whole levels false
  else type whole levels
termination_by (levels, 1)

/-- A type, which may be marked as the type of many arguments. -/
def type (whole : List Char) (levels : Nat) : Writing Unit := do
  if ← eat 'w' then write "#[splat] "
  reading () anyChar fun tag =>
    match basicType? tag with
    | some name => write name
    | none =>
      match levels with
      | 0 => fault () .tooDeep
      | levels + 1 =>
        let pointer (spelling : String) : Writing Unit := do
          write spelling
          type whole levels
        let borrowed (spelling : String) : Writing Unit := do
          write "&"
          if ← eat 'L' then
            reading () number62 fun index => do
              if index ≠ 0 then
                lifetime index
                write " "
              pointer spelling
          else pointer spelling
        match tag with
        | 'R' => borrowed ""
        | 'Q' => borrowed "mut "
        | 'P' => pointer "*const "
        | 'O' => pointer "*mut "
        | 'A' => do
          pointer "["
          write "; "
          constant whole levels true
          write "]"
        | 'S' => do
          pointer "["
          write "]"
        | 'T' => do
          write "("
          let count ← list ", " (type whole levels)
          if count = 1 then write ","
          write ")"
        | 'F' =>
          binding do
            let isUnsafe ← eat 'U'
            if ← eat 'K' then
              if ← eat 'C' then functionType isUnsafe (some ['C']) (type whole levels)
              else
                reading () identifier fun name =>
                  if name.ascii.isEmpty || !name.codes.isEmpty then fault () .invalid
                  else functionType isUnsafe (some name.ascii) (type whole levels)
            else functionType isUnsafe none (type whole levels)
        | 'D' => do
          write "dyn "
          binding do
            let _ ← list " + " (bound whole levels)
          if ← eat 'L' then
            reading () number62 fun index => do
              if index ≠ 0 then
                write " + "
                lifetime index
          else fault () .invalid
        | 'W' => do
          pointer ""
          write " is "
          pattern whole levels
        | 'B' =>
          followed whole () <|
            match levels with
            | 0 => none
            | levels + 1 => some (type whole levels)
        | _ => do
          giveBack tag
          path whole levels false
termination_by (levels, 0)

/-- Which values of a type are meant. -/
def pattern (whole : List Char) (levels : Nat) : Writing Unit :=
  reading () anyChar fun tag =>
    match tag with
    | 'N' => write "!null"
    | 'R' => do
      constant whole levels false
      write "..="
      constant whole levels false
    | 'O' => do
      match levels with
      | 0 => fault () .tooDeep
      | levels + 1 =>
        let _ ← list " | " (pattern whole levels)
    | _ => fault () .invalid
termination_by (levels, 1)

/-- A trait whose angle brackets are left open for what is bound in them; what comes out is
whether it has any. -/
def openTrait (whole : List Char) (levels : Nat) : Writing Bool := do
  if ← eat 'B' then
    followed whole false <|
      match levels with
      | 0 => none
      | levels + 1 => some (openTrait whole levels)
  else if ← eat 'I' then
    path whole levels false
    write "<"
    let _ ← list ", " (argument whole levels)
    pure true
  else
    path whole levels false
    pure false
termination_by (levels, 2)

/-- The types and constants bound to names of a trait, at most `limit` of them; what comes out is
whether angle brackets are open after them, or none if they could not be read. -/
def bindings (whole : List Char) (levels limit : Nat) (isOpen : Bool) : Writing (Option Bool) := do
  match limit with
  | 0 => pure (some isOpen)
  | limit + 1 =>
    if ← eat 'p' then
      write (if isOpen then ", " else "<")
      reading none identifier fun name => do
        writeAll name.shown
        write " = "
        if ← eat 'K' then constant whole levels false else type whole levels
        bindings whole levels limit true
    else pure (some isOpen)
termination_by (levels, 1 + limit)

/-- A trait with the types and constants bound to names of it. -/
def bound (whole : List Char) (levels : Nat) : Writing Unit := do
  let isOpen ← openTrait whole levels
  if let some true ← bindings whole levels whole.length isOpen then write ">"
termination_by (levels, 3 + whole.length)

/-- A constant.  Outside of a value, all but plain ones stand in braces. -/
def constant (whole : List Char) (levels : Nat) (inValue : Bool) : Writing Unit :=
  reading () anyChar fun tag =>
    match levels with
    | 0 => fault () .tooDeep
    | levels + 1 =>
      let opening : Writing Unit := if inValue then pure () else write "\x7b"
      let closing : Writing Unit := if inValue then pure () else write "\x7d"
      let referred (spelling : String) : Writing Unit := do
        opening
        write spelling
        constant whole levels true
        closing
      let field : Writing Unit :=
        reading () disambiguator fun _ => reading () identifier fun name => do
          writeAll name.shown
          write ": "
          constant whole levels true
      match tag with
      | 'p' => write "_"
      | 'h' | 't' | 'm' | 'y' | 'o' | 'j' => number
      | 'a' | 's' | 'l' | 'x' | 'n' | 'i' => do
        if ← eat 'n' then write "-"
        number
      | 'b' => truth
      | 'c' => character
      | 'e' => do
        opening
        write "*"
        literal
        closing
      | 'R' => do
        if ← eat 'e' then literal else referred "&"
      | 'Q' => referred "&mut "
      | 'A' => do
        opening
        write "["
        let _ ← list ", " (constant whole levels true)
        write "]"
        closing
      | 'T' => do
        opening
        write "("
        let count ← list ", " (constant whole levels true)
        if count = 1 then write ","
        write ")"
        closing
      | 'V' => do
        opening
        path whole levels true
        reading () anyChar fun shape =>
          match shape with
          | 'U' => closing
          | 'T' => do
            write "("
            let _ ← list ", " (constant whole levels true)
            write ")"
            closing
          | 'S' => do
            write " \x7b "
            let _ ← list ", " field
            write " \x7d"
            closing
          | _ => fault () .invalid
      | 'B' =>
        followed whole () <|
          match levels with
          | 0 => none
          | levels + 1 => some (constant whole levels inValue)
      | _ => fault () .invalid
termination_by (levels, 0)

end

/-! ### Names -/

/-- What stands before and behind the first `mark` of a text. -/
def cutAt? (mark : List Char) : List Char → Option (List Char × List Char)
  | [] => none
  | c :: cs =>
    if mark.isPrefixOf (c :: cs) then some ([], (c :: cs).drop mark.length)
    else (cutAt? mark cs).map fun found => (c :: found.1, found.2)

/-- A name without the mark that a linker gives to a copy. -/
def withoutCopyMark (name : List Char) : List Char :=
  match cutAt? ".llvm.".toList name with
  | some (before, behind) =>
    if behind.all fun c => c.isDigit || ('A' ≤ c && c ≤ 'F') || c == '@' then before else name
  | none => name

/-- Whether a path may start with this. -/
def isPathStart (cs : List Char) : Bool := (cs.head?.map Char.isUpper).getD false

/-- What follows the path in front of `cs`, if there is one. -/
def behindPath? (whole cs : List Char) : Option (List Char) :=
  match (path whole maxDepth false).run (.start cs false) with
  | .ok _ w => w.rest.toOption
  | .error _ _ => none

/-- What a path says, as much of it as there is room for. -/
def shownPath (cs : List Char) : String :=
  match (path cs maxDepth true).run (.start cs true) with
  | .ok _ w => w.text
  | .error _ w => w.text ++ "\x7bsize limit reached\x7d"

/-- What a name of the path form says.  Behind the path may stand the path of the unit
that asked for the item, which is not shown. -/
def pathName? (raw : List Char) : Option String := do
  let cs := (withoutCopyMark raw).drop 2
  guard (isPathStart cs)
  guard (cs.all fun c => c.toNat < 128)
  let rest ← behindPath? cs cs
  let suffix ← if isPathStart rest then behindPath? cs rest else some rest
  guard (isSuffix suffix)
  pure (shownPath cs ++ String.ofList suffix)

end Postmortem.Mangling
