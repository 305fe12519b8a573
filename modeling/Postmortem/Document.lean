/-
Postmortem/Document.lean

Structured output.

A `Document` is a tree of records, lists and plain values; records keep their
fields in the order they are given.  `Document.pretty` writes it as JSON, two
blanks a level, one item a line, with nothing between the brackets of an
empty list or record.  A number that is not finite is written as `null`.
-/
import Postmortem.Number.Shortest
import Postmortem.Word

namespace Postmortem

inductive Document where
  | null
  | bool (b : Bool)
  | int (i : Int)
  | double (d : Double)
  | text (s : String)
  | list (items : List Document)
  | record (fields : List (String × Document))
  deriving Inhabited

namespace Document

/-! ### Building -/

/-- A number of things. -/
def nat (n : Nat) : Document := .int n

/-- A value that may be absent, shown as `null`. -/
def nullable {α : Type} (f : α → Document) : Option α → Document
  | none => .null
  | some a => f a

/-- A field that is left out when its value is absent. -/
def optional {α : Type} (name : String) (f : α → Document) : Option α → List (String × Document)
  | none => []
  | some a => [(name, f a)]

/-! ### Text -/

/-- A character between quotes: the quote, the backslash and control characters are escaped. -/
def escaped (c : Char) : List Char :=
  if c = '"' then ['\\', '"']
  else if c = '\\' then ['\\', '\\']
  else if c = '\n' then ['\\', 'n']
  else if c = '\r' then ['\\', 'r']
  else if c = '\t' then ['\\', 't']
  else if c.toNat = 8 then ['\\', 'b']
  else if c.toNat = 12 then ['\\', 'f']
  else if c.toNat < 32 then ['\\', 'u'] ++ Word.hexDigits 4 c.toNat
  else [c]

/-- A text between quotes. -/
def quoted (s : String) : String :=
  String.ofList ('"' :: s.toList.flatMap escaped ++ ['"'])

/-- A line end followed by the indentation of a level. -/
def newline (level : Nat) : String :=
  String.ofList ('\n' :: List.replicate (2 * level) ' ')

/-- Items between brackets, one a line, indented one level more than the brackets. -/
def bracketed (opening closing : String) (level : Nat) (items : List String) : String :=
  if items.isEmpty then opening ++ closing
  else
    let separator := "," ++ newline (level + 1)
    opening ++ newline (level + 1) ++ separator.intercalate items ++ newline level ++ closing

mutual

/-- A document at an indentation level. -/
def render (level : Nat) : Document → String
  | .null => "null"
  | .bool b => if b then "true" else "false"
  | .int i => toString i
  | .double d => if d.isFinite then Number.shortestText d else "null"
  | .text s => quoted s
  | .list items => bracketed "[" "]" level (renderItems (level + 1) items)
  | .record fields => bracketed "\x7b" "\x7d" level (renderFields (level + 1) fields)

/-- The items of a list. -/
def renderItems (level : Nat) : List Document → List String
  | [] => []
  | d :: ds => render level d :: renderItems level ds

/-- The fields of a record, each behind its name. -/
def renderFields (level : Nat) : List (String × Document) → List String
  | [] => []
  | f :: fs => renderField level f :: renderFields level fs

/-- A field behind its name. -/
def renderField (level : Nat) : String × Document → String
  | (name, d) => quoted name ++ ": " ++ render level d

end

/-- The document as JSON. -/
def pretty (d : Document) : String := render 0 d

end Document

end Postmortem
