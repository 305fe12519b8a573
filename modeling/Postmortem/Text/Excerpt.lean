/-
Postmortem/Text/Excerpt.lean

The part of a text that is shown.

With a limit, an excerpt is a window of bytes: it starts at the first
character boundary at or after the cursor and ends at the first boundary at
which the limit is reached.  Without one, it is the first characters up to a
cap.  An excerpt that leaves text behind it ends in three dots.
-/
import Postmortem.Text.Utf8

namespace Postmortem

/-- A shown part of a text. -/
structure Excerpt where
  /-- What is shown, dots included. -/
  shown : String
  /-- Bytes of the whole text. -/
  length : Nat
  /-- The cursor behind a window; none when the text was only capped. -/
  next : Option Nat
  hasMore : Bool
  deriving DecidableEq

namespace Excerpt

/-- The text of `cs`, with dots behind it when `hasMore`. -/
def dotted (cs : List Char) (hasMore : Bool) : String :=
  String.ofList (if hasMore then cs ++ ['.', '.', '.'] else cs)

/-- The window of `limit` bytes at `current`. -/
def window (text : List Char) (current limit : Nat) : Excerpt :=
  let length := Utf8.size text
  if length ≤ current then ⟨"", length, some length, false⟩
  else
    let rest := Utf8.dropBytes current text
    let taken := Utf8.takeBytes limit rest
    let stop := length - Utf8.size rest + Utf8.size taken
    ⟨dotted taken (stop < length), length, some stop, stop < length⟩

/-- The first `cap` characters. -/
def capped (text : List Char) (cap : Nat) : Excerpt :=
  let cut := cap < text.length
  ⟨dotted (text.take cap) cut, Utf8.size text, none, cut⟩

/-- A window when `limit` is not zero, the capped text otherwise. -/
def of (text : String) (current limit cap : Nat) : Excerpt :=
  if limit = 0 then capped text.toList cap else window text.toList current limit

end Excerpt

end Postmortem
