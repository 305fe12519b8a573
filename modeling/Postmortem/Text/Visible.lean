/-
Postmortem/Text/Visible.lean

Characters between quotes.

Quotes, backslashes, line ends and characters that cannot be seen are
escaped, and so are marks that would combine with what stands before them.
-/
import Postmortem.Text.Hidden

namespace Postmortem.Text

/-- A character between quotes of a given kind. -/
def quotedChar (quote c : Char) : List Char :=
  if c = '\x00' then ['\\', '0']
  else if c = '\t' then ['\\', 't']
  else if c = '\r' then ['\\', 'r']
  else if c = '\n' then ['\\', 'n']
  else if c = quote ∨ c = '\\' then ['\\', c]
  else if isHidden c then
    ['\\', 'u', '\x7b'] ++ Nat.toDigits 16 c.toNat ++ ['\x7d']
  else [c]

end Postmortem.Text
