/-
Postmortem/Mangling.lean

What the names of functions say.

Compilers mangle names so that a linker takes them.  The form of a name tells
the language: names that spell a path and names that end in a hash come from
one compiler and are read here; other names behind `_Z` are left as they are;
and what has neither mark was never mangled.
-/
import Postmortem.Mangling.Path
import Postmortem.Symbol

namespace Postmortem

namespace Mangling

/-- Whether a name is of the path form. -/
def isPath (raw : List Char) : Bool := ['_', 'R'].isPrefixOf raw

/-- The language whose compiler mangled a name. -/
def language (raw : List Char) : SymbolLanguage :=
  if isPath raw || isHashed raw then .rust
  else if ['_', 'Z'].isPrefixOf raw then .cpp
  else .c

/-- What a mangled name says, if it can be read. -/
def demangled? (raw : List Char) : Option String :=
  if isPath raw then pathName? raw else if isHashed raw then hashedName? raw else none

end Mangling

/-- A name from a symbol table, with what it says. -/
def SymbolName.ofRaw (raw : String) : SymbolName where
  raw := raw
  demangled := Mangling.demangled? raw.toList
  language := Mangling.language raw.toList

end Postmortem
