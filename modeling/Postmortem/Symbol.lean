/-
Postmortem/Symbol.lean

Names and places of native code.
-/
import Postmortem.Document

namespace Postmortem

/-- The language a symbol's name was mangled for. -/
inductive SymbolLanguage where
  | rust
  | cpp
  /-- No mangling. -/
  | c
  deriving DecidableEq

namespace SymbolLanguage

/-- The language as readers see it. -/
def text : SymbolLanguage → String
  | rust => "rust"
  | cpp => "c++"
  | c => "c"

/-- The language as programs see it. -/
def document : SymbolLanguage → Document
  | rust => .text "Rust"
  | cpp => .text "Cpp"
  | c => .text "C"

end SymbolLanguage

/-- The name of a function. -/
structure SymbolName where
  /-- The name in the symbol table. -/
  raw : String
  demangled : Option String
  language : SymbolLanguage
  deriving DecidableEq

namespace SymbolName

/-- The demangled name if there is one. -/
def text (s : SymbolName) : String := s.demangled.getD s.raw

def document (s : SymbolName) : Document :=
  .record
    [("raw", .text s.raw), ("demangled", .nullable .text s.demangled),
     ("language", s.language.document)]

end SymbolName

/-- A place in a source file. -/
structure SourceLocation where
  file : String
  line : Option Nat
  column : Option Nat
  deriving DecidableEq

namespace SourceLocation

/-- File, line and column; an unknown number is zero. -/
def text (l : SourceLocation) : String := s!"{l.file}:{l.line.getD 0}:{l.column.getD 0}"

def document (l : SourceLocation) : Document :=
  .record
    [("file", .text l.file), ("line", .nullable .nat l.line), ("column", .nullable .nat l.column)]

end SourceLocation

end Postmortem
