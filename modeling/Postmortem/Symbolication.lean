/-
Postmortem/Symbolication.lean

What an address of an executable stands for.

Where the source is known, the innermost place that has a name gives the
symbol, and the innermost place that has a file gives the location.  Without
a name from there, the function that the address lies in gives the symbol.
-/
import Postmortem.Dwarf.Place
import Postmortem.Elf.Executable
import Postmortem.Mangling

namespace Postmortem

/-- What an address stands for. -/
structure Symbolication where
  symbol : Option SymbolName
  location : Option SourceLocation

namespace Executable

/-- The debug section of a name; nothing if there is none. -/
def debugSection (x : Executable) (name : String) : FileData :=
  ((x.debugSections.find? (·.1 == name)).map (·.2)).getD #[]

/-- The places of an address in the source, innermost first. -/
def places (x : Executable) (address : Nat) : List Dwarf.Place :=
  if x.debugSections.any (·.1 == ".debug_info") then
    (Dwarf.places? ⟨x.order, x.debugSection⟩ address).getD []
  else []

/-- The function that an address lies in. -/
def functionAt? (x : Executable) (address : Nat) : Option FunctionSymbol :=
  FunctionSymbol.at? x.functions address

/-- What an address of the file stands for. -/
def symbolize (x : Executable) (a : Address) : Symbolication :=
  let address := a.word.toNat
  let places := x.places address
  let name := places.findSome? (·.function) <|> (x.functionAt? address).map (·.name)
  ⟨name.map SymbolName.ofRaw, places.findSome? (·.location)⟩

end Executable

end Postmortem
