/-
Postmortem/Cli/Arguments.lean

Reading arguments by a grammar.

A grammar lists the options, the places and the commands that may follow each
other.  An option stands behind two dashes with its long name, or behind one
dash with its letter; letters may be run together, and a value may follow in
the same argument or in the next one.  Two dashes alone make all that follows
plain.  No option is given twice.
-/

namespace Postmortem.Cli

/-- Why a command line is not run. -/
inductive Refusal where
  /-- It does not follow the grammar. -/
  | usage
  /-- It asks for help. -/
  | help
  /-- It asks for the version. -/
  | version
  deriving DecidableEq

/-- An option. -/
structure Switch where
  long : String
  letter : Option Char
  /-- The values that the option takes, if it takes any. -/
  takes : Option (String → Bool)

/-- What may stand in a command line. -/
structure Grammar where
  switches : List Switch
  /-- For each place, what may stand there. -/
  places : List (String → Bool)
  /-- Names that end this part of the command line. -/
  commands : List String
  hasVersion : Bool

/-- What was given. -/
structure Given where
  /-- Options by their long names, with their values. -/
  switches : List (String × String)
  places : List String

namespace Given

def has (g : Given) (long : String) : Bool := g.switches.any (·.1 == long)

def value? (g : Given) (long : String) : Option String :=
  (g.switches.find? (·.1 == long)).map (·.2)

/-- Adds an option with a value that it takes, unless it was given before. -/
def add (g : Given) (s : Switch) (value : String) : Except Refusal Given :=
  if g.has s.long || !((s.takes.map (· value)).getD true) then .error .usage
  else .ok { g with switches := g.switches ++ [(s.long, value)] }

/-- Puts an argument at the next place. -/
def place (g : Given) (grammar : Grammar) (argument : String) : Except Refusal Given :=
  match grammar.places[g.places.length]? with
  | none => .error .usage
  | some fits =>
    if fits argument then .ok { g with places := g.places ++ [argument] } else .error .usage

end Given

/-- How far a command line was read. -/
structure Progress where
  given : Given
  /-- The option that waits for its value. -/
  waiting : Option Switch
  /-- Whether all that follows is plain. -/
  isPlain : Bool

namespace Progress

def start : Progress := ⟨⟨[], []⟩, none, false⟩

/-- An option by its long name, with the value behind an equals sign if there is one. -/
def long (p : Progress) (g : Grammar) (text : List Char) : Except Refusal Progress := do
  if p.waiting.isSome then throw .usage
  let name := String.ofList (text.takeWhile (· != '='))
  let behind := text.dropWhile (· != '=')
  if name = "help" ∧ behind = [] then throw .help
  if name = "version" ∧ behind = [] ∧ g.hasVersion = true then throw .version
  match g.switches.find? (·.long == name) with
  | none => throw .usage
  | some s =>
    match s.takes, behind with
    | some _, [] => pure { p with waiting := some s }
    | some _, _ :: value => pure { p with given := ← p.given.add s (String.ofList value) }
    | none, [] => pure { p with given := ← p.given.add s "" }
    | none, _ :: _ => throw .usage

/-- Options by their letters; the last may have its value behind it. -/
def letters (g : Grammar) : Progress → List Char → Except Refusal Progress
  | p, [] => .ok p
  | p, c :: cs => do
    if p.waiting.isSome then throw .usage
    if c = 'h' then throw .help
    if c = 'V' ∧ g.hasVersion = true then throw .version
    match g.switches.find? (·.letter == some c) with
    | none => throw .usage
    | some s =>
      match s.takes, cs with
      | none, cs => letters g { p with given := ← p.given.add s "" } cs
      | some _, [] => pure { p with waiting := some s }
      | some _, '=' :: value => pure { p with given := ← p.given.add s (String.ofList value) }
      | some _, value => pure { p with given := ← p.given.add s (String.ofList value) }

/-- An argument that is not an option: the value that is waited for, or the next place. -/
def plain (p : Progress) (g : Grammar) (argument : String) : Except Refusal Progress := do
  match p.waiting with
  | some s => pure { p with given := ← p.given.add s argument, waiting := none }
  | none => pure { p with given := ← p.given.place g argument }

end Progress

/-- What was given before the first command, and what follows from there on. -/
def Grammar.read (g : Grammar) : Progress → List String → Except Refusal (Given × List String)
  | p, [] => if p.waiting.isSome then .error .usage else .ok (p.given, [])
  | p, argument :: rest => do
    if p.isPlain then g.read (← p.plain g argument) rest
    else if p.waiting.isNone && g.commands.contains argument then pure (p.given, argument :: rest)
    else
      match argument.toList with
      | ['-', '-'] =>
        if p.waiting.isSome then throw .usage else g.read { p with isPlain := true } rest
      | '-' :: '-' :: text => g.read (← p.long g text) rest
      | '-' :: c :: cs => g.read (← p.letters g (c :: cs)) rest
      | _ => g.read (← p.plain g argument) rest

/-- The number that decimal digits write, if they write one. -/
def decimal? (digits : List Char) : Option Nat :=
  if digits.isEmpty || !digits.all Char.isDigit then none
  else some (digits.foldl (fun n c => 10 * n + (c.toNat - '0'.toNat)) 0)

/-- The number that decimal digits write, behind a plus sign if need be, below a bound. -/
def number? (bound : Nat) (typed : String) : Option Nat :=
  (match typed.toList with
    | '+' :: digits => decimal? digits
    | digits => decimal? digits).filter (· < bound)

/-- The number that decimal digits write behind either sign, below a bound.  Behind a minus it
can only be zero. -/
def signedNumber? (bound : Nat) (typed : String) : Option Nat :=
  match typed.toList with
  | '-' :: digits => (decimal? digits).filter (· = 0)
  | _ => number? bound typed

end Postmortem.Cli
