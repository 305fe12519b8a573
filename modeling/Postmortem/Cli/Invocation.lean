/-
Postmortem/Cli/Invocation.lean

What a command line asks for.

A command line names a core file, its executable and a command; the options
of a command stand behind its name.
-/
import Postmortem.Cli.Arguments
import Postmortem.Logging
import Postmortem.Options

namespace Postmortem.Cli

inductive Command where
  /-- Prints the value at an address. -/
  | inspect (address : String) (options : Options) (json : Bool)
  /-- Lists the threads. -/
  | threads (json : Bool)
  /-- Prints frames of a thread. -/
  | backtrace (thread current limit : Nat) (json : Bool)
  /-- Prints what kind of value is at an address. -/
  | typeName (address : String)
  /-- Lists the keys of an object. -/
  | keys (address : String)
  /-- Writes the whole text of a string to a file. -/
  | exportString (address file : String)

structure Invocation where
  core : String
  executable : String
  logLevel : Option LogLevel
  command : Command

/-! ### Grammars -/

/-- Whether a text is a number that counts things. -/
def isCount (typed : String) : Bool := (number? UInt64.size typed).isSome

/-- Whether a text is a number of levels. -/
def isDepth (typed : String) : Bool := (signedNumber? UInt32.size typed).isSome

def isPath (typed : String) : Bool := !typed.isEmpty

def isLevel (typed : String) : Bool := (LogLevel.parse typed).toOption.isSome

/-- An option without a value. -/
def flag (long : String) (letter : Option Char) : Switch := ⟨long, letter, none⟩

/-- The option that stands anywhere. -/
def logLevelSwitch : Switch := ⟨"log-level", none, some isLevel⟩

/-- The option for structured output. -/
def jsonSwitch : Switch := flag "json" none

/-- The options for a window. -/
def windowSwitches : List Switch :=
  [⟨"current", none, some isCount⟩, ⟨"limit", none, some isCount⟩]

/-- The grammar behind the name of a command. -/
def commandGrammar : String → Option Grammar
  | "inspect" => some {
      switches := [flag "detailed" (some 'F'), ⟨"length", some 'l', some isCount⟩,
        flag "map" (some 'm'), flag "source" (some 's'), ⟨"depth", none, some isDepth⟩,
        jsonSwitch, logLevelSwitch] ++ windowSwitches
      places := [fun _ => true], commands := [], hasVersion := false }
  | "threads" => some ⟨[jsonSwitch, logLevelSwitch], [], [], false⟩
  | "backtrace" => some {
      switches := [⟨"thread", some 't', some isCount⟩, jsonSwitch, logLevelSwitch]
        ++ windowSwitches
      places := [], commands := [], hasVersion := false }
  | "type" | "keys" => some ⟨[logLevelSwitch], [fun _ => true], [], false⟩
  | "export-string" => some ⟨[logLevelSwitch], [fun _ => true, isPath], [], false⟩
  | _ => none

/-- The names of the commands. -/
def commandNames : List String :=
  ["inspect", "threads", "backtrace", "type", "keys", "export-string"]

/-- The grammar before the name of a command. -/
def grammar : Grammar where
  switches := [logLevelSwitch]
  places := [isPath, isPath]
  commands := commandNames ++ ["help"]
  hasVersion := true

/-! ### Commands -/

/-- A number that was given. -/
def Given.number (g : Given) (long : String) (otherwise : Nat) : Nat :=
  ((g.value? long).bind (signedNumber? UInt64.size)).getD otherwise

/-- The command of a name, with what was given behind it. -/
def commandOf (name : String) (g : Given) : Option Command :=
  let json := g.has "json"
  match name, g.places with
  | "inspect", [address] =>
    let depth := g.number "depth" 0
    some <| .inspect address
      { Options.default with
        detailed := g.has "detailed" || 0 < depth
        maxTextLength := g.number "length" 100
        current := g.number "current" 0
        limit := g.number "limit" 0
        includeMapAddress := g.has "map"
        includeSourceText := g.has "source"
        depth := depth } json
  | "threads", [] => some (.threads json)
  | "backtrace", [] =>
    some (.backtrace (g.number "thread" 0) (g.number "current" 0) (g.number "limit" 0) json)
  | "type", [address] => some (.typeName address)
  | "keys", [address] => some (.keys address)
  | "export-string", [address, file] => some (.exportString address file)
  | _, _ => none

/-- The level that was given, behind the command or before it. -/
def levelOf (before behind : Given) : Option LogLevel :=
  (behind.value? "log-level" <|> before.value? "log-level").bind fun typed =>
    (LogLevel.parse typed).toOption

/-- What a request for help is answered with. -/
def helpRefusal : List String → Refusal
  | [] => .help
  | [name] => if grammar.commands.contains name then .help else .usage
  | _ => .usage

/-- What a command line asks for. -/
def Invocation.parse (arguments : List String) : Except Refusal Invocation := do
  let (before, rest) ← grammar.read .start arguments
  match rest with
  | [] => throw .usage
  | name :: rest =>
    if name = "help" then throw (helpRefusal rest)
    match commandGrammar name with
    | none => throw .usage
    | some g =>
      let (behind, _) ← g.read .start rest
      match before.places, commandOf name behind with
      | [core, executable], some command =>
        pure ⟨core, executable, levelOf before behind, command⟩
      | _, _ => throw .usage

end Postmortem.Cli
