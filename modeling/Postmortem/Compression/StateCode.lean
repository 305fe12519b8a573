/-
Postmortem/Compression/StateCode.lean

State codes.

A state code writes symbols in fractions of bits.  Its decoder is always in a
state; a state has a symbol, and the next state is a number of bits more than
a base.  A symbol has as many states as its share of all states, so common
symbols need few bits.  Shares are what is stored; the states follow.
-/
import Postmortem.Compression.Bits

namespace Postmortem.Compression

/-- What a state says, and how the next state is found. -/
structure CodeState where
  symbol : Nat
  /-- How many bits tell the next state. -/
  bits : Nat
  base : Nat
  deriving Inhabited

/-- The states of a code. -/
structure StateCode where
  /-- How many bits tell the first state. -/
  log : Nat
  states : Array CodeState

/-- How many states a symbol has. -/
inductive Share where
  /-- So many, spread over all states. -/
  | states (count : Nat)
  /-- One state, from which any state can follow. -/
  | rare

namespace Share

/-- How many states a share takes. -/
def size : Share → Nat
  | states count => count
  | rare => 1

/-! ### Reading -/

/-- Takes a number from the front that is at most `most`, in as few bits as are needed; small
numbers take one bit less where numbers are left over. -/
def upTo? (most : Nat) (bits : Bits) : Option (Nat × Bits) := do
  let width := bitLength most
  let spare := (1 : Nat) <<< width - 1 - most
  let half := (1 : Nat) <<< (width - 1)
  let (n, rest) ← low? (width - 1) bits
  if n < spare then pure (n, rest)
  else
    let (more, rest) ← low? 1 rest
    pure (if more = 0 then n else n + half - spare, rest)

/-- Takes from the front how many symbols more have no states; at most `limit` numbers tell it. -/
def gap? : Nat → Bits → Option (Nat × Bits)
  | 0, _ => none
  | limit + 1, bits => do
    let (n, rest) ← low? 2 bits
    if n < 3 then pure (n, rest)
    else
      let (more, rest) ← gap? limit rest
      pure (n + more, rest)

/-- Takes shares from the front until they are `left` states; at most `limit` of them. `found` are
those before, last first. -/
def listFrom? : Nat → Nat → List Share → Bits → Option (List Share × Bits)
  | 0, _, _, _ => none
  | limit + 1, left, found, bits =>
    if left = 0 then some (found.reverse, bits)
    else do
      let (n, rest) ← upTo? (left + 1) bits
      match n with
      | 0 => listFrom? limit (left - 1) (.rare :: found) rest
      | 1 =>
        let (more, rest) ← gap? rest.length rest
        listFrom? limit left (List.replicate (more + 1) (.states 0) ++ found) rest
      | n + 2 => listFrom? limit (left - (n + 1)) (.states (n + 1) :: found) rest

end Share

namespace StateCode

/-! ### States -/

/-- The symbols of the rare shares, each before its number. -/
def rareSymbols (shares : List Share) : List Nat :=
  shares.zipIdx.filterMap fun (share, n) => if share matches .rare then some n else none

/-- The symbols of the other shares, each as often as it has states. -/
def spreadSymbols (shares : List Share) : List Nat :=
  shares.zipIdx.flatMap fun (share, n) =>
    match share with
    | .states count => List.replicate count n
    | .rare => []

/-- The places over which states are spread: each is a step on from the one before, and those from
`stop` on are left out. -/
def places (size stop : Nat) : List Nat :=
  ((List.range size).map fun k => (k * (size / 2 + size / 8 + 3)) % size).filter (· < stop)

/-- The symbol of each state: rare symbols stand at the end, the last one first. -/
def symbolsOf (log : Nat) (shares : List Share) : Array Nat :=
  let size := (1 : Nat) <<< log
  let rare := rareSymbols shares
  let stop := size - rare.length
  let spread := ((places size stop).zip (spreadSymbols shares)).foldl
    (fun symbols (place, n) => symbols.setIfInBounds place n) (Array.replicate stop 0)
  spread ++ rare.reverse.toArray

/-- The states of symbols, where `seen` tells how often each symbol came before. -/
def statesFrom (log : Nat) (seen : Array Nat) : List Nat → List CodeState
  | [] => []
  | n :: rest =>
    let count := seen.getD n 1
    let bits := log - count.log2
    ⟨n, bits, count <<< bits - (1 : Nat) <<< log⟩
      :: statesFrom log (seen.setIfInBounds n (count + 1)) rest

/-- The code of shares of all `2 ^ log` states. -/
def ofShares (log : Nat) (shares : List Share) : StateCode :=
  let counts := (shares.map Share.size).toArray
  ⟨log, (statesFrom log counts (symbolsOf log shares).toList).toArray⟩

/-- The code that has one symbol only. -/
def constant (n : Nat) : StateCode := ⟨0, #[⟨n, 0, 0⟩]⟩

/-! ### Reading -/

/-- A code that is stored in front of bytes, with at most `most` symbols and a logarithm of at most
`maxLog`, and how many bytes it takes. -/
def read? (maxLog most : Nat) (bytes : List UInt8) : Option (StateCode × Nat) := do
  let bits := bitsOf bytes
  let (n, rest) ← low? 4 bits
  let log := n + 5
  guard (log ≤ maxLog)
  let (shares, rest) ← Share.listFrom? (bits.length + 1) (1 <<< log) [] rest
  guard (shares.length ≤ most ∧ total (shares.map Share.size) = 1 <<< log)
  pure (ofShares log shares, (bits.length - rest.length + 7) / 8)

/-- Takes the first state from the front. -/
def start? (c : StateCode) (bits : Bits) : Option (CodeState × Bits) := do
  let (n, rest) ← high? c.log bits
  pure (← c.states[n]?, rest)

/-- Takes the state after `s` from the front. -/
def next? (c : StateCode) (s : CodeState) (bits : Bits) : Option (CodeState × Bits) := do
  let (n, rest) ← high? s.bits bits
  pure (← c.states[s.base + n]?, rest)

end StateCode

end Postmortem.Compression
