/-
Postmortem/Compression/PrefixCode.lean

Prefix codes.

A prefix code gives each symbol a row of bits so that no row is the start of
another one.  It is a tree, in which each bit chooses a branch and symbols
stand at the leaves.  The lengths of the rows are enough to tell a code, if
rows stand in the order of their symbols.
-/
import Postmortem.Compression.Bits

namespace Postmortem.Compression

/-- The tree of a prefix code; `none` is a row of bits that no symbol has. -/
inductive PrefixCode where
  | none
  | symbol (n : Nat)
  | branch (zero one : PrefixCode)

namespace PrefixCode

/-- The tree of symbols from depth `depth` on, and the symbols that are left over.  The symbols
stand in the order of their rows, each behind its length; at most `limit` levels are made. -/
def build : Nat → Nat → List (Nat × Nat) → PrefixCode × List (Nat × Nat)
  | _, _, [] => (.none, [])
  | limit, depth, (length, n) :: rest =>
    if length ≤ depth then (.symbol n, rest)
    else
      match limit with
      | 0 => (.none, (length, n) :: rest)
      | limit + 1 =>
        let (zero, rest) := build limit (depth + 1) ((length, n) :: rest)
        let (one, rest) := build limit (depth + 1) rest
        (.branch zero one, rest)

/-- The tree of symbols in the order of their rows, each behind its length. -/
def ofRows (rows : List (Nat × Nat)) : PrefixCode :=
  (build ((rows.map (·.1)).max?.getD 0) 0 rows).1

/-- The lengths that are not zero, each before its symbol. -/
def rowsOf (lengths : List Nat) : List (Nat × Nat) := lengths.zipIdx.filter (·.1 ≠ 0)

/-- The tree of the symbols `0, 1, …`, from the lengths of their rows; short rows come first, and a
length of zero means no row. -/
def ofLengths (lengths : List Nat) : PrefixCode :=
  ofRows ((rowsOf lengths).mergeSort fun a b => a.1 ≤ b.1)

/-- How much of all rows of `limit` bits start with a row of one of some lengths. -/
def share (limit : Nat) (lengths : List Nat) : Nat :=
  total ((rowsOf lengths).map fun row => (1 : Nat) <<< (limit - row.1))

/-- Whether the rows of some lengths, of which none is above `limit`, are just enough. -/
def isComplete (limit : Nat) (lengths : List Nat) : Bool :=
  share limit lengths == (1 : Nat) <<< limit

/-- Takes a symbol from the front. -/
def take? : PrefixCode → Bits → Option (Nat × Bits)
  | symbol n, bits => some (n, bits)
  | none, _ => .none
  | branch _ _, [] => .none
  | branch zero one, b :: bits => if b then one.take? bits else zero.take? bits

end PrefixCode

end Postmortem.Compression
