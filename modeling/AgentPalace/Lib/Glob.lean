import Mathlib.Data.List.Infix

/-!
# Glob patterns

What a pattern matches, as two relations: `Glob` for the name of a file, with
`*`, `?`, brackets and escapes, and `PathGlob` for a path of names, where a part
`**` stands for any number of names and at the end for one at least.

A bracket is read once and then asked for characters. A backslash in it is a
character like any other.
-/

namespace AgentPalace

namespace Glob

structure Bracket where
  negated : Bool
  ranges : List (Char × Char)
  deriving DecidableEq

def inRange (c : Char) (range : Char × Char) : Bool := range.1 ≤ c && c ≤ range.2

def Bracket.admits (b : Bracket) (c : Char) : Bool := b.ranges.any (inRange c) != b.negated

inductive Pending where
  | nothing
  | lo (c : Char)
  | dash (c : Char)

/-- The ranges up to the closing `]`, and what follows it. -/
def rangesFrom : Pending → List Char → Option (List (Char × Char) × List Char)
  | _, [] => none
  | .nothing, c :: rest => if c = ']' then some ([], rest) else rangesFrom (.lo c) rest
  | .lo lo, c :: rest =>
    if c = '-' then rangesFrom (.dash lo) rest
    else if c = ']' then some ([(lo, lo)], rest)
    else (rangesFrom (.lo c) rest).map fun (rs, tail) => ((lo, lo) :: rs, tail)
  | .dash lo, c :: rest =>
    if c = ']' then some ([(lo, lo), ('-', '-')], rest)
    else (rangesFrom .nothing rest).map fun (rs, tail) => ((lo, c) :: rs, tail)

/-- A bracket has one range at least, so a `]` at its start does not close it. -/
def ranges : List Char → Option (List (Char × Char) × List Char)
  | [] => none
  | c :: rest => rangesFrom (.lo c) rest

end Glob

namespace Glob

end Glob

namespace PathGlob

end PathGlob

end AgentPalace
