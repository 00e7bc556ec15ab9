/-!
# Runs of code points

Properties of characters are kept as lists of runs of code points. A run is a pair of its first and
its last code point; a `CaseShift` is a run whose members are all mapped by the same shift.
-/

namespace Script.Text

/-- Whether a code point lies in one of the runs. -/
def inRanges (ranges : List (Nat × Nat)) (n : Nat) : Bool :=
  ranges.any fun (first, last) => decide (first ≤ n) && decide (n ≤ last)

/-- The code points `first`, `first + stride`, … up to `last`, each mapped to itself plus
`shift`. -/
structure CaseShift where
  /-- The first code point of the run. -/
  first : Nat
  /-- The last code point of the run. -/
  last : Nat
  /-- The distance between two members: 2 where the two cases alternate. -/
  stride : Nat
  /-- The distance from a member to the character it is mapped to. -/
  shift : Int
deriving DecidableEq, Repr

/-- The code point that a run maps `n` to, if `n` belongs to it. -/
def CaseShift.apply? (run : CaseShift) (n : Nat) : Option Nat :=
  if run.first ≤ n ∧ n ≤ run.last ∧ (n - run.first) % run.stride = 0 then
    some ((n : Int) + run.shift).toNat
  else none

end Script.Text
