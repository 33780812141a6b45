/-!
# Tables of code point ranges

A Unicode property is given as a list of closed ranges in increasing order.

* `inRanges` — membership of a code point; the search stops at the first range beyond it.
-/

namespace MigrationBench.Unicode

/-- Whether `n` lies in one of the ranges of an increasing table. -/
def inRanges : List (Nat × Nat) → Nat → Bool
  | [], _ => false
  | (low, high) :: rest, n =>
    if n < low then false
    else if n ≤ high then true
    else inRanges rest n

end MigrationBench.Unicode
