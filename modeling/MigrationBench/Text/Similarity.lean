import MigrationBench.Text.Order

/-!
# Similar words

Suggestions for a word that is not known.

* `commonSize` — how many characters two words have in common, block by block.
* `closeMatches` — the known words that are similar to a word.
-/

namespace MigrationBench.Text

/-- The number of characters that two lists have in common at their heads. -/
def commonHead : List Char → List Char → Nat
  | a :: as, b :: bs => if a = b then commonHead as bs + 1 else 0
  | _, _ => 0

/-- A block that two lists have in common: where it begins in each, and its size. -/
structure CommonBlock where
  left : Nat
  right : Nat
  size : Nat
deriving DecidableEq, Repr

/-- All pairs of places, the places of the first list first. -/
def places (as bs : List Char) : List (Nat × Nat) :=
  (List.range as.length).flatMap fun i => (List.range bs.length).map fun j => (i, j)

/-- The largest common block, the first one among equals. -/
def largestBlock (as bs : List Char) : CommonBlock :=
  (places as bs).foldl
    (fun best (i, j) =>
      let size := commonHead (as.drop i) (bs.drop j)
      if best.size < size then ⟨i, j, size⟩ else best)
    ⟨0, 0, 0⟩

/-- The size of the largest common block and, in the same way, of the blocks before and after it. -/
def commonSizeFrom : Nat → List Char → List Char → Nat
  | 0, _, _ => 0
  | fuel + 1, as, bs =>
    let block := largestBlock as bs
    if block.size = 0 then 0
    else
      block.size + commonSizeFrom fuel (as.take block.left) (bs.take block.right) +
        commonSizeFrom fuel (as.drop (block.left + block.size)) (bs.drop (block.right + block.size))

/-- How many characters two words have in common, block by block. -/
def commonSize (as bs : List Char) : Nat :=
  commonSizeFrom (as.length + 1) as bs

/-- Whether at least three fifths of the characters of two words are common. -/
def isSimilar (as bs : List Char) : Bool :=
  3 * (as.length + bs.length) ≤ 10 * commonSize as bs

/-- Whether a first word is more similar to `word` than a second one; of words that are equally
similar the one that comes last in order counts as more similar. -/
def isCloser (word : List Char) (a b : String) : Bool :=
  let scoreA := commonSize a.toList word * (b.length + word.length)
  let scoreB := commonSize b.toList word * (a.length + word.length)
  scoreB < scoreA || (scoreA == scoreB && precedes b a)

/-- The greatest number of suggestions. -/
def maxSuggestions : Nat := 3

/-- The known words that are most similar to a word. -/
def closeMatches (word : String) (known : List String) : List String :=
  ((known.filter fun k => isSimilar k.toList word.toList).mergeSort
    (isCloser word.toList)).take maxSuggestions

end MigrationBench.Text
