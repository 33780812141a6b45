/-!
# Order of texts

Texts are ordered by the code points of their characters.

* `precedes` — the order as a truth value.
* `sortTexts` — sorting.
-/

namespace MigrationBench.Text

/-- Whether a text comes before another one or is equal to it. -/
def precedes (s t : String) : Bool :=
  !decide (t < s)

/-- Texts in order. -/
def sortTexts (texts : List String) : List String :=
  texts.mergeSort precedes

end MigrationBench.Text
