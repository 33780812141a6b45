/-!
# Blank characters

Which characters count as blank at the ends of a text, and trimming.

* `isBlank` — the white space of Unicode with the four information separators U+001C to U+001F.
* `trimChars`, `trim` — a text without the blanks at both ends.
* `isBlankText` — a text of blanks only.
-/

namespace MigrationBench.Text

/-- The blank characters: U+0009 to U+000D, U+001C to U+0020, U+0085, U+00A0, U+1680, U+2000 to
U+200A, U+2028, U+2029, U+202F, U+205F and U+3000. -/
def isBlank (c : Char) : Bool :=
  let n := c.toNat
  (0x9 ≤ n && n ≤ 0xd) || (0x1c ≤ n && n ≤ 0x20) || n == 0x85 || n == 0xa0 || n == 0x1680 ||
    (0x2000 ≤ n && n ≤ 0x200a) || n == 0x2028 || n == 0x2029 || n == 0x202f || n == 0x205f ||
    n == 0x3000

/-- A list of characters without the blanks at its end. -/
def trimEnd (cs : List Char) : List Char :=
  (cs.reverse.dropWhile isBlank).reverse

/-- A list of characters without the blanks at both ends. -/
def trimChars (cs : List Char) : List Char :=
  trimEnd (cs.dropWhile isBlank)

/-- A text without the blanks at both ends. -/
def trim (s : String) : String :=
  String.ofList (trimChars s.toList)

/-- Whether a text consists of blanks only. -/
def isBlankText (s : String) : Bool :=
  s.toList.all isBlank

@[simp] theorem toList_trim (s : String) : (trim s).toList = trimChars s.toList := by
  simp [trim]

end MigrationBench.Text
