import MigrationBench.Number.Digits

/-!
# Scanning

Readers of formats work on the characters that are still ahead.

* `Match` — a reader that fits the characters ahead or does not.
* `Scan` — a reader that answers or tells a fault.
-/

namespace MigrationBench

/-- A reader that fits the characters ahead or does not. -/
abbrev Match (α : Type) : Type :=
  StateT (List Char) Option α

/-- A reader that answers or tells a fault; the state is the characters ahead. -/
abbrev Scan (ε α : Type) : Type :=
  StateT (List Char) (Except ε) α

namespace Match

/-- One character with a property. -/
def satisfying (p : Char → Bool) : Match Char := fun cs =>
  match cs with
  | c :: rest => if p c then some (c, rest) else none
  | [] => none

/-- One given character. -/
def char (c : Char) : Match Unit :=
  discard (satisfying (· == c))

/-- As many characters with a property as there are. -/
def takeWhile (p : Char → Bool) : Match (List Char) := fun cs =>
  some (cs.takeWhile p, cs.dropWhile p)

/-- What a reader finds, or nothing if it does not fit. -/
def optional {α : Type} (m : Match α) : Match (Option α) := fun cs =>
  match m cs with
  | some (a, rest) => some (some a, rest)
  | none => some (none, cs)

/-- The number of exactly `width` decimal digits. -/
def number (width : Nat) : Match Nat := fun cs =>
  Digits.readDigits? width cs

/-- The number of exactly `width` decimal digits, if it lies between two bounds. -/
def numberIn (width low high : Nat) : Match Nat := do
  let n ← number width
  if low ≤ n ∧ n ≤ high then pure n else failure

/-- A value if a condition holds. -/
def ofOption {α : Type} : Option α → Match α
  | some a => pure a
  | none => failure

end Match

namespace Scan

variable {ε α : Type}

/-- The next character, which stays ahead. -/
def peek? : Scan ε (Option Char) := do
  return (← get).head?

/-- Passes over the characters with a property. -/
def skip (p : Char → Bool) : Scan ε Unit :=
  modify (·.dropWhile p)

/-- The characters with a property that are next. -/
def takeWhile (p : Char → Bool) : Scan ε (List Char) := do
  let cs ← get
  set (cs.dropWhile p)
  return cs.takeWhile p

/-- Passes over a given text, if it is next. -/
def literal (text : List Char) : Scan ε Bool := do
  let cs ← get
  if text.isPrefixOf cs then
    set (cs.drop text.length)
    return true
  else return false

/-- Passes over a given text, which has to be next. -/
def expect (fault : ε) (text : List Char) : Scan ε Unit := do
  unless ← literal text do throw fault

/-- What a reader finds, or nothing if it does not fit. -/
def matching (m : Match α) : Scan ε (Option α) := do
  match m (← get) with
  | some (a, rest) =>
    set rest
    return some a
  | none => return none

end Scan

end MigrationBench
