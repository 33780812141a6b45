import MigrationBench.Number.Digits

/-!
# Hexadecimal digits

* `Hex.digitValue?`, `Hex.number?` — the values of a digit and of a list of digits.
* `Hex.char?` — the character whose number exactly so many digits give.
-/

namespace MigrationBench.Hex

/-- The value of a hexadecimal digit in either case. -/
def digitValue? (c : Char) : Option Nat :=
  if Digits.isDigit c then some (Digits.digitValue c)
  else if 'a' ≤ c ∧ c ≤ 'f' then some (c.toNat - 'a'.toNat + 10)
  else if 'A' ≤ c ∧ c ≤ 'F' then some (c.toNat - 'A'.toNat + 10)
  else none

/-- The value of hexadecimal digits. -/
def number? (cs : List Char) : Option Nat :=
  cs.foldlM (fun n c => (digitValue? c).map (n * 16 + ·)) 0

/-- The number that exactly `width` hexadecimal digits at the head of a list give. -/
def numberAt? (width : Nat) (cs : List Char) : Option Nat :=
  let digits := cs.take width
  if digits.length = width then number? digits else none

/-- The character with a number, if there is one; surrogates are no characters. -/
def charOf? (n : Nat) : Option Char :=
  if h : n.isValidChar then some (Char.ofNatAux n h) else none

/-- The character whose number exactly `width` hexadecimal digits at the head of a list give. -/
def char? (width : Nat) (cs : List Char) : Option Char :=
  (numberAt? width cs).bind charOf?

/-- The value of digits of a base up to sixteen. -/
def ofDigits (base : Nat) (digits : List Char) : Nat :=
  digits.foldl (fun n c => n * base + (digitValue? c).getD 0) 0

end MigrationBench.Hex
