/-!
# Decimal digits

Reading and writing of unsigned decimal numbers as lists of ASCII digits.

* `isDigit`, `digitValue` — the ten ASCII digits.
* `ofDigits` — the value of a list of digits.
* `maxCount`, `isWritable` — the longest whole numbers that are read or written.
* `fixedDigits` — the last so many digits of a number, with zeros in front.
* `readDigits?` — exactly so many digits at the head of a list.
-/

namespace MigrationBench.Digits

/-- Whether a character is one of the ten ASCII digits. -/
def isDigit (c : Char) : Bool :=
  '0'.toNat ≤ c.toNat && c.toNat ≤ '9'.toNat

/-- The value of an ASCII digit. -/
def digitValue (c : Char) : Nat :=
  c.toNat - '0'.toNat

/-- The ASCII digit of a number below ten. -/
def digitChar (n : Nat) : Char :=
  Char.ofNat ('0'.toNat + n % 10)

/-- The value of a list of digits, the most significant first. -/
def ofDigits (cs : List Char) : Nat :=
  cs.foldl (fun n c => n * 10 + digitValue c) 0

/-- The greatest number of decimal digits of a whole number that is read or written. -/
def maxCount : Nat := 4300

/-- Whether a whole number has no more decimal digits than are written. -/
def isWritable (n : Nat) : Bool :=
  n < Nat.pow 10 maxCount

/-- The last `width` decimal digits of a number, with zeros in front. -/
def fixedDigits : Nat → Nat → List Char
  | 0, _ => []
  | width + 1, n => fixedDigits width (n / 10) ++ [digitChar n]

/-- The value of exactly `width` digits at the head of a list, and what follows them. -/
def readDigits? (width : Nat) (cs : List Char) : Option (Nat × List Char) :=
  let front := cs.take width
  if front.length = width ∧ front.all isDigit then some (ofDigits front, cs.drop width) else none

theorem length_fixedDigits (width n : Nat) : (fixedDigits width n).length = width := by
  induction width generalizing n with
  | zero => rfl
  | succ width ih => simp [fixedDigits, ih]

theorem digitValue_digitChar (n : Nat) : digitValue (digitChar n) = n % 10 := by
  have h : ∀ d < 10, digitValue (Char.ofNat ('0'.toNat + d)) = d := by decide
  exact h (n % 10) (Nat.mod_lt _ (by decide))

theorem isDigit_digitChar (n : Nat) : isDigit (digitChar n) = true := by
  have h : ∀ d < 10, isDigit (Char.ofNat ('0'.toNat + d)) = true := by decide
  exact h (n % 10) (Nat.mod_lt _ (by decide))

theorem all_isDigit_fixedDigits (width n : Nat) : (fixedDigits width n).all isDigit = true := by
  induction width generalizing n with
  | zero => rfl
  | succ width ih => simp [fixedDigits, ih, isDigit_digitChar]

/-- The digits written are the number's remainder. -/
theorem ofDigits_fixedDigits (width n : Nat) :
    ofDigits (fixedDigits width n) = n % Nat.pow 10 width := by
  induction width generalizing n with
  | zero => simp [fixedDigits, ofDigits, Nat.mod_one]
  | succ width ih =>
    have h := ih (n / 10)
    simp only [ofDigits] at h
    simp only [fixedDigits, ofDigits, List.foldl_append, List.foldl_cons, List.foldl_nil, h,
      digitValue_digitChar]
    have hp : Nat.pow 10 (width + 1) = 10 * Nat.pow 10 width := Nat.mul_comm _ _
    rw [hp, Nat.mod_mul]
    omega

/-- What was written with a fixed width is read back, and the rest is left alone. -/
theorem readDigits?_fixedDigits (width n : Nat) (rest : List Char) (h : n < Nat.pow 10 width) :
    readDigits? width (fixedDigits width n ++ rest) = some (n, rest) := by
  have hl := length_fixedDigits width n
  have ht : (fixedDigits width n ++ rest).take width = fixedDigits width n := by
    rw [List.take_append_of_le_length (by omega), List.take_of_length_le (by omega)]
  have hd : (fixedDigits width n ++ rest).drop width = rest := by
    rw [List.drop_append_of_le_length (by omega), List.drop_of_length_le (by omega),
      List.nil_append]
  have hn : ofDigits (fixedDigits width n) = n := by
    rw [ofDigits_fixedDigits, Nat.mod_eq_of_lt h]
  simp [readDigits?, ht, hd, hl, all_isDigit_fixedDigits, hn]

end MigrationBench.Digits
