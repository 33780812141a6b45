import MigrationBench.Number.Digits

/-!
# Binary floating point numbers

The numbers of 64-bit binary floating point as exact values: a sign, a whole number and a power of
two.

* `Binary64` — the type; `Binary64.ofRatio` rounds an exact quotient to the nearest number.
* `Binary64.ofDecimal`, `Binary64.read?` — numbers from decimal digits and from text.
* `Binary64.equals`, `Binary64.equalsInt` — comparison by value.
* `Binary64.add`, `Binary64.mul`, `Binary64.split?` — the arithmetic that the readers need.
-/

namespace MigrationBench

/-- A 64-bit binary floating point number. A finite one has the value `mantissa * 2 ^ exponent`,
with `mantissa < 2 ^ 53` and `-1074 ≤ exponent`. -/
inductive Binary64 where
  | nan
  | infinite (negative : Bool)
  | finite (negative : Bool) (mantissa : Nat) (exponent : Int)
deriving DecidableEq, Repr

namespace Binary64

/-- The quotient of two numbers rounded to the nearest whole number, a half to the even one. -/
def divRoundEven (n d : Nat) : Nat :=
  let q := n / d
  let twice := 2 * (n % d)
  if twice < d then q
  else if d < twice then q + 1
  else if q % 2 = 0 then q else q + 1

/-- The two sides of `num / (den * 2 ^ e)`. -/
def scaled (num den : Nat) (e : Int) : Nat × Nat :=
  if e < 0 then (num * Nat.pow 2 (-e).toNat, den) else (num, den * Nat.pow 2 e.toNat)

/-- The least exponent of a finite number. -/
def minExponent : Int := -1074

/-- The exponent at which a positive quotient has a whole part of 53 binary digits, but no less
than the least exponent. -/
def exponentOf (num den : Nat) : Int :=
  let estimate : Int := (Nat.log2 num : Int) - (Nat.log2 den : Int) - 53
  let (n, d) := scaled num den estimate
  max minExponent (if n / d < Nat.pow 2 53 then estimate else estimate + 1)

/-- The number nearest to `num / den`, a tie going to the even mantissa. -/
def ofRatio (negative : Bool) (num den : Nat) : Binary64 :=
  if num = 0 ∨ den = 0 then .finite negative 0 minExponent
  else
    let e := exponentOf num den
    let (n, d) := scaled num den e
    let m := divRoundEven n d
    let (m, e) := if m = Nat.pow 2 53 then (Nat.pow 2 52, e + 1) else (m, e)
    if 971 < e then .infinite negative else .finite negative m e

/-- The number nearest to `digits * 10 ^ exponent`, where `digits` has `size` decimal digits. -/
def ofDecimal (negative : Bool) (digits size : Nat) (exponent : Int) : Binary64 :=
  if digits = 0 then .finite negative 0 minExponent
  else if 400 < exponent + size then .infinite negative
  else if exponent + size < -400 then .finite negative 0 minExponent
  else if exponent < 0 then ofRatio negative digits (Nat.pow 10 (-exponent).toNat)
  else ofRatio negative (digits * Nat.pow 10 exponent.toNat) 1

/-- The number nearest to a whole number. -/
def ofInt (i : Int) : Binary64 :=
  ofRatio (decide (i < 0)) i.natAbs 1

/-- Whether the number is zero, of either sign. -/
def isZero : Binary64 → Bool
  | .finite _ m _ => m == 0
  | _ => false

/-- Whether the number is infinite, of either sign. -/
def isInfinite : Binary64 → Bool
  | .infinite _ => true
  | _ => false

/-- Whether the number has a minus sign. -/
def isNegative : Binary64 → Bool
  | .nan => false
  | .infinite s => s
  | .finite s _ _ => s

/-- The exact value of a finite number, as a signed numerator over a power of two. -/
def toRatio? : Binary64 → Option (Int × Nat)
  | .finite negative m e =>
    let signed : Int := if negative then -(m : Int) else m
    if e < 0 then some (signed, Nat.pow 2 (-e).toNat) else some (signed * Nat.pow 2 e.toNat, 1)
  | _ => none

/-- The number nearest to a signed quotient. A zero has the sign `zeroNegative`. -/
def ofSigned (num : Int) (den : Nat) (zeroNegative : Bool) : Binary64 :=
  ofRatio (if num = 0 then zeroNegative else decide (num < 0)) num.natAbs den

/-- Whether the value is a given whole number. -/
def equalsInt (x : Binary64) (i : Int) : Bool :=
  match x.toRatio? with
  | some (n, d) => n == i * d
  | none => false

/-- Equality by value: the two zeros are equal, and `nan` is equal to nothing. -/
def equals : Binary64 → Binary64 → Bool
  | .infinite s, .infinite t => s == t
  | x, y =>
    match x.toRatio?, y.toRatio? with
    | some (n, d), some (n', d') => n * d' == n' * d
    | _, _ => false

/-- The opposite number. -/
def neg : Binary64 → Binary64
  | .nan => .nan
  | .infinite s => .infinite !s
  | .finite s m e => .finite (!s) m e

/-- The sum, rounded once. -/
def add (x y : Binary64) : Binary64 :=
  match x.toRatio?, y.toRatio? with
  | some (n, d), some (n', d') => ofSigned (n * d' + n' * d) (d * d') false
  | some _, none => y
  | none, some _ => x
  | none, none => if x = y then x else .nan

/-- The product, rounded once. -/
def mul (x y : Binary64) : Binary64 :=
  let isNegative := x.isNegative != y.isNegative
  match x.toRatio?, y.toRatio? with
  | some (n, d), some (n', d') => ofSigned (n * n') (d * d') isNegative
  | _, _ => if x = .nan ∨ y = .nan ∨ x.isZero ∨ y.isZero then .nan else .infinite isNegative

/-- The whole part of a finite number, towards zero, and the rest. -/
def split? (x : Binary64) : Option (Int × Binary64) :=
  match x.toRatio? with
  | some (n, d) =>
    let whole := Int.tdiv n d
    some (whole, ofSigned (n - whole * d) d (decide (n < 0)))
  | none => none

/-- A finite number rounded to the nearest whole number, a half to the even one. -/
def roundEven? (x : Binary64) : Option Int :=
  match x.toRatio? with
  | some (n, d) =>
    let q := divRoundEven n.natAbs d
    some (if n < 0 then -(q : Int) else q)
  | none => none

/-! ### Reading -/

open Digits

/-- An optional sign at the head of a text. -/
def readSign : List Char → Bool × List Char
  | '-' :: rest => (true, rest)
  | '+' :: rest => (false, rest)
  | cs => (false, cs)

/-- The exponent of a decimal text: nothing, or a letter, a sign and digits to the end. -/
def readExponent? : List Char → Option Int
  | [] => some 0
  | c :: rest =>
    if c = 'e' ∨ c = 'E' then
      let (negative, digits) := readSign rest
      if digits.isEmpty ∨ ¬ digits.all isDigit then none
      else some (if negative then -(ofDigits digits : Int) else ofDigits digits)
    else none

/-- A number without sign: digits with an optional point among or around them, and an exponent. -/
def readUnsigned? (negative : Bool) (cs : List Char) : Option Binary64 :=
  let whole := cs.takeWhile isDigit
  let rest := cs.dropWhile isDigit
  let (fraction, rest) : List Char × List Char :=
    match rest with
    | '.' :: rest => (rest.takeWhile isDigit, rest.dropWhile isDigit)
    | rest => ([], rest)
  let digits := whole ++ fraction
  if digits.isEmpty then none
  else
    (readExponent? rest).map fun e =>
      let significant := digits.dropWhile (· == '0')
      ofDecimal negative (ofDigits significant) significant.length (e - fraction.length)

/-- The number that a decimal text denotes, or one of the words for infinity and not-a-number. -/
def read? (s : String) : Option Binary64 :=
  let (negative, cs) := readSign s.toList
  let word := String.ofList (cs.map Char.toLower)
  if word = "inf" ∨ word = "infinity" then some (.infinite negative)
  else if word = "nan" then some .nan
  else readUnsigned? negative cs

end Binary64

end MigrationBench
