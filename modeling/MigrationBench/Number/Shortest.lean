import MigrationBench.Number.Binary64

/-!
# Shortest decimal text

The decimal text of a binary floating point number with the fewest digits that read back as the
same number, and the layout of those digits.

* `Binary64.shortest` — the digits and the position of the decimal point.
* `NumberLayout` — how digits become text.
* `Binary64.render` — the text.
-/

namespace MigrationBench

/-- A positive decimal number `0.d₁d₂… * 10 ^ point`, given by its digits as one whole number. -/
structure DecimalDigits where
  digits : Nat
  point : Int
deriving DecidableEq, Repr

/-- How the digits of a number are laid out. -/
structure NumberLayout where
  /-- The least position of the point at which no exponent is written. -/
  leastPoint : Int
  /-- The greatest position of the point at which no exponent is written. -/
  greatestPoint : Int
  /-- The least number of digits of an exponent. -/
  exponentWidth : Nat
deriving Repr

namespace Binary64

/-- The position of the decimal point of a quotient below one: one minus the least number of
factors ten that bring it to one or above. At most `fuel` factors are tried. -/
def pointBelowOne (num den : Nat) : Nat → Nat → Int
  | 0, count => 1 - (count : Int)
  | fuel + 1, count =>
    if den ≤ num * Nat.pow 10 count then 1 - (count : Int)
    else pointBelowOne num den fuel (count + 1)

/-- The position of the decimal point of a positive quotient: it lies between `10 ^ (p - 1)` and
`10 ^ p`. -/
def pointOf (num den : Nat) : Int :=
  if den ≤ num then (Nat.toDigits 10 (num / den)).length
  else pointBelowOne num den 400 1

/-- A power as a quotient: `base ^ e` over one, or one over `base ^ (-e)`. -/
def powerRatio (base : Nat) (e : Int) : Nat × Nat :=
  if e < 0 then (1, Nat.pow base (-e).toNat) else (Nat.pow base e.toNat, 1)

/-- The ends of the interval of reals that round to a positive number, in quarters of its last
binary place, and whether they belong to it. Above a power of two the lower half is half as wide. -/
def roundingInterval (mantissa : Nat) (exponent : Int) : Nat × Nat × Bool :=
  let below := if mantissa = Nat.pow 2 52 ∧ minExponent < exponent then 1 else 2
  (4 * mantissa - below, 4 * mantissa + 2, mantissa % 2 == 0)

/-- The decimal number of `size` digits that reads back as a positive number, if there is one: of
the two neighbours on the decimal grid the nearer one, the even one in a tie, or else the other. -/
def candidate? (mantissa : Nat) (exponent point : Int) (size : Nat) : Option Nat :=
  let (low, high, closed) := roundingInterval mantissa exponent
  let (quarter, quarterDen) := powerRatio 2 (exponent - 2)
  let (grid, gridDen) := powerRatio 10 (point - size)
  let a := grid * quarterDen
  let b := quarter * gridDen
  let inside (c : Nat) : Bool :=
    if closed then low * b ≤ c * a && c * a ≤ high * b else low * b < c * a && c * a < high * b
  let value := 4 * mantissa * b
  let nearer := divRoundEven value a
  let farther := if nearer = value / a then nearer + 1 else value / a
  if inside nearer then some nearer
  else if inside farther then some farther
  else none

/-- The first candidate with `size` or more digits; seventeen digits always suffice. -/
def firstCandidate (mantissa : Nat) (exponent point : Int) : Nat → Nat → Nat × Nat
  | 0, size => (0, size)
  | left + 1, size =>
    match candidate? mantissa exponent point size with
    | some c => (c, size)
    | none => firstCandidate mantissa exponent point left (size + 1)

/-- A whole number without the zeros at its end. -/
def dropZeros : Nat → Nat → Nat
  | 0, n => n
  | fuel + 1, n => if n ≠ 0 ∧ n % 10 = 0 then dropZeros fuel (n / 10) else n

/-- The shortest digits of `mantissa * 2 ^ exponent` for a positive mantissa. -/
def shortest (mantissa : Nat) (exponent : Int) : DecimalDigits :=
  let (num, den) := scaled mantissa 1 (-exponent)
  let point := pointOf num den
  let (c, size) := firstCandidate mantissa exponent point 17 1
  let point := if c = Nat.pow 10 size then point + 1 else point
  ⟨dropZeros 18 c, point⟩

/-! ### Layout -/

/-- The text of a whole number with at least `width` digits. -/
def padded (width n : Nat) : List Char :=
  let cs := Nat.toDigits 10 n
  List.replicate (width - cs.length) '0' ++ cs

/-- The digits of a number laid out. -/
def NumberLayout.chars (layout : NumberLayout) (d : DecimalDigits) : List Char :=
  let cs := Nat.toDigits 10 d.digits
  if layout.leastPoint ≤ d.point ∧ d.point ≤ layout.greatestPoint then
    if d.point ≤ 0 then '0' :: '.' :: List.replicate (-d.point).toNat '0' ++ cs
    else
      let whole := cs.take d.point.toNat
      let fraction := cs.drop d.point.toNat
      whole ++ List.replicate (d.point.toNat - cs.length) '0' ++ '.' ::
        (if fraction.isEmpty then ['0'] else fraction)
  else
    let e := d.point - 1
    let fraction := cs.drop 1
    cs.take 1 ++ (if fraction.isEmpty then [] else '.' :: fraction) ++
      'e' :: (if e < 0 then '-' else '+') :: padded layout.exponentWidth e.natAbs

/-- A number is written with an exponent below `1e-4` and from `1e16` on; the exponent has two
digits or more. -/
def layout : NumberLayout := ⟨-3, 16, 2⟩

/-- The shortest text of a number. -/
def render : Binary64 → String
  | .nan => "nan"
  | .infinite negative => if negative then "-inf" else "inf"
  | .finite negative m e =>
    let body := if m = 0 then ['0', '.', '0'] else NumberLayout.chars layout (shortest m e)
    String.ofList (if negative then '-' :: body else body)

end Binary64

end MigrationBench
