/-!
# UTF-8

Bytes and text.

* `Utf8.encode` — the bytes of a text.
* `Utf8.units` — the characters and the maximal invalid parts of a byte sequence, in order.
* `Utf8.decode?` — the text of a well-formed byte sequence.
* `Utf8.decodeLossy` — the text with U+FFFD for every maximal invalid part.
-/

namespace MigrationBench.Utf8

/-- The bytes of a text. -/
def encode (s : String) : List UInt8 :=
  s.toList.flatMap String.utf8EncodeChar

/-- A character that has begun: how many bytes it still needs, the least and the greatest value
that the next one may have, and the bits read so far. -/
structure Pending where
  owed : Nat
  low : Nat
  high : Nat
  bits : Nat
deriving DecidableEq, Repr

/-- What a first byte begins: a whole character, a longer one, or nothing. -/
inductive Opening where
  | whole (c : Char)
  | longer (p : Pending)
  | invalid
deriving DecidableEq, Repr

/-- The role of a byte at the start of a character. The bounds on the second byte exclude overlong
forms, surrogates and numbers above U+10FFFF. -/
def opening (b : UInt8) : Opening :=
  let n := b.toNat
  if n ≤ 0x7f then .whole (Char.ofNat n)
  else if n < 0xc2 then .invalid
  else if n ≤ 0xdf then .longer ⟨1, 0x80, 0xbf, n - 0xc0⟩
  else if n = 0xe0 then .longer ⟨2, 0xa0, 0xbf, 0⟩
  else if n = 0xed then .longer ⟨2, 0x80, 0x9f, n - 0xe0⟩
  else if n ≤ 0xef then .longer ⟨2, 0x80, 0xbf, n - 0xe0⟩
  else if n = 0xf0 then .longer ⟨3, 0x90, 0xbf, 0⟩
  else if n ≤ 0xf3 then .longer ⟨3, 0x80, 0xbf, n - 0xf0⟩
  else if n = 0xf4 then .longer ⟨3, 0x80, 0x8f, n - 0xf0⟩
  else .invalid

/-- The units from a byte at which no character is under way. -/
def unitsAtStart (b : UInt8) (after : Option Pending → List (Option Char)) : List (Option Char) :=
  match opening b with
  | .whole c => some c :: after none
  | .longer p => after (some p)
  | .invalid => none :: after none

/-- The characters of a byte sequence, with `none` for each maximal invalid part. A byte that does
not continue the character under way ends that part and is read afresh. -/
def unitsFrom : Option Pending → List UInt8 → List (Option Char)
  | none, [] => []
  | some _, [] => [none]
  | none, b :: rest => unitsAtStart b (unitsFrom · rest)
  | some p, b :: rest =>
    if p.low ≤ b.toNat ∧ b.toNat ≤ p.high then
      let bits := p.bits * 64 + (b.toNat - 0x80)
      if p.owed ≤ 1 then some (Char.ofNat bits) :: unitsFrom none rest
      else unitsFrom (some ⟨p.owed - 1, 0x80, 0xbf, bits⟩) rest
    else none :: unitsAtStart b (unitsFrom · rest)

/-- The characters and the maximal invalid parts of a byte sequence. -/
def units (bytes : List UInt8) : List (Option Char) :=
  unitsFrom none bytes

/-- The text of a byte sequence, if it is well formed. -/
def decode? (bytes : List UInt8) : Option String :=
  let us := units bytes
  if us.all Option.isSome then some (String.ofList (us.filterMap id)) else none

/-- The replacement character U+FFFD. -/
def replacement : Char := Char.ofNat 0xfffd

/-- The text of a byte sequence with a replacement character for each maximal invalid part. -/
def decodeLossy (bytes : List UInt8) : String :=
  String.ofList ((units bytes).map (·.getD replacement))

end MigrationBench.Utf8
