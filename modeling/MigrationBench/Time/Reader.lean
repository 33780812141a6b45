import MigrationBench.Text.Blank
import MigrationBench.Time.Stamp

/-!
# Reading date-times

The reader of ISO 8601 date-times. It takes more than `Stamp.render` writes: dates without
hyphens, week dates, any separator, shorter times, a comma before the fraction.

* `Stamp.dateLength?` — how much of the text is the date.
* `Stamp.readDate?` — a calendar or week date.
* `Stamp.readClock?` — a time of day, also used for offsets.
* `Stamp.readChars?`, `Stamp.read?` — the whole text.
-/

namespace MigrationBench.Stamp

open Digits

/-- The length of the date at the head of a text. A week date may lack its day; whether a digit
after the week is that day or already part of the time is told by what follows it. -/
def dateLength? (cs : List Char) : Option Nat :=
  let size := cs.length
  if size < 7 then none
  else if size = 7 then some 7
  else if cs[4]? = some '-' then
    if cs[5]? = some 'W' then
      if cs[8]? = some '-' then
        if size = 9 then none
        else if cs[10]?.any isDigit then some 8
        else some 10
      else some 8
    else some 10
  else if cs[4]? = some 'W' then
    let stop := 7 + ((cs.drop 7).takeWhile isDigit).length
    if stop < 9 then some stop
    else if stop % 2 = 0 then some 7
    else some 8
  else some 8

/-- Removes a hyphen from the head of a text, if it is demanded; without the demand nothing is
removed. -/
def dropHyphen? (demanded : Bool) (cs : List Char) : Option (List Char) :=
  if demanded then
    match cs with
    | '-' :: rest => some rest
    | _ => none
  else some cs

/-- A date `YYYY-MM-DD`, `YYYYMMDD`, `YYYY-Www`, `YYYYWww`, `YYYY-Www-D` or `YYYYWwwD`. -/
def readDate? (cs : List Char) : Option Date := do
  let (year, cs) ← readDigits? 4 cs
  let hyphens := cs.head? == some '-'
  let cs ← dropHyphen? hyphens cs
  match cs with
  | 'W' :: cs =>
    let (week, cs) ← readDigits? 2 cs
    if cs.isEmpty then Date.ofWeek? year week 1
    else
      let cs ← dropHyphen? hyphens cs
      let (day, _) ← readDigits? 1 cs
      Date.ofWeek? year week day
  | cs =>
    let (month, cs) ← readDigits? 2 cs
    let cs ← dropHyphen? hyphens cs
    let (day, cs) ← readDigits? 2 cs
    if cs.isEmpty then Date.of? year month day else none

/-- The fields of a time before they are checked, and whether a character is left over. -/
structure ClockFields where
  hour : Nat
  minute : Nat
  second : Nat
  micro : Nat
  leftover : Bool
deriving DecidableEq, Repr

/-- The fields that a list of hour, minute and second stands for; what is missing is zero. -/
def clockFields (values : List Nat) (micro : Nat) (leftover : Bool) : ClockFields :=
  ⟨values.getD 0 0, values.getD 1 0, values.getD 2 0, micro, leftover⟩

/-- A fraction of a second: up to six digits count, which all have to be digits; more digits are
cut off. A NUL ends the text. -/
def readFraction? (values : List Nat) (cs : List Char) : Option ClockFields :=
  let width := min 6 cs.length
  match readDigits? width cs with
  | none => none
  | some (n, rest) =>
    let rest := rest.dropWhile isDigit
    some (clockFields values (n * Nat.pow 10 (6 - width)) (rest.head?.any (· != '\x00')))

/-- The fields of a time from the `left` fields still possible on. The first separator decides
whether colons stand between the fields; after the last field, or after a point or a comma, the
fraction begins. One ASCII character may be left over at the end. -/
def readFields? : Nat → Option Bool → List Nat → List Char → Option ClockFields
  | 0, _, values, cs => readFraction? values cs
  | left + 1, colons, values, cs =>
    match readDigits? 2 cs with
    | none => none
    | some (value, cs) =>
      let values := values ++ [value]
      match cs with
      | [] => some (clockFields values 0 false)
      | c :: rest =>
        if rest.isEmpty && c.toNat < 0x80 then some (clockFields values 0 (c != '\x00'))
        else
          let colons := colons.getD (c == ':')
          if colons && c == ':' then readFields? left (some colons) values rest
          else if c == '.' || c == ',' then readFraction? values rest
          else if colons then none
          else readFields? left (some colons) values (c :: rest)

/-- A time `HH`, `HH:MM`, `HHMM`, `HH:MM:SS` or `HHMMSS`, with an optional fraction. -/
def readClock? (cs : List Char) : Option ClockFields :=
  readFields? 3 none [] cs

/-- The offset with the given fields after its sign; an offset of less than a second is UTC. -/
def offsetOf? (negative : Bool) (f : ClockFields) : Option Offset :=
  let seconds := (f.hour * 60 + f.minute) * 60 + f.second
  let micros : Int := if seconds = 0 then 0 else (seconds * 1000000 + f.micro : Nat)
  Offset.of? (if negative then -micros else micros)

/-- A time of day with an optional offset. What is left over after the time is passed over only in
front of an offset. -/
def readTime? (cs : List Char) : Option (Clock × Option Offset) := do
  let isSign := fun c : Char => c == '+' || c == '-'
  let time := cs.takeWhile (!isSign ·)
  let f ← readClock? time
  match cs.drop time.length with
  | [] =>
    if f.leftover then none
    else
      let clock ← Clock.of? f.hour f.minute f.second f.micro
      some (clock, none)
  | sign :: zone =>
    let z ← readClock? zone
    if z.leftover then none
    else
      let offset ← offsetOf? (sign == '-') z
      let clock ← Clock.of? f.hour f.minute f.second f.micro
      some (clock, some offset)

/-- A date, or a date, any character and a time. -/
def readChars? (cs : List Char) : Option Stamp := do
  let size ← dateLength? cs
  let date ← readDate? (cs.take size)
  match cs.drop size with
  | [] => some ⟨date, Clock.midnight, none⟩
  | _ :: time =>
    let (clock, offset) ← readTime? time
    some ⟨date, clock, offset⟩

/-- Writes an offset of zero out where a text has the letter `Z` for it. -/
def spellZulu (cs : List Char) : List Char :=
  cs.flatMap fun c => if c = 'Z' then ['+', '0', '0', ':', '0', '0'] else [c]

/-- The stamp that a text denotes, if any. Blanks around it do not count, and every `Z` stands for
an offset of zero. -/
def read? (s : String) : Option Stamp :=
  readChars? (spellZulu (Text.trimChars s.toList))

end MigrationBench.Stamp
