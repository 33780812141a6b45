import MigrationBench.Yaml.Scalars

/-!
# Tokens of YAML

A text is cut into scalars and marks. Marks for the start and the end of indented collections have
no text of their own: they follow from the columns. That a scalar is the key of a mapping shows
only at the colon behind it, so the place in front of everything that may be a key is remembered,
and the marks are put there later.

* `Yaml.Token` — the tokens.
* `Yaml.Lexer` — the state of the reading; `Yaml.Lexer.next` adds the next tokens.
* `Yaml.tokens` — the tokens of a text.
-/

namespace MigrationBench.Yaml

/-- A token. -/
inductive Token where
  | documentStart
  | documentEnd
  | blockSequence
  | blockMapping
  | blockEnd
  | flowSequence
  | flowSequenceEnd
  | flowMapping
  | flowMappingEnd
  | entry
  | comma
  | key
  | value
  | scalar (text : String) (isPlain : Bool)
deriving DecidableEq, Repr

/-- A place where a key may have begun: its position among the tokens and in the text. At the column
of a block mapping there has to be a key. -/
structure KeyPlace where
  position : Nat
  line : Nat
  column : Nat
  index : Nat
  isRequired : Bool
deriving DecidableEq, Repr

/-- The state of the reading: the tokens so far, the column of the innermost block collection and
those around it, whether a key may begin here, and the places of possible keys, one for each pair
of brackets that is open and one for the outside. -/
structure Lexer where
  cursor : Cursor
  tokens : List Token := []
  indent : Int := -1
  outerIndents : List Int := []
  allowsKey : Bool := true
  place : Option KeyPlace := none
  outerPlaces : List (Option KeyPlace) := []
deriving DecidableEq, Repr

namespace Lexer

/-- The greatest number of characters in a key. -/
def maxKeySize : Nat := 1024

/-- Whether brackets are open. -/
def inFlow (l : Lexer) : Bool :=
  !l.outerPlaces.isEmpty

/-- Adds a token. -/
def emit (l : Lexer) (t : Token) : Lexer :=
  { l with tokens := l.tokens ++ [t] }

/-- Adds a token for so many characters. -/
def emitSteps (l : Lexer) (t : Token) (n : Nat) : Lexer :=
  { l.emit t with cursor := l.cursor.steps n }

/-! ### Blanks -/

/-- Passes over blanks, comments and line breaks. Outside brackets a new line may begin with a key,
and where a key may begin no tab may stand. -/
def skipBlanks : Nat → Lexer → Lexer
  | 0, l => l
  | fuel + 1, l =>
    let s := l.cursor
    let s := if s.column = 0 && s.isAt '\ufeff' then s.step else s
    let s := s.skip fun c => c == ' ' || (c == '\t' && (l.inFlow || !l.allowsKey))
    let s := if s.isAt '#' then s.skip (!isBreak ·) else s
    if s.ahead.head?.any isBreak then
      skipBlanks fuel { l with cursor := s.step, allowsKey := l.allowsKey || !l.inFlow }
    else { l with cursor := s }

/-! ### Indentation -/

/-- Opens a block collection at a column, unless one is open there. Its mark is put at a position
among the tokens. -/
def openBlock (l : Lexer) (column : Nat) (position : Nat) (mark : Token) : Lexer :=
  if !l.inFlow && l.indent < column then
    { l with
      indent := column
      outerIndents := l.indent :: l.outerIndents
      tokens := l.tokens.insertIdx position mark }
  else l

/-- Closes block collections, from the inside out, as long as they are to the right of a column. -/
def closeBlocksFrom (column : Int) : List Int → Lexer → Lexer
  | [], l => l
  | outer :: rest, l =>
    if column < l.indent then
      closeBlocksFrom column rest { l.emit .blockEnd with indent := outer, outerIndents := rest }
    else l

/-- Closes the block collections to the right of a column; between brackets columns do not count. -/
def closeBlocks (l : Lexer) (column : Int) : Lexer :=
  if l.inFlow then l else closeBlocksFrom column l.outerIndents l

/-! ### Keys -/

/-- A place where a key has to be cannot be given up. -/
def giveUp (place : Option KeyPlace) : Except Fault Unit :=
  if place.any (·.isRequired) then .error .malformed else .ok ()

/-- Whether a key from a place can still end here: keys are short and stand on one line. -/
def isFresh (s : Cursor) (place : KeyPlace) : Bool :=
  place.line == s.line && s.index ≤ place.index + maxKeySize

/-- Gives up a place that lies too far behind. -/
def refresh (s : Cursor) (place : Option KeyPlace) : Except Fault (Option KeyPlace) := do
  if place.all (isFresh s) then return place
  else
    giveUp place
    return none

/-- Gives up all places that lie too far behind. -/
def refreshKeys (l : Lexer) : Except Fault Lexer := do
  let place ← refresh l.cursor l.place
  let outerPlaces ← l.outerPlaces.mapM (refresh l.cursor)
  return { l with place, outerPlaces }

/-- Gives up the innermost place. -/
def dropKey (l : Lexer) : Except Fault Lexer := do
  giveUp l.place
  return { l with place := none }

/-- Remembers that a key may begin here. -/
def markKey (l : Lexer) : Except Fault Lexer := do
  if l.allowsKey then
    let l ← l.dropKey
    return { l with place := some {
      position := l.tokens.length
      line := l.cursor.line
      column := l.cursor.column
      index := l.cursor.index
      isRequired := !l.inFlow && l.indent == (l.cursor.column : Int) } }
  else return l

/-! ### Marks -/

/-- The mark of a document. -/
def documentMark (l : Lexer) (t : Token) : Except Fault Lexer := do
  let l ← (l.closeBlocks (-1)).dropKey
  return { l.emitSteps t 3 with allowsKey := false }

/-- An opening bracket. -/
def openFlow (l : Lexer) (t : Token) : Except Fault Lexer := do
  let l ← l.markKey
  return { l.emitSteps t 1 with
    allowsKey := true, place := none, outerPlaces := l.place :: l.outerPlaces }

/-- A closing bracket. -/
def closeFlow (l : Lexer) (t : Token) : Except Fault Lexer := do
  let l ← l.dropKey
  let l := { l.emitSteps t 1 with allowsKey := false }
  match l.outerPlaces with
  | place :: rest => return { l with place, outerPlaces := rest }
  | [] => return l

/-- A comma. -/
def comma (l : Lexer) : Except Fault Lexer := do
  let l ← l.dropKey
  return { l.emitSteps .comma 1 with allowsKey := true }

/-- The hyphen of an entry. -/
def entry (l : Lexer) : Except Fault Lexer := do
  if !l.inFlow && !l.allowsKey then throw .malformed
  let l ← (l.openBlock l.cursor.column l.tokens.length .blockSequence).dropKey
  return { l.emitSteps .entry 1 with allowsKey := true }

/-- The question mark of a key. -/
def key (l : Lexer) : Except Fault Lexer := do
  if !l.inFlow && !l.allowsKey then throw .malformed
  let l ← (l.openBlock l.cursor.column l.tokens.length .blockMapping).dropKey
  return { l.emitSteps .key 1 with allowsKey := !l.inFlow }

/-- The colon of a value. What stands at the remembered place is its key. -/
def value (l : Lexer) : Except Fault Lexer := do
  match l.place with
  | some place =>
    let l := { l with tokens := l.tokens.insertIdx place.position .key }
    let l := l.openBlock place.column place.position .blockMapping
    return { l.emitSteps .value 1 with allowsKey := false, place := none }
  | none =>
    if !l.inFlow && !l.allowsKey then throw .malformed
    let l := l.openBlock l.cursor.column l.tokens.length .blockMapping
    return { l.emitSteps .value 1 with allowsKey := !l.inFlow }

/-! ### Scalars -/

/-- The lexer after a scalar. -/
def emitScalar (l : Lexer) (s : Scalar) (isPlain allowsKey : Bool) : Lexer :=
  { l.emit (.scalar (String.ofList s.text) isPlain) with cursor := s.cursor, allowsKey }

/-- A block scalar. -/
def blockScalar (l : Lexer) : Except Fault Lexer := do
  let l ← l.dropKey
  return l.emitScalar (← block l.indent l.cursor) false true

/-- A quoted scalar. -/
def quotedScalar (l : Lexer) (mark : Char) : Except Fault Lexer := do
  let l ← l.markKey
  return l.emitScalar (← quoted mark l.cursor) false false

/-- A plain scalar. A key may begin behind it only on a new line. -/
def plainScalar (l : Lexer) : Except Fault Lexer := do
  let l ← l.markKey
  let s ← plain l.inFlow (l.indent + 1) l.cursor
  return l.emitScalar s true s.broken

/-- The characters that begin no plain scalar, apart from the hyphen, the question mark and the
colon. -/
def isIndicator (c : Char) : Bool :=
  isFlowMark c || c == '#' || c == '&' || c == '*' || c == '!' || c == '|' || c == '>' ||
    c == '\'' || c == '"' || c == '%' || c == '@' || c.toNat == 0x60

/-- Whether a plain scalar begins with a character in front of others. -/
def startsPlain (inFlow : Bool) (c : Char) (rest : List Char) : Bool :=
  if c = '-' then !rest.head?.any isGap
  else if c = '?' ∨ c = ':' then !inFlow && !endsWord rest
  else !isSpace c && !isIndicator c

/-! ### Reading -/

/-- Reads what begins with a character. -/
def readAt (l : Lexer) (c : Char) (rest : List Char) : Except Fault Lexer :=
  let isSeparate := l.inFlow || endsWord rest
  if l.cursor.column = 0 && c == '%' then .error .malformed
  else if l.cursor.isMark '-' then l.documentMark .documentStart
  else if l.cursor.isMark '.' then l.documentMark .documentEnd
  else if c = '[' then l.openFlow .flowSequence
  else if c = '{' then l.openFlow .flowMapping
  else if c = ']' then l.closeFlow .flowSequenceEnd
  else if c = '}' then l.closeFlow .flowMappingEnd
  else if c = ',' then l.comma
  else if c = '-' ∧ endsWord rest then l.entry
  else if c = '?' ∧ isSeparate then l.key
  else if c = ':' ∧ isSeparate then l.value
  else if (c = '|' ∨ c = '>') ∧ !l.inFlow then l.blockScalar
  else if c = '\'' ∨ c = '"' then l.quotedScalar c
  else if startsPlain l.inFlow c rest then l.plainScalar
  else .error .malformed

/-- Reads what is next. -/
def next (l : Lexer) : Except Fault Lexer := do
  let l ← (skipBlanks (l.cursor.ahead.length + 1) l).refreshKeys
  match l.cursor.ahead with
  | [] => (l.closeBlocks (-1)).dropKey
  | c :: rest => (l.closeBlocks l.cursor.column).readAt c rest

/-- Reads up to the end of the text, which is read as well. -/
def readAll : Nat → Lexer → Except Fault Lexer
  | 0, _ => .error .malformed
  | fuel + 1, l => do
    let after ← l.next
    if l.cursor.ahead = [] then return after else readAll fuel after

end Lexer

/-- The tokens of a text. -/
def tokens (text : List Char) : Except Fault (List Token) :=
  if text.all isAllowed then
    (Lexer.readAll (text.length + 2) { cursor := { ahead := text } }).map Lexer.tokens
  else .error .malformed

end MigrationBench.Yaml
