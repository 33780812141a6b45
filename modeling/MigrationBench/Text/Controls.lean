/-!
# Control sequences

A terminal takes an escape character and an opening bracket as the start of a control sequence,
which sets a colour or moves the cursor and has no text of its own.

* `afterControl?` — what follows a control sequence at the head of a text.
* `withoutControls` — a text without its control sequences.
-/

namespace MigrationBench.Text

/-- Whether a character can be a parameter of a control sequence. -/
def isControlParameter (c : Char) : Bool :=
  '0' ≤ c && c ≤ '?'

/-- Whether a character can stand between the parameters and the end of a control sequence. -/
def isControlIntermediate (c : Char) : Bool :=
  ' ' ≤ c && c ≤ '/'

/-- Whether a character ends a control sequence. -/
def isControlFinal (c : Char) : Bool :=
  '@' ≤ c && c ≤ '~'

/-- What follows a control sequence at the head of a text: an escape character, a bracket,
parameters, intermediate characters and one final character. -/
def afterControl? : List Char → Option (List Char)
  | '\x1b' :: '[' :: body =>
    match (body.dropWhile isControlParameter).dropWhile isControlIntermediate with
    | c :: rest => if isControlFinal c then some rest else none
    | [] => none
  | _ => none

theorem length_of_afterControl? {cs rest : List Char} (h : afterControl? cs = some rest) :
    rest.length < cs.length := by
  unfold afterControl? at h
  split at h
  · rename_i body
    split at h
    · rename_i c tail heq
      split at h
      · cases h
        have h₁ := (List.dropWhile_suffix isControlParameter (l := body)).length_le
        have h₂ := (List.dropWhile_suffix isControlIntermediate
          (l := body.dropWhile isControlParameter)).length_le
        simp only [heq, List.length_cons] at h₂ ⊢
        omega
      · cases h
    · cases h
  · cases h

/-- The characters that are part of no control sequence. What is left may form a new sequence, which
stays. -/
def outsideControls : List Char → List Char
  | [] => []
  | c :: rest =>
    match h : afterControl? (c :: rest) with
    | some after =>
      have : after.length < rest.length + 1 := length_of_afterControl? h
      outsideControls after
    | none => c :: outsideControls rest
termination_by cs => cs.length

/-- A text without its control sequences. -/
def withoutControls (s : String) : String :=
  String.ofList (outsideControls s.toList)

end MigrationBench.Text
