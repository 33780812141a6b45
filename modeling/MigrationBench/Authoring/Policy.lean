import MigrationBench.Authoring.Author
import MigrationBench.Fault

/-!
# Authoring policies

A policy decides whether a migrated change keeps its author.

* `Policy` — any policy: a question about an address, and a default author.
* `Authoring` — the built-in policies, with `Authoring.make` for their rules.
* `Authoring.policy` — a built-in policy as a policy.
-/

namespace MigrationBench

/-- The author that a text denotes, or the fault that it denotes none. -/
def Author.parse (text : String) : Except ArgumentFault Author :=
  match Author.parse? text with
  | some author => .ok author
  | none => .error (.badAuthor text)

/-- Decides whether the author with an e-mail address is kept. -/
structure Policy where
  keeps : String → Bool
  fallback : Author

/-- The rule of a built-in policy. -/
inductive Authoring.Rule where
  | passThru
  | overwrite
  | allowed (emails : List String) (nonempty : emails ≠ [])
deriving DecidableEq

/-- A built-in policy: a default author and a rule. -/
structure Authoring where
  fallback : Author
  rule : Authoring.Rule
deriving DecidableEq

namespace Authoring

/-- The mode of a policy. -/
def mode (a : Authoring) : Mode :=
  match a.rule with
  | .passThru => .passThru
  | .overwrite => .overwrite
  | .allowed _ _ => .allowed

/-- The addresses on the list of a policy; without a list there are none. -/
def allowlist (a : Authoring) : List String :=
  match a.rule with
  | .allowed emails _ => emails
  | _ => []

/-- The rule of a mode with a list of addresses. A list goes with the mode `allowed` and with no
other. -/
def Rule.make (mode : Mode) (emails : List String) : Except ArgumentFault Rule :=
  match mode with
  | .allowed => if h : emails = [] then .error .emptyAllowlist else .ok (.allowed emails h)
  | .passThru => if emails = [] then .ok .passThru else .error (.uselessAllowlist .passThru)
  | .overwrite => if emails = [] then .ok .overwrite else .error (.uselessAllowlist .overwrite)

/-- A policy from its parts, the mode given by its word. -/
def make (fallback : Option Author) (modeWord : String) (emails : List String) :
    Except ArgumentFault Authoring :=
  match fallback with
  | none => .error .noDefaultAuthor
  | some author =>
    match Mode.ofWord? modeWord with
    | none => .error (.unknownMode modeWord)
    | some mode => (Rule.make mode emails).map fun rule => ⟨author, rule⟩

/-- Whether the author with an address is kept. -/
def keeps (a : Authoring) (email : String) : Bool :=
  match a.rule with
  | .passThru => true
  | .overwrite => false
  | .allowed emails _ => emails.contains email

/-- A built-in policy seen as any policy. -/
def policy (a : Authoring) : Policy where
  keeps := a.keeps
  fallback := a.fallback

/-- The policy that keeps every author. -/
def passThru (fallback : Author) : Authoring := ⟨fallback, .passThru⟩

end Authoring

end MigrationBench
